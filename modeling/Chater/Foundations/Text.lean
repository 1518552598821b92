import Mathlib.Data.List.DropRight
import Mathlib.Tactic

/-!
# Text: trimming, lines and numerals

What line-based text formats are made of: removing characters of one set at the front and of another at the back,
reading a text line by line, and decimal numerals as the C library reads them.
-/

namespace Chater.Text

set_option autoImplicit false

/-! ## Trimming -/

section Trim

variable {α : Type} (lead trail : α → Bool)

/-- From the first character that is not `lead` to the last that is not `trail`. -/
def trim (s : List α) : List α :=
  let start := (s.takeWhile lead).length
  let stop := s.length - (s.reverse.takeWhile trail).length
  if start < stop then (s.take stop).drop start else []

variable {lead trail} {s t : List α}

theorem rdropWhile_eq_take (trail : α → Bool) (s : List α) :
    s.rdropWhile trail = s.take (s.length - (s.reverse.takeWhile trail).length) := by
  have hsplit := List.takeWhile_append_dropWhile (p := trail) (l := s.reverse)
  have hs := congrArg List.reverse hsplit
  rw [List.reverse_append, List.reverse_reverse] at hs
  have hlength := congrArg List.length hsplit
  rw [List.length_append, List.length_reverse] at hlength
  have hstop : s.length - (s.reverse.takeWhile trail).length = (s.reverse.dropWhile trail).reverse.length := by
    rw [List.length_reverse]
    omega
  have htake : ((s.reverse.dropWhile trail).reverse ++ (s.reverse.takeWhile trail).reverse).take
      (s.reverse.dropWhile trail).reverse.length = (s.reverse.dropWhile trail).reverse := List.take_left
  rw [hs, ← hstop] at htake
  exact htake.symm

theorem length_rdropWhile (trail : α → Bool) (s : List α) :
    (s.rdropWhile trail).length = s.length - (s.reverse.takeWhile trail).length := by
  rw [rdropWhile_eq_take, List.length_take]
  omega

theorem rdropWhile_append_of_ne_nil (s : List α) (h : t.rdropWhile trail ≠ []) :
    (s ++ t).rdropWhile trail = s ++ t.rdropWhile trail := by
  induction t using List.reverseRecOn with
  | nil => exact absurd rfl h
  | append_singleton t c ih =>
    rw [← List.append_assoc]
    by_cases hc : trail c = true
    · rw [List.rdropWhile_concat_pos _ _ _ hc] at h ⊢
      rw [List.rdropWhile_concat_pos _ _ _ hc]
      exact ih h
    · rw [List.rdropWhile_concat_neg _ _ _ hc, List.rdropWhile_concat_neg _ _ _ hc, List.append_assoc]

theorem length_rdropWhile_append_le (s : List α) (h : ∀ c ∈ t, trail c = true) :
    ((s ++ t).rdropWhile trail).length ≤ s.length := by
  induction t using List.reverseRecOn with
  | nil =>
    rw [List.append_nil]
    exact (List.rdropWhile_prefix trail s).length_le
  | append_singleton t c ih =>
    rw [← List.append_assoc, List.rdropWhile_concat_pos _ _ _ (h c (by simp))]
    exact ih fun d hd => h d (List.mem_append_left _ hd)

theorem trim_eq (s : List α) : trim lead trail s = (s.dropWhile lead).rdropWhile trail := by
  have hsplit : s.takeWhile lead ++ s.dropWhile lead = s := List.takeWhile_append_dropWhile
  have hwhole := rdropWhile_eq_take trail s
  have hlength := length_rdropWhile trail s
  unfold trim
  simp only [← hlength]
  by_cases hnil : (s.dropWhile lead).rdropWhile trail = []
  · -- nothing is left behind the leading part
    have hle := length_rdropWhile_append_le (s.takeWhile lead) (List.rdropWhile_eq_nil_iff.mp hnil)
    rw [hsplit] at hle
    rw [if_neg (by omega), hnil]
  · have happend := rdropWhile_append_of_ne_nil (s.takeWhile lead) hnil
    rw [hsplit] at happend
    have hpos := List.length_pos_of_ne_nil hnil
    have hsum := congrArg List.length happend
    rw [List.length_append] at hsum
    rw [if_pos (by omega), hlength, ← hwhole, happend, List.drop_left]

/-- Characters removed at both ends, around a text that neither begins nor ends with such a character. -/
theorem trim_padded {pre post : List α} (hpre : ∀ c ∈ pre, lead c = true) (hpost : ∀ c ∈ post, trail c = true)
    (hfirst : ∀ c ∈ s.head?, lead c = false) (hlast : ∀ c ∈ s.getLast?, trail c = false) (hne : s ≠ []) :
    trim lead trail (pre ++ s ++ post) = s := by
  rw [trim_eq, List.append_assoc, List.dropWhile_append_of_pos hpre]
  have hdrop : (s ++ post).dropWhile lead = s ++ post := by
    cases s with
    | nil => exact absurd rfl hne
    | cons c s => exact List.dropWhile_cons_of_neg (by rw [hfirst c rfl]; exact Bool.false_ne_true)
  rw [hdrop]
  clear hdrop
  induction post using List.reverseRecOn with
  | nil =>
    obtain ⟨s, c, rfl⟩ := List.eq_nil_or_concat' s |>.resolve_left hne
    rw [List.append_nil]
    exact List.rdropWhile_concat_neg _ _ _ (by rw [hlast c (by simp)]; exact Bool.false_ne_true)
  | append_singleton post c ih =>
    rw [← List.append_assoc, List.rdropWhile_concat_pos _ _ _ (hpost c (by simp))]
    exact ih fun d hd => hpost d (List.mem_append_left _ hd)

theorem trim_eq_nil {pre post : List α} (hpre : ∀ c ∈ pre, lead c = true) (hpost : ∀ c ∈ post, trail c = true) :
    trim lead trail (pre ++ post) = [] := by
  rw [trim_eq, List.dropWhile_append_of_pos hpre, List.rdropWhile_eq_nil_iff]
  intro c hc
  exact hpost c ((List.dropWhile_suffix lead).subset hc)

/-- Around a character that is removed at neither end, both sides are trimmed for themselves. -/
theorem trim_around {c : α} (hlead : lead c = false) (htrail : trail c = false) (pre post : List α) :
    trim lead trail (pre ++ c :: post) = pre.dropWhile lead ++ c :: post.rdropWhile trail := by
  have hdrop : (pre ++ c :: post).dropWhile lead = pre.dropWhile lead ++ c :: post := by
    rw [List.dropWhile_append]
    split_ifs with hnil
    · rw [List.isEmpty_iff.mp hnil, List.dropWhile_cons_of_neg (by rw [hlead]; exact Bool.false_ne_true),
        List.nil_append]
    · rfl
  rw [trim_eq, hdrop]
  clear hdrop
  induction post using List.reverseRecOn with
  | nil => exact List.rdropWhile_concat_neg _ _ _ (by rw [htrail]; exact Bool.false_ne_true)
  | append_singleton post d ih =>
    rw [← List.cons_append, ← List.append_assoc]
    by_cases hd : trail d = true
    · rw [List.rdropWhile_concat_pos _ _ _ hd, List.rdropWhile_concat_pos _ _ _ hd, ih]
    · rw [List.rdropWhile_concat_neg _ _ _ hd, List.rdropWhile_concat_neg _ _ _ hd, List.append_assoc, List.cons_append]

theorem trim_dropWhile (s : List α) : trim lead trail (s.dropWhile lead) = trim lead trail s := by
  rw [trim_eq, trim_eq, List.dropWhile_idempotent]

end Trim

/-! ## Lines -/

section Lines

variable {α : Type} [DecidableEq α] (newline : α)

/-- The lines of a text, each ended by `newline`; the last need not be. -/
def lines (text : List α) : List (List α) :=
  let pieces := text.splitOn newline
  if pieces.getLast? = some [] then pieces.dropLast else pieces

variable {newline}

theorem splitOn_of_not_mem {line : List α} (h : newline ∉ line) : line.splitOn newline = [line] := by
  have hsplit : ([newline].intercalate [line]).splitOn newline = [line] :=
    List.splitOn_intercalate newline (by simpa using h) (by simp)
  simpa [List.intercalate] using hsplit

theorem lines_of_not_mem {line : List α} (h : newline ∉ line) (hne : line ≠ []) : lines newline line = [line] := by
  simp [lines, splitOn_of_not_mem h, hne]

theorem lines_append {line : List α} (h : newline ∉ line) (text : List α) :
    lines newline (line ++ newline :: text) = line :: lines newline text := by
  have hne : text.splitOn newline ≠ [] := List.splitOn_ne_nil newline text
  simp only [lines]
  rw [List.splitOn_append_cons_self, splitOn_of_not_mem h, List.singleton_append]
  rw [List.getLast?_cons_of_ne_nil hne]
  split_ifs
  · rw [List.dropLast_cons_of_ne_nil hne]
  · rfl

end Lines

/-! ## Numerals -/

/-- The value of a digit string. -/
def natOf (digits : List Char) : ℕ := Nat.ofDigitChars 10 digits 0

/-- `text` writes `n` in decimal: a sign or none, then digits. -/
inductive Numeral : ℤ → List Char → Prop
  | unsigned {digits : List Char} (hne : digits ≠ []) (hdigits : ∀ c ∈ digits, c.isDigit = true) :
      Numeral (natOf digits) digits
  | plus {digits : List Char} (hne : digits ≠ []) (hdigits : ∀ c ∈ digits, c.isDigit = true) :
      Numeral (natOf digits) ('+' :: digits)
  | minus {digits : List Char} (hne : digits ≠ []) (hdigits : ∀ c ∈ digits, c.isDigit = true) :
      Numeral (-natOf digits) ('-' :: digits)

/-- `isspace` in the C locale. -/
def isSpace (c : Char) : Bool := c == ' ' || (9 ≤ c.toNat && c.toNat ≤ 13)

def leadingNat (s : List Char) : ℕ := natOf (s.takeWhile Char.isDigit)

/-- The integer that `strtol` finds at the front of a text, before it is brought into the range of a `long`. -/
def leadingInt (s : List Char) : ℤ :=
  match s.dropWhile isSpace with
  | '-' :: rest => -leadingNat rest
  | '+' :: rest => leadingNat rest
  | rest => leadingNat rest

def strtol (s : List Char) : ℤ := max (-2 ^ 63) (min (leadingInt s) (2 ^ 63 - 1))

/-- `atoi` converts the result of `strtol` to `int`. -/
def atoi (s : List Char) : Int32 := Int32.ofInt (strtol s)

theorem leadingNat_of_digits {digits : List Char} (hdigits : ∀ c ∈ digits, c.isDigit = true) :
    leadingNat digits = natOf digits := by
  rw [leadingNat, List.takeWhile_eq_self_iff.mpr hdigits]

theorem toNat_of_isDigit {c : Char} (h : c.isDigit = true) : 48 ≤ c.toNat ∧ c.toNat ≤ 57 := by
  rw [Char.isDigit, Bool.and_eq_true, decide_eq_true_eq, decide_eq_true_eq] at h
  exact ⟨UInt32.le_iff_toNat_le.mp h.1, UInt32.le_iff_toNat_le.mp h.2⟩

theorem isSpace_of_isDigit {c : Char} (h : c.isDigit = true) : isSpace c = false := by
  obtain ⟨hlo, hhi⟩ := toNat_of_isDigit h
  have hne : c ≠ ' ' := by
    rintro rfl
    exact absurd hlo (by decide)
  simp only [isSpace, Bool.or_eq_false_iff, beq_eq_false_iff_ne, Bool.and_eq_false_iff, decide_eq_false_iff_not]
  exact ⟨hne, .inr (by omega)⟩

theorem leadingInt_numeral {n : ℤ} {text : List Char} (h : Numeral n text) : leadingInt text = n := by
  cases h with
  | unsigned hne hdigits =>
    cases text with
    | nil => exact absurd rfl hne
    | cons c cs =>
      have hc := hdigits c List.mem_cons_self
      have hnat := toNat_of_isDigit hc
      have hminus : c ≠ '-' := by
        rintro rfl
        exact absurd hc (by decide)
      have hplus : c ≠ '+' := by
        rintro rfl
        exact absurd hc (by decide)
      rw [leadingInt, List.dropWhile_cons_of_neg (by rw [isSpace_of_isDigit hc]; exact Bool.false_ne_true)]
      split
      · rename_i heq
        exact absurd (List.cons.inj heq).1 hminus
      · rename_i heq
        exact absurd (List.cons.inj heq).1 hplus
      · rw [leadingNat_of_digits hdigits]
  | plus hne hdigits =>
    show ((leadingNat _ : ℕ) : ℤ) = _
    rw [leadingNat_of_digits hdigits]
  | minus hne hdigits =>
    show -((leadingNat _ : ℕ) : ℤ) = _
    rw [leadingNat_of_digits hdigits]

/-- Integers in the range of `int` are read as they are written. -/
theorem toInt_atoi {n : ℤ} {text : List Char} (h : Numeral n text) (hlo : -2 ^ 31 ≤ n) (hhi : n < 2 ^ 31) :
    (atoi text).toInt = n := by
  have hstrtol : strtol text = n := by
    rw [strtol, leadingInt_numeral h]
    omega
  rw [atoi, hstrtol]
  exact Int32.toInt_ofInt_of_le hlo hhi

/-- No character of a numeral is one of those that delimit it in a text. -/
theorem Numeral.solid {n : ℤ} {text : List Char} (h : Numeral n text) :
    text ≠ [] ∧ ∀ c ∈ text, c.isDigit = true ∨ c = '+' ∨ c = '-' := by
  cases h with
  | unsigned hne hdigits => exact ⟨hne, fun c hc => .inl (hdigits c hc)⟩
  | plus hne hdigits =>
    refine ⟨List.cons_ne_nil _ _, fun c hc => ?_⟩
    obtain rfl | hc := List.mem_cons.mp hc
    · exact .inr (.inl rfl)
    · exact .inl (hdigits c hc)
  | minus hne hdigits =>
    refine ⟨List.cons_ne_nil _ _, fun c hc => ?_⟩
    obtain rfl | hc := List.mem_cons.mp hc
    · exact .inr (.inr rfl)
    · exact .inl (hdigits c hc)

def decimal : ℤ → List Char
  | .ofNat n => Nat.toDigits 10 n
  | .negSucc n => '-' :: Nat.toDigits 10 (n + 1)

theorem numeral_decimal (n : ℤ) : Numeral n (decimal n) := by
  have hnat : ∀ m : ℕ, natOf (Nat.toDigits 10 m) = m := fun m =>
    Nat.ofDigitChars_toDigits (by decide) (by decide)
  have hdigits : ∀ m : ℕ, ∀ c ∈ Nat.toDigits 10 m, c.isDigit = true := fun m c hc =>
    Nat.isDigit_of_mem_toDigits (by decide) (by decide) hc
  have hne : ∀ m : ℕ, Nat.toDigits 10 m ≠ [] := fun m => Nat.toDigits_ne_nil
  cases n with
  | ofNat m =>
    have h := Numeral.unsigned (hne m) (hdigits m)
    rwa [hnat m] at h
  | negSucc m =>
    have h := Numeral.minus (hne (m + 1)) (hdigits (m + 1))
    rwa [hnat (m + 1)] at h

end Chater.Text
