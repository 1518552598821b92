import Chater.Gateway.GatewayContext

/-!
# Configuration files and what they say

`FileOf text sets` describes the files that are meant to be written: lines `key: value` with strings in double quotes
and integers in decimal, blank lines, comments, section headers and lines with other keys, indented and padded with
blanks and ended by LF or CRLF.  `sets` are the settings that the file makes, in order.  `LoadConfig` reads from such a
file just these settings, whatever the strings contain besides newlines.
-/

namespace Chater.Gateway

open Chater.Text

set_option autoImplicit false

/-! ## The syntax -/

def Quotes (s text : List Char) : Prop := '\n' ∉ s ∧ text = '"' :: (s ++ ['"'])

/-- `text` is a way to write the value. -/
def Kind.Writes : (κ : Kind) → κ.Value → List Char → Prop
  | .string, s, text => Quotes s text
  | .port, n, text => Numeral (UInt16.toNat n) text
  | .int, n, text => Numeral (Int32.toInt n) text

abbrev Setting := (k : Key) × k.kind.Value

namespace GatewayContext

def Blanks (s : List Char) : Prop := ∀ c ∈ s, isBlank c = true

/-- A line without its ending, and what it sets. -/
inductive LineOf : List Char → Option Setting → Prop
  | setting {indent pad text trail : List Char} (k : Key) (v : k.kind.Value) (hindent : Blanks indent)
      (hpad : Blanks pad) (htrail : Blanks trail) (htext : k.kind.Writes v text) :
      LineOf (indent ++ k.name.toList ++ ':' :: (pad ++ text ++ trail)) (some ⟨k, v⟩)
  | blank {s : List Char} (hs : Blanks s) : LineOf s none
  | comment {indent : List Char} (hindent : Blanks indent) {s : List Char} (hs : '\n' ∉ s) :
      LineOf (indent ++ '#' :: s) none
  | header {indent name trail : List Char} (hindent : Blanks indent) (htrail : Blanks trail)
      (hname : ' ' ∉ name ∧ '\n' ∉ name) : LineOf (indent ++ name ++ ':' :: trail) none
  | otherKey {key rest : List Char} (hkey : ∀ k : Key, trim key ≠ k.name.toList) (hcolon : ':' ∉ key)
      (hline : '\n' ∉ key ++ rest) : LineOf (key ++ ':' :: rest) none

inductive Ending : List Char → Prop
  | lf : Ending ['\n']
  | crlf : Ending ['\r', '\n']

/-- A file, and the settings it makes in order. -/
inductive FileOf : List Char → List Setting → Prop
  | nil : FileOf [] []
  | line {line ending text : List Char} {set : Option Setting} {sets : List Setting} (hline : LineOf line set)
      (hending : Ending ending) (hrest : FileOf text sets) : FileOf (line ++ ending ++ text) (set.toList ++ sets)
  | unended {line : List Char} {set : Option Setting} (hline : LineOf line set) : FileOf line set.toList

/-- The value that the last setting of a key gives. -/
def lastOf (k : Key) : List Setting → Option k.kind.Value
  | [] => none
  | s :: sets => (lastOf k sets).or (if h : s.1 = k then some (h ▸ s.2) else none)

def apply (cfg : GatewayConfig) (s : Setting) : GatewayConfig := cfg.set s.1 s.2

end GatewayContext

/-- The nine settings that make the configuration. -/
def GatewayConfig.settings (cfg : GatewayConfig) : List Setting := Key.all.map fun k => ⟨k, cfg.get k⟩

namespace GatewayContext

/-! ## Names and values in a line -/

theorem name_solid (k : Key) :
    k.name.toList ≠ [] ∧ ':' ∉ k.name.toList ∧ '\n' ∉ k.name.toList ∧ k.name.toList.head? ≠ some '#' ∧
      (∀ c ∈ k.name.toList.head?, isBlank c = false) ∧ ∀ c ∈ k.name.toList.getLast?, isBlankOrCr c = false := by
  cases k <;> simp [Key.name, isBlank, isBlankOrCr]

theorem ofName_name (k : Key) : Key.ofName k.name.toList = some k := by
  cases k <;> decide

theorem ofName_eq_none {key : List Char} (h : ∀ k : Key, key ≠ k.name.toList) : Key.ofName key = none := by
  rw [Key.ofName, List.find?_eq_none]
  intro k _ hk
  exact h k (beq_iff_eq.mp hk).symm

/-- What stands behind the colon begins and ends with itself. -/
structure Solid (text : List Char) : Prop where
  ne_nil : text ≠ []
  first : ∀ c ∈ text.head?, isBlank c = false
  last : ∀ c ∈ text.getLast?, isBlankOrCr c = false ∧ c ≠ ':'
  line : '\n' ∉ text

theorem solid_of_forall {text : List Char} (hne : text ≠ [])
    (h : ∀ c ∈ text, isBlankOrCr c = false ∧ isBlank c = false ∧ c ≠ ':' ∧ c ≠ '\n') : Solid text where
  ne_nil := hne
  first c hc := (h c (List.mem_of_mem_head? hc)).2.1
  last c hc := ⟨(h c (List.mem_of_mem_getLast? hc)).1, (h c (List.mem_of_mem_getLast? hc)).2.2.1⟩
  line hmem := (h _ hmem).2.2.2 rfl

theorem numeral_solid {n : ℤ} {text : List Char} (h : Numeral n text) : Solid text := by
  obtain ⟨hne, hchars⟩ := h.solid
  refine solid_of_forall hne fun c hc => ?_
  obtain hdigit | rfl | rfl := hchars c hc
  · have hnot : ∀ d : Char, d.isDigit = false → c ≠ d := by
      rintro d hd rfl
      rw [hdigit] at hd
      cases hd
    simp only [isBlankOrCr, isBlank, Bool.or_eq_false_iff, beq_eq_false_iff_ne]
    exact ⟨⟨⟨hnot _ (by decide), hnot _ (by decide)⟩, hnot _ (by decide)⟩, ⟨hnot _ (by decide), hnot _ (by decide)⟩,
      hnot _ (by decide), hnot _ (by decide)⟩
  · decide
  · decide

theorem quoted_solid {s : List Char} (h : '\n' ∉ s) : Solid ('"' :: (s ++ ['"'])) where
  ne_nil := List.cons_ne_nil _ _
  first c hc := by
    obtain rfl := Option.some.inj hc
    decide
  last c hc := by
    rw [← List.cons_append, List.getLast?_concat] at hc
    obtain rfl := Option.some.inj hc
    decide
  line := by simp [h]

theorem writes_solid {κ : Kind} {v : κ.Value} {text : List Char} (h : κ.Writes v text) : Solid text := by
  cases κ with
  | string =>
    obtain ⟨hline, rfl⟩ := h
    exact quoted_solid hline
  | port => exact numeral_solid h
  | int => exact numeral_solid h

theorem unquote_quoted (s : List Char) : unquote ('"' :: (s ++ ['"'])) = s := by
  have hlast : ('"' :: (s ++ ['"'])).getLast? = some '"' := by rw [← List.cons_append, List.getLast?_concat]
  rw [unquote, if_pos ⟨by simp, rfl, hlast⟩]
  simp

theorem unquote_numeral {n : ℤ} {text : List Char} (h : Numeral n text) : unquote text = text := by
  rw [unquote, if_neg]
  rintro ⟨-, hfirst, -⟩
  obtain hdigit | hplus | hminus := h.solid.2 '"' (List.mem_of_mem_head? hfirst)
  · exact absurd hdigit (by decide)
  · exact absurd hplus (by decide)
  · exact absurd hminus (by decide)

theorem toUInt16_of_toInt {n : Int32} {m : ℕ} (h : n.toInt = m) (hm : m < 2 ^ 16) : (toUInt16 n).toNat = m := by
  have hmod : (n.toInt % 2 ^ 16).toNat = m := by omega
  rw [toUInt16, hmod]
  exact Nat.mod_eq_of_lt hm

theorem read_of_writes {κ : Kind} {v : κ.Value} {text : List Char} (h : κ.Writes v text) :
    κ.read (unquote text) = v := by
  cases κ with
  | string =>
    obtain ⟨-, rfl⟩ := h
    exact unquote_quoted v
  | port =>
    have hlt : UInt16.toNat v < 2 ^ 16 := UInt16.toNat_lt v
    have hatoi := toInt_atoi h (by omega) (by omega)
    rw [unquote_numeral h]
    exact UInt16.toNat_inj.mp (toUInt16_of_toInt hatoi hlt)
  | int =>
    have hatoi := toInt_atoi h (Int32.le_toInt v) (Int32.toInt_lt v)
    rw [unquote_numeral h]
    exact Int32.toInt_inj.mp hatoi

/-! ## One line -/

theorem blankOrCr_of_blank {c : Char} (h : isBlank c = true) : isBlankOrCr c = true := by
  simp only [isBlank, isBlankOrCr, Bool.or_eq_true] at h ⊢
  exact .inl h

/-- What may stand between the value and the newline. -/
def Trails (s : List Char) : Prop := ∀ c ∈ s, isBlankOrCr c = true

theorem Blanks.trails {s : List Char} (h : Blanks s) : Trails s := fun c hc => blankOrCr_of_blank (h c hc)

theorem Trails.append {s t : List Char} (hs : Trails s) (ht : Trails t) : Trails (s ++ t) := fun c hc =>
  (List.mem_append.mp hc).elim (hs c) (ht c)

theorem Blanks.head_none {s : List Char} (h : Blanks s) {c : Char} (hc : isBlank c = false) : c ∉ s := fun hmem => by
  rw [h c hmem] at hc
  cases hc

theorem trim_solid {pad text trail : List Char} (hpad : Blanks pad) (htrail : Trails trail) (htext : Solid text) :
    trim (pad ++ text ++ trail) = text :=
  trim_padded hpad htrail htext.first (fun c hc => (htext.last c hc).1) htext.ne_nil

theorem trim_name (k : Key) : trim k.name.toList = k.name.toList := by
  obtain ⟨hne, -, -, -, hfirst, hlast⟩ := name_solid k
  have h : trim ([] ++ k.name.toList ++ []) = k.name.toList := trim_padded (by simp) (by simp) hfirst hlast hne
  rwa [List.nil_append, List.append_nil] at h

theorem idxOf?_colon {key rest : List Char} (h : ':' ∉ key) : (key ++ ':' :: rest).idxOf? ':' = some key.length := by
  induction key with
  | nil => rfl
  | cons c key ih =>
    have hc : (c == ':') = false := beq_eq_false_iff_ne.mpr (List.ne_of_not_mem_cons h).symm
    rw [List.cons_append, List.idxOf?_cons, hc, ih (List.not_mem_of_not_mem_cons h)]
    rfl

theorem entryOf_setting {indent pad text trail : List Char} (k : Key) (hindent : Blanks indent) (hpad : Blanks pad)
    (htrail : Trails trail) (htext : Solid text) :
    entryOf (indent ++ k.name.toList ++ ':' :: (pad ++ text ++ trail)) = some (k, unquote text) := by
  obtain ⟨hne, hcolon, -, hhash, hfirst, -⟩ := name_solid k
  have hhead : (k.name.toList ++ ':' :: (pad ++ text)).head? = k.name.toList.head? :=
    List.head?_append_of_ne_nil _ hne
  have hlast : (k.name.toList ++ ':' :: (pad ++ text)).getLast? = text.getLast? := by
    rw [List.getLast?_append_of_ne_nil _ (List.cons_ne_nil _ _), List.getLast?_cons_of_ne_nil (by simp [htext.ne_nil]),
      List.getLast?_append_of_ne_nil _ htext.ne_nil]
  have htrim : trim (indent ++ k.name.toList ++ ':' :: (pad ++ text ++ trail)) =
      k.name.toList ++ ':' :: (pad ++ text) := by
    have h : trim (indent ++ (k.name.toList ++ ':' :: (pad ++ text)) ++ trail) = _ :=
      trim_padded hindent htrail (by rwa [hhead]) (fun c hc => (htext.last c (by rwa [hlast] at hc)).1) (by simp)
    simpa only [List.append_assoc, List.cons_append] using h
  have hvalue : trim (pad ++ text) = text := by
    have h : trim (pad ++ text ++ []) = text := trim_solid hpad (by simp [Trails]) htext
    rwa [List.append_nil] at h
  unfold entryOf
  simp only [htrim, hhead, hlast]
  rw [if_neg (by simp [hhash]), if_neg fun h => (htext.last ':' h.1).2 rfl, idxOf?_colon hcolon]
  simp only [Option.bind_eq_bind, Option.bind_some, List.take_left, trim_name, ofName_name]
  rw [List.drop_length_add_append, List.drop_succ_cons, List.drop_zero, hvalue]

theorem entryOf_of_trim {line : List Char} (h : trim line = [] ∨ (trim line).head? = some '#') :
    entryOf line = none := by
  rw [entryOf, if_pos h]

theorem entryOf_blank {s trail : List Char} (hs : Blanks s) (htrail : Trails trail) : entryOf (s ++ trail) = none :=
  entryOf_of_trim (.inl (trim_eq_nil hs htrail))

theorem entryOf_comment {indent : List Char} (hindent : Blanks indent) (s : List Char) :
    entryOf (indent ++ '#' :: s) = none := by
  have htrim : trim (indent ++ '#' :: s) = _ := trim_around (by decide) (by decide) indent s
  rw [List.dropWhile_eq_nil_iff.mpr hindent, List.nil_append] at htrim
  refine entryOf_of_trim (.inr ?_)
  rw [htrim, List.head?_cons]

theorem entryOf_header {indent name trail : List Char} (hindent : Blanks indent) (htrail : Trails trail)
    (hname : ' ' ∉ name) : entryOf (indent ++ name ++ ':' :: trail) = none := by
  have htrim : trim (indent ++ name ++ ':' :: trail) = _ := trim_around (by decide) (by decide) (indent ++ name) trail
  rw [List.rdropWhile_eq_nil_iff.mpr htrail, List.dropWhile_append_of_pos hindent] at htrim
  have hlast : (trim (indent ++ name ++ ':' :: trail)).getLast? = some ':' := by rw [htrim, List.getLast?_concat]
  have hspace : ' ' ∉ trim (indent ++ name ++ ':' :: trail) := by
    rw [htrim, List.mem_append, List.mem_singleton, not_or]
    exact ⟨fun hmem => hname ((List.dropWhile_suffix _).subset hmem), by decide⟩
  unfold entryOf
  dsimp only
  split_ifs with hskip hheader
  · rfl
  · rfl
  · exact absurd ⟨hlast, hspace⟩ hheader

theorem entryOf_otherKey {key : List Char} (hkey : ∀ k : Key, trim key ≠ k.name.toList) (hcolon : ':' ∉ key)
    (rest : List Char) : entryOf (key ++ ':' :: rest) = none := by
  have htrim : trim (key ++ ':' :: rest) = _ := trim_around (by decide) (by decide) key rest
  have hcolon' : ':' ∉ key.dropWhile isBlank := fun hmem => hcolon ((List.dropWhile_suffix _).subset hmem)
  have hunknown : Key.ofName (trim (key.dropWhile isBlank)) = none := by
    apply ofName_eq_none
    rw [trim, trim_dropWhile]
    exact hkey
  unfold entryOf
  rw [htrim]
  dsimp only
  split_ifs
  · rfl
  · rfl
  · rw [idxOf?_colon hcolon', Option.bind_eq_bind, Option.bind_some, List.take_left, hunknown]
    rfl

/-! ## Whole files -/

def applyOption (cfg : GatewayConfig) (set : Option Setting) : GatewayConfig := set.toList.foldl apply cfg

/-- A line is read as it is meant, with or without the CR of its ending. -/
theorem parseLine_of_line {line cr : List Char} {set : Option Setting} (h : LineOf line set) (hcr : Trails cr)
    (cfg : GatewayConfig) : parseLine cfg (line ++ cr) = applyOption cfg set := by
  have hnone : entryOf (line ++ cr) = none → parseLine cfg (line ++ cr) = cfg := fun hentry => by
    rw [parseLine_eq, hentry, Option.map_none, Option.getD_none]
  cases h with
  | @setting indent pad text trail k v hindent hpad htrail htext =>
    have hentry := entryOf_setting k hindent hpad (htrail.trails.append hcr) (writes_solid htext)
    rw [List.append_assoc (indent ++ k.name.toList), List.cons_append, List.append_assoc (pad ++ text), parseLine_eq,
      hentry, Option.map_some, Option.getD_some, assign, read_of_writes htext]
    rfl
  | blank hs => exact hnone (entryOf_blank hs hcr)
  | comment hindent hs =>
    rw [List.append_assoc, List.cons_append] at hnone ⊢
    exact hnone (entryOf_comment hindent _)
  | header hindent htrail hname =>
    rw [List.append_assoc, List.cons_append] at hnone ⊢
    exact hnone (entryOf_header hindent (htrail.trails.append hcr) hname.1)
  | otherKey hkey hcolon hline =>
    rw [List.append_assoc, List.cons_append] at hnone ⊢
    exact hnone (entryOf_otherKey hkey hcolon _)

theorem Blanks.line {s : List Char} (h : Blanks s) : '\n' ∉ s := h.head_none (by decide)

theorem LineOf.line {line : List Char} {set : Option Setting} (h : LineOf line set) : '\n' ∉ line := by
  cases h with
  | setting k v hindent hpad htrail htext =>
    have hname := (name_solid k).2.2.1
    simp [hindent.line, hpad.line, htrail.line, hname, (writes_solid htext).line]
  | blank hs => exact hs.line
  | comment hindent hs => simp [hindent.line, hs]
  | header hindent htrail hname => simp [hindent.line, htrail.line, hname.2]
  | otherKey hkey hcolon hline =>
    rw [List.mem_append, not_or] at hline
    simp [hline.1, hline.2]

theorem Ending.split {ending : List Char} (h : Ending ending) :
    ∃ cr, ending = cr ++ ['\n'] ∧ Trails cr ∧ '\n' ∉ cr := by
  cases h with
  | lf => exact ⟨[], rfl, by simp [Trails], by simp⟩
  | crlf => exact ⟨['\r'], rfl, by simp [Trails, isBlankOrCr], by simp⟩

theorem foldl_parseLine_file {text : List Char} {sets : List Setting} (h : FileOf text sets) (cfg : GatewayConfig) :
    (lines '\n' text).foldl parseLine cfg = sets.foldl apply cfg := by
  induction h generalizing cfg with
  | nil => rfl
  | @line line ending text set sets hline hending hrest ih =>
    obtain ⟨cr, rfl, htrails, hcr⟩ := hending.split
    have hno : '\n' ∉ line ++ cr := by simp [hline.line, hcr]
    have htext : line ++ (cr ++ ['\n']) ++ text = (line ++ cr) ++ '\n' :: text := by simp
    rw [htext, lines_append hno, List.foldl_cons, parseLine_of_line hline htrails, ih, List.foldl_append]
    rfl
  | @unended line set hline =>
    have hparse : parseLine cfg (line ++ []) = _ := parseLine_of_line hline (by simp [Trails]) cfg
    rw [List.append_nil] at hparse
    by_cases hne : line = []
    · -- a file without a character
      subst hne
      exact hparse
    · rw [lines_of_not_mem hline.line hne]
      exact hparse

/-! ## The settings that count -/

theorem get_foldl_apply (k : Key) (sets : List Setting) (cfg : GatewayConfig) :
    (sets.foldl apply cfg).get k = (lastOf k sets).getD (cfg.get k) := by
  induction sets generalizing cfg with
  | nil => rfl
  | cons s sets ih =>
    obtain ⟨k', v⟩ := s
    rw [List.foldl_cons, ih, lastOf]
    cases lastOf k sets with
    | some w => rfl
    | none =>
      by_cases hk : k' = k
      · subst hk
        simp [apply]
      · rw [dif_neg hk]
        exact GatewayConfig.get_set_of_ne _ (Ne.symm hk) _

theorem mem_of_lastOf {k : Key} {v : k.kind.Value} {sets : List Setting} (h : lastOf k sets = some v) :
    (⟨k, v⟩ : Setting) ∈ sets := by
  induction sets with
  | nil => cases h
  | cons s sets ih =>
    obtain ⟨k', v'⟩ := s
    rw [lastOf] at h
    cases hlater : lastOf k sets with
    | some w =>
      rw [hlater] at h
      obtain rfl := Option.some.inj h
      exact List.mem_cons_of_mem _ (ih hlater)
    | none =>
      rw [hlater] at h
      by_cases hk : k' = k
      · subst hk
        rw [dif_pos rfl] at h
        obtain rfl := Option.some.inj h
        exact List.mem_cons_self
      · rw [dif_neg hk] at h
        cases h

theorem lastOf_of_unique {k : Key} {v : k.kind.Value} {sets : List Setting} (hmem : (⟨k, v⟩ : Setting) ∈ sets)
    (hunique : ∀ v', (⟨k, v'⟩ : Setting) ∈ sets → v' = v) : lastOf k sets = some v := by
  induction sets with
  | nil => exact absurd hmem List.not_mem_nil
  | cons s sets ih =>
    have hrest : ∀ v', (⟨k, v'⟩ : Setting) ∈ sets → v' = v := fun v' h => hunique v' (List.mem_cons_of_mem s h)
    rw [lastOf]
    by_cases hlater : (⟨k, v⟩ : Setting) ∈ sets
    · rw [ih hlater hrest]
      rfl
    · obtain rfl : ⟨k, v⟩ = s := (List.mem_cons.mp hmem).resolve_right hlater
      have hnone : lastOf k sets = none := by
        cases hlast : lastOf k sets with
        | none => rfl
        | some w => exact absurd (hrest w (mem_of_lastOf hlast) ▸ mem_of_lastOf hlast) hlater
      rw [hnone, dif_pos rfl]
      rfl

theorem mem_settings {cfg : GatewayConfig} {k : Key} {v : k.kind.Value} :
    (⟨k, v⟩ : Setting) ∈ cfg.settings ↔ v = cfg.get k := by
  rw [GatewayConfig.settings, List.mem_map]
  constructor
  · rintro ⟨k', -, heq⟩
    obtain ⟨rfl, hv⟩ := Sigma.mk.inj heq
    exact (eq_of_heq hv).symm
  · rintro rfl
    exact ⟨k, by cases k <;> decide, rfl⟩

/-- **A configuration is read as it is written.**  The settings of a file are those that count: of several lines with
one key the last, and none for a key that has no line.  A file of the nine lines of a configuration, in any order,
gives that configuration, whatever was set before. -/
theorem config_round_trip {text : List Char} {sets : List Setting} (h : FileOf text sets) (cfg₀ : GatewayConfig) :
    (loadConfig cfg₀ (some text)).2 = true ∧
      (∀ k, (loadConfig cfg₀ (some text)).1.get k = (lastOf k sets).getD (cfg₀.get k)) ∧
      ∀ cfg : GatewayConfig, sets.Perm cfg.settings → (loadConfig cfg₀ (some text)).1 = cfg := by
  have hget : ∀ k, (loadConfig cfg₀ (some text)).1.get k = (lastOf k sets).getD (cfg₀.get k) := by
    intro k
    rw [loadConfig, foldl_parseLine_file h]
    exact get_foldl_apply k sets cfg₀
  refine ⟨rfl, hget, fun cfg hperm => GatewayConfig.ext_get fun k => ?_⟩
  have hlast : lastOf k sets = some (cfg.get k) :=
    lastOf_of_unique (hperm.mem_iff.mpr (mem_settings.mpr rfl)) fun v' hv' =>
      mem_settings.mp (hperm.mem_iff.mp hv')
  rw [hget, hlast, Option.getD_some]

/-! ## A file for each configuration -/

def quote (s : List Char) : List Char := '"' :: (s ++ ['"'])

def writeValue : (κ : Kind) → κ.Value → List Char
  | .string, s => quote s
  | .port, n => decimal (UInt16.toNat n)
  | .int, n => decimal (Int32.toInt n)

def writeSetting (s : Setting) : List Char := s.1.name.toList ++ ':' :: ' ' :: writeValue s.1.kind s.2

def writeConfig (cfg : GatewayConfig) : List Char := cfg.settings.flatMap fun s => writeSetting s ++ ['\n']

def NoNewline (s : List Char) : Prop := '\n' ∉ s

instance (s : List Char) : Decidable (NoNewline s) := inferInstanceAs (Decidable ('\n' ∉ s))

/-- The value can be written on one line. -/
def OneLine : (κ : Kind) → κ.Value → Prop
  | .string, s => NoNewline s
  | .port, _ => True
  | .int, _ => True

theorem writes_writeValue {κ : Kind} {v : κ.Value} (h : OneLine κ v) : κ.Writes v (writeValue κ v) := by
  cases κ with
  | string => exact ⟨h, rfl⟩
  | port => exact numeral_decimal _
  | int => exact numeral_decimal _

theorem lineOf_writeSetting {s : Setting} (h : OneLine s.1.kind s.2) : LineOf (writeSetting s) (some s) := by
  have hline : LineOf ([] ++ s.1.name.toList ++ ':' :: ([' '] ++ writeValue s.1.kind s.2 ++ [])) (some s) :=
    .setting s.1 s.2 (by simp [Blanks]) (by simp [Blanks, isBlank]) (by simp [Blanks]) (writes_writeValue h)
  simpa [writeSetting] using hline

theorem fileOf_flatMap {sets : List Setting} (h : ∀ s ∈ sets, OneLine s.1.kind s.2) :
    FileOf (sets.flatMap fun s => writeSetting s ++ ['\n']) sets := by
  induction sets with
  | nil => exact .nil
  | cons s sets ih =>
    have hrest := ih fun s' hs' => h s' (List.mem_cons_of_mem s hs')
    exact .line (lineOf_writeSetting (h s List.mem_cons_self)) .lf hrest

/-- Every configuration with strings of one line has a file. -/
theorem fileOf_writeConfig {cfg : GatewayConfig} (h : ∀ k, OneLine k.kind (cfg.get k)) :
    FileOf (writeConfig cfg) cfg.settings := by
  apply fileOf_flatMap
  rintro ⟨k, v⟩ hs
  rw [mem_settings.mp hs]
  exact h k

theorem default_oneLine (k : Key) : OneLine k.kind (GatewayConfig.default.get k) := by
  have hip : NoNewline "0.0.0.0".toList := by decide
  have hlevel : NoNewline "info".toList := by decide
  cases k <;> first | exact trivial | exact hip | exact hlevel

theorem config_round_trip_default :
    (loadConfig { GatewayConfig.default with tradePort := 1, logLevel := [] }
      (some (writeConfig GatewayConfig.default))).1 = GatewayConfig.default :=
  (config_round_trip (fileOf_writeConfig default_oneLine) _).2.2 _ (.refl _)

end GatewayContext
end Chater.Gateway
