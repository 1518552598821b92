import Chater.Foundations.Transition
import Mathlib.Logic.Function.Basic

/-!
# Senders of multipart messages on one wire

Threads send messages of a fixed number of frames over one wire.  A frame carries a flag that says whether more frames
of its message follow, and the other end cuts the sequence of frames behind the frames without the flag.  Each frame is
put on the wire by a step of its own, so frames of different threads may alternate.

The messages cut from the wire are those that were sent as long as every frame is taken and none is put on the wire
while another thread has a message partly sent (`Clean`).  A frame between those of another message makes the message
under way too long whatever follows, because every thread has at least as many frames left as would fill it, and a
frame that is refused ends its call without the message (`Spoiled`).

For one sender whose calls come one after another, `Attempt` says which frames of a call the wire takes; a call ends at
the first that is refused, and what it has sent by then stays on the wire.
-/

namespace Chater.SharedWire

open Foundations

set_option autoImplicit false

universe u v w x y

/-! ## Cutting a sequence of frames -/

structure Cut (F : Type w) where
  messages : List (List F)
  rest : List F

variable {T : Type u} {M : Type v} {F : Type w}

def Cut.add (c : Cut F) (frame : F × Bool) : Cut F :=
  if frame.2 then { c with rest := c.rest ++ [frame.1] } else ⟨c.messages ++ [c.rest ++ [frame.1]], []⟩

def cut (wire : List (F × Bool)) : Cut F := wire.foldl Cut.add ⟨[], []⟩

theorem cut_concat (wire : List (F × Bool)) (frame : F × Bool) : cut (wire ++ [frame]) = (cut wire).add frame := by
  simp [cut]

/-- Cutting loses no frame. -/
theorem cut_flatten (wire : List (F × Bool)) : (cut wire).messages.flatten ++ (cut wire).rest = wire.map Prod.fst := by
  induction wire using List.reverseRecOn with
  | nil => rfl
  | append_singleton wire frame ih =>
    rw [cut_concat, List.map_append, ← ih, Cut.add]
    by_cases hmore : frame.2 = true
    · simp [hmore]
    · simp [hmore]

/-! ## Messages -/

structure Format (M : Type v) (F : Type w) where
  parts : M → List (F × Bool)
  more : ℕ
  flags : ∀ m, (parts m).map Prod.snd = List.replicate more true ++ [false]

namespace Format

variable (fmt : Format M F)

def frames (m : M) : List F := (fmt.parts m).map Prod.fst

theorem parts_length (m : M) : (fmt.parts m).length = fmt.more + 1 := by
  have h := congrArg List.length (fmt.flags m)
  simpa using h

theorem frames_length (m : M) : (fmt.frames m).length = fmt.more + 1 := by
  rw [frames, List.length_map, fmt.parts_length]

theorem foldl_add_of_flags {n : ℕ} {ps : List (F × Bool)} (h : ps.map Prod.snd = List.replicate n true ++ [false])
    (c : Cut F) : ps.foldl Cut.add c = ⟨c.messages ++ [c.rest ++ ps.map Prod.fst], []⟩ := by
  induction n generalizing ps c with
  | zero =>
    obtain ⟨f, rfl, hlast⟩ := List.map_eq_singleton_iff.mp (h.trans (List.nil_append _))
    simp [Cut.add, hlast]
  | succ n ih =>
    rw [List.replicate_succ, List.cons_append] at h
    obtain ⟨f, fs, rfl, hmore, hfs⟩ := List.map_eq_cons_iff.mp h
    rw [List.foldl_cons, ih hfs]
    simp [Cut.add, hmore]

theorem cut_flatMap (ms : List M) : cut (ms.flatMap fmt.parts) = ⟨ms.map fmt.frames, []⟩ := by
  induction ms using List.reverseRecOn with
  | nil => rfl
  | append_singleton ms m ih =>
    rw [cut] at ih
    rw [cut, List.flatMap_append, List.foldl_append, ih, List.flatMap_singleton,
      foldl_add_of_flags (fmt.flags m)]
    simp [frames]

theorem flag_of_suffix {n : ℕ} {b : Bool} {bs : List Bool} (h : (b :: bs) <:+ List.replicate n true ++ [false]) :
    b = !bs.isEmpty := by
  obtain ⟨pre, hpre⟩ := h
  induction n generalizing pre with
  | zero =>
    cases pre with
    | nil =>
      obtain ⟨rfl, rfl⟩ := List.cons.inj hpre
      rfl
    | cons p pre => simp at hpre
  | succ n ih =>
    rw [List.replicate_succ, List.cons_append] at hpre
    cases pre with
    | nil =>
      obtain ⟨rfl, rfl⟩ := List.cons.inj hpre
      simp
    | cons p pre => exact ih pre (List.cons.inj hpre).2

theorem flag_of_left {m : M} {f : F × Bool} {left : List (F × Bool)} (h : (f :: left) <:+ fmt.parts m) :
    f.2 = !left.isEmpty := by
  have hmap := h.map Prod.snd
  rw [fmt.flags, List.map_cons] at hmap
  rw [flag_of_suffix hmap, List.isEmpty_map]

end Format

/-! ## Calls one after another -/

/-- Frames are sent until one is refused; the result is what went out, and whether all did. -/
def trySend : List (F × Bool) → (ℕ → Bool) → List (F × Bool) × Bool
  | [], _ => ([], true)
  | f :: fs, takes =>
    if takes 0 then
      let r := trySend fs fun i => takes (i + 1)
      (f :: r.1, r.2)
    else ([], false)

theorem trySend_of_returned {fs : List (F × Bool)} {takes : ℕ → Bool} (h : (trySend fs takes).2 = true) :
    (trySend fs takes).1 = fs := by
  induction fs generalizing takes with
  | nil => rfl
  | cons f fs ih =>
    rw [trySend] at h ⊢
    split_ifs at h ⊢
    exact congrArg (f :: ·) (ih h)

theorem trySend_returned_iff {fs : List (F × Bool)} {takes : ℕ → Bool} :
    (trySend fs takes).2 = true ↔ ∀ i < fs.length, takes i = true := by
  induction fs generalizing takes with
  | nil => simp [trySend]
  | cons f fs ih =>
    rw [List.length_cons, Nat.forall_lt_succ_left, trySend]
    by_cases hfirst : takes 0 = true
    · simp [hfirst, ih]
    · simp [hfirst]

/-- A call: its message, and for each of its frames whether the wire takes it. -/
structure Attempt (M : Type v) where
  message : M
  takes : ℕ → Bool

section Attempts

variable (fmt : Format M F)

def Attempt.sent (a : Attempt M) : List (F × Bool) := (trySend (fmt.parts a.message) a.takes).1

def Attempt.returned (a : Attempt M) : Bool := (trySend (fmt.parts a.message) a.takes).2

theorem Attempt.returned_iff (a : Attempt M) : a.returned fmt = true ↔ ∀ i ≤ fmt.more, a.takes i = true := by
  rw [Attempt.returned, trySend_returned_iff, fmt.parts_length]
  simp only [Nat.lt_succ_iff]

/-- The messages cut from the wire are those of the calls that returned true, and no frame is left over. -/
def NoTrace (calls : List (Attempt M)) : Prop :=
  cut (calls.flatMap (Attempt.sent fmt)) = ⟨(calls.filter (Attempt.returned fmt)).map fun a => fmt.frames a.message, []⟩

theorem Attempt.sent_eq_nil_iff (a : Attempt M) : a.sent fmt = [] ↔ a.takes 0 = false := by
  have hlength := fmt.parts_length a.message
  unfold Attempt.sent
  cases hparts : fmt.parts a.message with
  | nil =>
    rw [hparts] at hlength
    cases hlength
  | cons f fs =>
    rw [trySend]
    by_cases htakes : a.takes 0 = true
    · simp [htakes]
    · simp [htakes]

theorem flatMap_sent_of_returned (calls : List (Attempt M)) :
    (calls.filter (Attempt.returned fmt)).flatMap (Attempt.sent fmt) =
      ((calls.filter (Attempt.returned fmt)).map Attempt.message).flatMap fmt.parts := by
  rw [List.flatMap_map]
  apply List.flatMap_congr
  intro a ha
  exact trySend_of_returned (List.mem_filter.mp ha).2

theorem length_sent (calls : List (Attempt M)) :
    (calls.flatMap (Attempt.sent fmt)).length =
      ((calls.filter (Attempt.returned fmt)).flatMap (Attempt.sent fmt)).length +
        ((calls.filter fun a => !a.returned fmt).flatMap (Attempt.sent fmt)).length := by
  induction calls with
  | nil => rfl
  | cons a calls ih =>
    cases hreturned : a.returned fmt
    · simp only [List.flatMap_cons, List.filter_cons, hreturned, List.length_append, ih, Bool.not_false, if_true,
        Bool.false_eq_true, if_false]
      omega
    · simp only [List.flatMap_cons, List.filter_cons, hreturned, List.length_append, ih, Bool.not_true, if_true,
        Bool.false_eq_true, if_false]
      omega

theorem flatMap_sent_of_failsFirst {calls : List (Attempt M)}
    (h : ∀ a ∈ calls, a.returned fmt = false → a.takes 0 = false) :
    calls.flatMap (Attempt.sent fmt) = (calls.filter (Attempt.returned fmt)).flatMap (Attempt.sent fmt) := by
  induction calls with
  | nil => rfl
  | cons a calls ih =>
    have hrest := ih fun b hb => h b (List.mem_cons_of_mem a hb)
    cases hreturned : a.returned fmt
    · have hnil := (a.sent_eq_nil_iff fmt).mpr (h a List.mem_cons_self hreturned)
      rw [List.flatMap_cons, hnil, List.nil_append, List.filter_cons_of_neg (by simp [hreturned]), hrest]
    · rw [List.flatMap_cons, List.filter_cons_of_pos hreturned, List.flatMap_cons, hrest]

/-- Failed calls leave no trace exactly if each fails at its first frame: whichever call has its first frame taken has
all its frames taken. -/
theorem noTrace_iff (calls : List (Attempt M)) :
    NoTrace fmt calls ↔ ∀ a ∈ calls, a.takes 0 = true → ∀ i ≤ fmt.more, a.takes i = true := by
  have hfirst : (∀ a ∈ calls, a.takes 0 = true → ∀ i ≤ fmt.more, a.takes i = true) ↔
      ∀ a ∈ calls, a.returned fmt = false → a.takes 0 = false := by
    refine forall₂_congr fun a _ => ?_
    rw [← a.returned_iff fmt, ← not_imp_not, Bool.not_eq_true, Bool.not_eq_true]
  rw [hfirst]
  have hcut := fmt.cut_flatMap ((calls.filter (Attempt.returned fmt)).map Attempt.message)
  rw [← flatMap_sent_of_returned, List.map_map] at hcut
  constructor
  · intro h a ha hfailed
    -- both sides have the same number of frames, so that none is left for the calls that failed
    have hall := cut_flatten (calls.flatMap (Attempt.sent fmt))
    have hgood := cut_flatten ((calls.filter (Attempt.returned fmt)).flatMap (Attempt.sent fmt))
    rw [h] at hall
    rw [hcut] at hgood
    have hsame := congrArg List.length (hall.symm.trans hgood)
    rw [List.length_map, List.length_map, length_sent] at hsame
    have hnone : (calls.filter fun a => !a.returned fmt).flatMap (Attempt.sent fmt) = [] :=
      List.length_eq_zero_iff.mp (by omega)
    rw [← a.sent_eq_nil_iff fmt]
    exact List.flatMap_eq_nil_iff.mp hnone a (List.mem_filter.mpr ⟨ha, by simp [hfailed]⟩)
  · intro h
    rw [NoTrace, flatMap_sent_of_failsFirst fmt h]
    exact hcut

end Attempts

/-! ## Senders -/

structure Sending (M : Type v) (F : Type w) where
  message : M
  left : List (F × Bool)

structure Senders (T : Type u) (M : Type v) (F : Type w) where
  wire : List (F × Bool)
  calls : T → Option (Sending M F)
  called : List (T × M)
  returned : List (T × M)
  failed : List (T × M)

namespace Senders

def start : Senders T M F := ⟨[], fun _ => none, [], [], []⟩

variable [DecidableEq T] (fmt : Format M F)

def begin (s : Senders T M F) (t : T) (m : M) : Option (Senders T M F) :=
  if (s.calls t).isSome then none
  else some { s with calls := Function.update s.calls t (some ⟨m, fmt.parts m⟩), called := s.called ++ [(t, m)] }

def sendFrame (s : Senders T M F) (t : T) : Option (Senders T M F) :=
  match s.calls t with
  | some ⟨m, [f]⟩ =>
    some { s with
      wire := s.wire ++ [f], calls := Function.update s.calls t none, returned := s.returned ++ [(t, m)] }
  | some ⟨m, f :: left⟩ =>
    some { s with wire := s.wire ++ [f], calls := Function.update s.calls t (some ⟨m, left⟩) }
  | _ => none

/-- The next frame of the call is refused: nothing goes onto the wire, and the call returns. -/
def refuseFrame (s : Senders T M F) (t : T) : Option (Senders T M F) :=
  (s.calls t).map fun c =>
    { s with calls := Function.update s.calls t none, failed := s.failed ++ [(t, c.message)] }

end Senders

open Senders

/-- Some frames of the call's message are on the wire, and not all of them. -/
def Sending.Partly (fmt : Format M F) (c : Sending M F) : Prop := c.left.length ≤ fmt.more

namespace Senders

variable (fmt : Format M F)

def PartlySent (s : Senders T M F) (t : T) : Prop := ∃ c, s.calls t = some c ∧ c.Partly fmt

def Quiet (s : Senders T M F) : Prop := ∀ t, ¬ s.PartlySent fmt t

/-- No thread but `t` has a message partly sent. -/
def Alone (s : Senders T M F) (t : T) : Prop := ∀ u, u ≠ t → ¬ s.PartlySent fmt u

def ofThread {A : Type v} [DecidableEq T] (t : T) (l : List (T × A)) : List A :=
  (l.filter fun p => p.1 = t).map Prod.snd

theorem ofThread_append {A : Type v} [DecidableEq T] (t : T) (xs ys : List (T × A)) :
    ofThread t (xs ++ ys) = ofThread t xs ++ ofThread t ys := by
  simp [ofThread]

theorem ofThread_single {A : Type v} [DecidableEq T] (t u : T) (a : A) :
    ofThread t [(u, a)] = if u = t then [a] else [] := by
  by_cases h : u = t <;> simp [ofThread, h]

def current (s : Senders T M F) (t : T) : List M := ((s.calls t).map Sending.message).toList

/-- What holds in every run: each call's frames are an end of its message, and unless a frame was refused, frames
behind the last cut belong to a message under way and each thread's calls are those that returned and the one it is
in. -/
structure Sound [DecidableEq T] (s : Senders T M F) : Prop where
  left_suffix : ∀ t c, s.calls t = some c → c.left <:+ fmt.parts c.message
  left_ne : ∀ t c, s.calls t = some c → c.left ≠ []
  rest_sent : s.failed = [] → (cut s.wire).rest ≠ [] → ∃ t, s.PartlySent fmt t
  in_order : s.failed = [] → ∀ t, ofThread t s.returned ++ s.current t = ofThread t s.called
  count : ∀ t, (ofThread t s.returned).length + (ofThread t s.failed).length + (s.current t).length =
    (ofThread t s.called).length

structure Clean (s : Senders T M F) : Prop where
  none_failed : s.failed = []
  messages : (cut s.wire).messages = s.returned.map fun p => fmt.frames p.2
  current : ∀ t c, s.calls t = some c → c.Partly fmt →
    (cut s.wire).rest ++ c.left.map Prod.fst = fmt.frames c.message
  one : ∀ t u, s.PartlySent fmt t → s.PartlySent fmt u → t = u

def Spoiled (s : Senders T M F) : Prop :=
  s.failed ≠ [] ∨ (∃ msg ∈ (cut s.wire).messages, msg.length ≠ fmt.more + 1) ∨
    (cut s.wire).rest ≠ [] ∧ ∀ t c, s.calls t = some c → fmt.more + 1 < (cut s.wire).rest.length + c.left.length

variable {fmt}

theorem start_sound [DecidableEq T] : Sound fmt (start : Senders T M F) where
  left_suffix _ _ h := by cases h
  left_ne _ _ h := by cases h
  rest_sent _ h := absurd rfl h
  in_order _ _ := rfl
  count _ := rfl

theorem start_clean : Clean fmt (start : Senders T M F) where
  none_failed := rfl
  messages := rfl
  current _ _ h := by cases h
  one _ _ h := by
    obtain ⟨c, hc, -⟩ := h
    cases hc

theorem alone_of_idle {s : Senders T M F} (hs : ∀ t, s.calls t = none) (t : T) : s.Alone fmt t := by
  rintro u - ⟨c, hc, -⟩
  rw [hs u] at hc
  cases hc

variable [DecidableEq T] {s s' : Senders T M F} {t : T}

/-! ### Starting a call -/

theorem begin_spec {m : M} (h : s.begin fmt t m = some s') :
    s.calls t = none ∧
      s' = { s with
        calls := Function.update s.calls t (some ⟨m, fmt.parts m⟩), called := s.called ++ [(t, m)] } := by
  unfold Senders.begin at h
  split_ifs at h with hsome
  exact ⟨Option.not_isSome_iff_eq_none.mp hsome, (Option.some.inj h).symm⟩

theorem begin_partlySent {m : M} (h : s.begin fmt t m = some s') (u : T) :
    s'.PartlySent fmt u ↔ s.PartlySent fmt u := by
  obtain ⟨hidle, rfl⟩ := begin_spec h
  by_cases hu : u = t
  · subst hu
    constructor
    · rintro ⟨c, hc, hpart⟩
      simp only [Function.update_self, Option.some.injEq] at hc
      subst hc
      rw [Sending.Partly, fmt.parts_length] at hpart
      omega
    · rintro ⟨c, hc, -⟩
      rw [hidle] at hc
      cases hc
  · simp only [PartlySent, Function.update_of_ne hu]

theorem begin_calls {m : M} {u : T} {c : Sending M F} (h : s.begin fmt t m = some s') (hc : s'.calls u = some c) :
    s.calls u = some c ∨ c = ⟨m, fmt.parts m⟩ := by
  obtain ⟨-, rfl⟩ := begin_spec h
  by_cases hu : u = t
  · subst hu
    simp only [Function.update_self, Option.some.injEq] at hc
    exact .inr hc.symm
  · simp only [Function.update_of_ne hu] at hc
    exact .inl hc

theorem begin_current {m : M} (h : s.begin fmt t m = some s') (u : T) :
    s'.current u = s.current u ++ (if t = u then [m] else []) ∧
      ofThread u s'.called = ofThread u s.called ++ (if t = u then [m] else []) := by
  obtain ⟨hidle, rfl⟩ := begin_spec h
  refine ⟨?_, by rw [ofThread_append, ofThread_single]⟩
  by_cases hut : u = t
  · subst hut
    simp [current, hidle]
  · simp [current, Function.update_of_ne hut, Ne.symm hut]

theorem Sound.begin {m : M} (hs : Sound fmt s) (h : s.begin fmt t m = some s') : Sound fmt s' where
  left_suffix u c hc := by
    obtain hold | rfl := begin_calls h hc
    · exact hs.left_suffix u c hold
    · exact List.suffix_rfl
  left_ne u c hc := by
    obtain hold | rfl := begin_calls h hc
    · exact hs.left_ne u c hold
    · exact List.ne_nil_of_length_pos (by rw [fmt.parts_length]; omega)
  rest_sent hfailed hrest := by
    obtain ⟨-, rfl⟩ := begin_spec h
    obtain ⟨u, hu⟩ := hs.rest_sent hfailed hrest
    exact ⟨u, (begin_partlySent h u).mpr hu⟩
  in_order hfailed u := by
    obtain ⟨hcurrent, hcalled⟩ := begin_current h u
    obtain ⟨-, rfl⟩ := begin_spec h
    rw [hcurrent, hcalled, ← hs.in_order hfailed u, List.append_assoc]
  count u := by
    obtain ⟨hcurrent, hcalled⟩ := begin_current h u
    obtain ⟨-, rfl⟩ := begin_spec h
    rw [hcurrent, hcalled, List.length_append, List.length_append, ← hs.count u, Nat.add_assoc]
    simp only [Nat.add_assoc]

theorem Clean.begin {m : M} (hs : Clean fmt s) (h : s.begin fmt t m = some s') : Clean fmt s' where
  none_failed := by
    obtain ⟨-, rfl⟩ := begin_spec h
    exact hs.none_failed
  messages := by
    obtain ⟨-, rfl⟩ := begin_spec h
    exact hs.messages
  current u c hc hpart := by
    obtain hold | rfl := begin_calls h hc
    · obtain ⟨-, rfl⟩ := begin_spec h
      exact hs.current u c hold hpart
    · rw [Sending.Partly, fmt.parts_length] at hpart
      omega
  one u v hu hv := hs.one u v ((begin_partlySent h u).mp hu) ((begin_partlySent h v).mp hv)

theorem Spoiled.begin {m : M} (hs : Spoiled fmt s) (h : s.begin fmt t m = some s') : Spoiled fmt s' := by
  obtain ⟨-, rfl⟩ := begin_spec h
  refine hs.imp_right (Or.imp_right fun ⟨hrest, hleft⟩ => ⟨hrest, fun u c hc => ?_⟩)
  obtain hold | rfl := begin_calls h hc
  · exact hleft u c hold
  · have hpos := List.length_pos_of_ne_nil hrest
    show fmt.more + 1 < (cut s.wire).rest.length + (fmt.parts m).length
    rw [fmt.parts_length]
    omega

/-! ### Sending a frame -/

/-- What a frame does: it goes onto the wire, and the call goes on with what is left or returns. -/
theorem sendFrame_spec (h : s.sendFrame t = some s') :
    ∃ m f left, s.calls t = some ⟨m, f :: left⟩ ∧ s'.wire = s.wire ++ [f] ∧ s'.called = s.called ∧
      s'.failed = s.failed ∧
      s'.calls = Function.update s.calls t (if left.isEmpty then none else some ⟨m, left⟩) ∧
      s'.returned = s.returned ++ (if left.isEmpty then [(t, m)] else []) := by
  unfold Senders.sendFrame at h
  split at h
  · rename_i m f hcall
    obtain rfl := Option.some.inj h
    exact ⟨m, f, [], hcall, rfl, rfl, rfl, rfl, rfl⟩
  · rename_i m f left hne hcall
    obtain rfl := Option.some.inj h
    have hempty : left.isEmpty = false := by
      cases left with
      | nil => exact absurd rfl hne
      | cons => rfl
    exact ⟨m, f, left, hcall, rfl, rfl, rfl, by simp [hempty], by simp [hempty]⟩
  · cases h

theorem sendFrame_calls {u : T} {c : Sending M F} (h : s.sendFrame t = some s') (hc : s'.calls u = some c) :
    (u ≠ t ∧ s.calls u = some c) ∨ u = t ∧ ∃ f, s.calls t = some ⟨c.message, f :: c.left⟩ ∧ c.left ≠ [] := by
  obtain ⟨m, f, left, hcall, -, -, -, hcalls, -⟩ := sendFrame_spec h
  rw [hcalls] at hc
  by_cases hu : u = t
  · subst hu
    rw [Function.update_self] at hc
    cases left with
    | nil => cases hc
    | cons g left =>
      obtain rfl := Option.some.inj hc
      exact .inr ⟨rfl, f, hcall, List.cons_ne_nil g left⟩
  · rw [Function.update_of_ne hu] at hc
    exact .inl ⟨hu, hc⟩

/-- The frame sent, and what it does to the cut: it ends the message under way or is added to it. -/
theorem Sound.sendFrame_cut (hs : Sound fmt s) (h : s.sendFrame t = some s') :
    ∃ m f left, s.calls t = some ⟨m, f :: left⟩ ∧
      (left = [] ∧ (cut s'.wire).messages = (cut s.wire).messages ++ [(cut s.wire).rest ++ [f.1]] ∧
          (cut s'.wire).rest = [] ∧ s'.calls t = none ∧ s'.returned = s.returned ++ [(t, m)] ∨
        left ≠ [] ∧ (cut s'.wire).messages = (cut s.wire).messages ∧
          (cut s'.wire).rest = (cut s.wire).rest ++ [f.1] ∧ s'.calls t = some ⟨m, left⟩ ∧
          s'.returned = s.returned) := by
  obtain ⟨m, f, left, hcall, hwire, -, -, hcalls, hreturned⟩ := sendFrame_spec h
  have hflag := fmt.flag_of_left (hs.left_suffix t _ hcall)
  refine ⟨m, f, left, hcall, ?_⟩
  rw [hwire, hcalls, hreturned, cut_concat, Cut.add, hflag, Function.update_self]
  cases left with
  | nil => exact .inl ⟨rfl, rfl, rfl, rfl, rfl⟩
  | cons g left => exact .inr ⟨List.cons_ne_nil g left, rfl, rfl, rfl, List.append_nil _⟩

theorem sendFrame_partlySent_other {u : T} (h : s.sendFrame t = some s') (hu : u ≠ t) :
    s'.PartlySent fmt u ↔ s.PartlySent fmt u := by
  obtain ⟨m, f, left, -, -, -, -, hcalls, -⟩ := sendFrame_spec h
  simp only [PartlySent, hcalls, Function.update_of_ne hu]

theorem Sound.partly_of_rest_frames (hs : Sound fmt s) {m : M} {f : F × Bool} {left : List (F × Bool)}
    (hcall : s.calls t = some ⟨m, f :: left⟩) : left.length ≤ fmt.more := by
  have hlen := (hs.left_suffix t _ hcall).length_le
  rw [fmt.parts_length, List.length_cons] at hlen
  omega

theorem sendFrame_failed (h : s.sendFrame t = some s') : s'.failed = s.failed := by
  obtain ⟨m, f, left, -, -, -, hfailed, -⟩ := sendFrame_spec h
  exact hfailed

theorem sendFrame_current (h : s.sendFrame t = some s') (u : T) :
    ofThread u s'.returned ++ s'.current u = ofThread u s.returned ++ s.current u ∧ s'.called = s.called := by
  obtain ⟨m, f, left, hcall, -, hcalled, -, hcalls, hreturned⟩ := sendFrame_spec h
  refine ⟨?_, hcalled⟩
  rw [hreturned, current, current, hcalls, ofThread_append]
  by_cases hut : u = t
  · subst hut
    rw [Function.update_self, hcall]
    cases left with
    | nil => simp [ofThread_single]
    | cons g left => simp [ofThread]
  · rw [Function.update_of_ne hut]
    cases left with
    | nil => simp [ofThread_single, Ne.symm hut]
    | cons g left => simp [ofThread]

theorem Sound.sendFrame (hs : Sound fmt s) (h : s.sendFrame t = some s') : Sound fmt s' where
  left_suffix u c hc := by
    obtain ⟨-, hold⟩ | ⟨rfl, f, hold, -⟩ := sendFrame_calls h hc
    · exact hs.left_suffix u c hold
    · exact (List.suffix_cons f c.left).trans (hs.left_suffix u _ hold)
  left_ne u c hc := by
    obtain ⟨-, hold⟩ | ⟨-, f, -, hne⟩ := sendFrame_calls h hc
    · exact hs.left_ne u c hold
    · exact hne
  rest_sent _ hrest := by
    obtain ⟨m, f, left, hcall, ⟨-, -, hnil, -⟩ | ⟨-, -, -, hcall', -⟩⟩ := hs.sendFrame_cut h
    · exact absurd hnil hrest
    · exact ⟨t, ⟨m, left⟩, hcall', hs.partly_of_rest_frames hcall⟩
  in_order hfailed u := by
    rw [sendFrame_failed h] at hfailed
    obtain ⟨hcurrent, hcalled⟩ := sendFrame_current h u
    rw [hcurrent, hcalled]
    exact hs.in_order hfailed u
  count u := by
    obtain ⟨hcurrent, hcalled⟩ := sendFrame_current h u
    have hlength := congrArg List.length hcurrent
    have hcount := hs.count u
    rw [List.length_append, List.length_append] at hlength
    rw [sendFrame_failed h, hcalled]
    omega

/-- With no other message under way, the frames behind the last cut and those the thread has left are its message. -/
theorem Clean.frames_of_alone (hc : Clean fmt s) (hs : Sound fmt s) (halone : s.Alone fmt t) {m : M}
    {left : List (F × Bool)} (hcall : s.calls t = some ⟨m, left⟩) :
    (cut s.wire).rest ++ left.map Prod.fst = fmt.frames m := by
  by_cases hpart : (Sending.mk m left).Partly fmt
  · exact hc.current t _ hcall hpart
  · have hsuffix := hs.left_suffix t _ hcall
    have hwhole : left = fmt.parts m := by
      apply hsuffix.eq_of_length_le
      rw [fmt.parts_length]
      exact Nat.lt_of_not_le hpart
    have hrest : (cut s.wire).rest = [] := by
      by_contra hne
      obtain ⟨u, hu⟩ := hs.rest_sent hc.none_failed hne
      by_cases hut : u = t
      · subst hut
        obtain ⟨c, hc', hcpart⟩ := hu
        obtain rfl := Option.some.inj (hcall.symm.trans hc')
        exact hpart hcpart
      · exact halone u hut hu
    rw [hrest, hwhole]
    rfl

theorem Clean.sendFrame (hc : Clean fmt s) (hs : Sound fmt s) (halone : s.Alone fmt t)
    (h : s.sendFrame t = some s') : Clean fmt s' := by
  have hone : ∀ u, s'.PartlySent fmt u → u = t := by
    intro u hu
    by_contra hut
    exact halone u hut ((sendFrame_partlySent_other h hut).mp hu)
  obtain ⟨m, f, left, hcall, hcut⟩ := hs.sendFrame_cut h
  have hframes := hc.frames_of_alone hs halone hcall
  rw [List.map_cons] at hframes
  refine ⟨(sendFrame_failed h).trans hc.none_failed, ?_, ?_, fun u v hu hv => (hone u hu).trans (hone v hv).symm⟩
  · obtain ⟨rfl, hmessages, -, -, hreturned⟩ | ⟨-, hmessages, -, -, hreturned⟩ := hcut
    · rw [hmessages, hreturned, List.map_append, hc.messages]
      exact congrArg (fun msg => _ ++ [msg]) hframes
    · rw [hmessages, hreturned, hc.messages]
  · intro u c hcu hpart
    obtain rfl := hone u ⟨c, hcu, hpart⟩
    obtain ⟨-, -, -, hnone, -⟩ | ⟨-, -, hrest, hsome, -⟩ := hcut
    · rw [hnone] at hcu
      cases hcu
    · obtain rfl := Option.some.inj (hsome.symm.trans hcu)
      rw [hrest, List.append_assoc]
      exact hframes

theorem Spoiled.sendFrame (hsp : Spoiled fmt s) (hs : Sound fmt s) (h : s.sendFrame t = some s') :
    Spoiled fmt s' := by
  obtain ⟨m, f, left, hcall, hcut⟩ := hs.sendFrame_cut h
  obtain hfailed | ⟨msg, hmsg, hlen⟩ | ⟨hrest, hleft⟩ := hsp
  · exact .inl (sendFrame_failed h ▸ hfailed)
  · refine .inr (.inl ⟨msg, ?_, hlen⟩)
    obtain ⟨-, hmessages, -⟩ | ⟨-, hmessages, -⟩ := hcut
    · rw [hmessages]
      exact List.mem_append_left _ hmsg
    · rw [hmessages]
      exact hmsg
  · have hsum := hleft t _ hcall
    obtain ⟨rfl, hmessages, -⟩ | ⟨-, -, hrest', -⟩ := hcut
    · refine .inr (.inl ⟨_, hmessages ▸ List.mem_append_right _ (List.mem_singleton_self _), ?_⟩)
      simp only [List.length_cons, List.length_nil] at hsum
      rw [List.length_append, List.length_singleton]
      omega
    · refine .inr (.inr ⟨by simp [hrest'], fun u c hc => ?_⟩)
      rw [hrest', List.length_append, List.length_singleton]
      obtain ⟨-, hold⟩ | ⟨-, g, hold, -⟩ := sendFrame_calls h hc
      · have := hleft u c hold
        omega
      · have := hleft t _ hold
        rw [List.length_cons] at this
        omega

/-- A frame sent while another thread has a message partly sent spoils the message under way. -/
theorem Clean.spoiled (hc : Clean fmt s) (hs : Sound fmt s) (halone : ¬ s.Alone fmt t)
    (h : s.sendFrame t = some s') : Spoiled fmt s' := by
  obtain ⟨u, hut, hu⟩ : ∃ u, u ≠ t ∧ s.PartlySent fmt u := by
    simpa only [Alone, not_forall, not_not, exists_prop] using halone
  obtain ⟨cu, hcu, hpartly⟩ := hu
  have hcurrent := congrArg List.length (hc.current u cu hcu hpartly)
  simp only [List.length_append, List.length_map, fmt.frames_length] at hcurrent
  have hfresh : ∀ v c, v ≠ u → s.calls v = some c → c.left.length = fmt.more + 1 := by
    intro v c hvu hv
    have hle := (hs.left_suffix v c hv).length_le
    rw [fmt.parts_length] at hle
    have hnot : ¬ c.left.length ≤ fmt.more := fun hpart => hvu (hc.one v u ⟨c, hv, hpart⟩ ⟨cu, hcu, hpartly⟩)
    omega
  have hpart : cu.left.length ≤ fmt.more := hpartly
  obtain ⟨m, f, left, hcall, ⟨rfl, -⟩ | ⟨hne, -, hrest, -⟩⟩ := hs.sendFrame_cut h
  · -- a message of one frame is never partly sent
    have hlen := hfresh t _ hut.symm hcall
    have hpos := List.length_pos_of_ne_nil (hs.left_ne u cu hcu)
    simp only [List.length_cons, List.length_nil] at hlen
    omega
  · refine .inr (.inr ⟨by simp [hrest], fun v c hv => ?_⟩)
    rw [hrest, List.length_append, List.length_singleton]
    obtain ⟨hvt, hold⟩ | ⟨-, g, hold, -⟩ := sendFrame_calls h hv
    · by_cases hvu : v = u
      · subst hvu
        obtain rfl := Option.some.inj (hcu.symm.trans hold)
        omega
      · have := hfresh v c hvu hold
        omega
    · have := hfresh t _ hut.symm hold
      simp only [List.length_cons] at this
      omega

/-! ### A frame that is refused -/

theorem refuseFrame_spec (h : s.refuseFrame t = some s') :
    ∃ c, s.calls t = some c ∧
      s' = { s with calls := Function.update s.calls t none, failed := s.failed ++ [(t, c.message)] } := by
  obtain ⟨c, hc, rfl⟩ := Option.map_eq_some_iff.mp h
  exact ⟨c, hc, rfl⟩

theorem refuseFrame_failed (h : s.refuseFrame t = some s') : s'.failed ≠ [] := by
  obtain ⟨c, -, rfl⟩ := refuseFrame_spec h
  exact List.append_ne_nil_of_right_ne_nil _ (List.cons_ne_nil _ _)

theorem Sound.refuseFrame (hs : Sound fmt s) (h : s.refuseFrame t = some s') : Sound fmt s' := by
  have hfailed := refuseFrame_failed h
  obtain ⟨c, hcall, rfl⟩ := refuseFrame_spec h
  have hold : ∀ u d, Function.update s.calls t none u = some d → s.calls u = some d := by
    intro u d hd
    by_cases hut : u = t
    · subst hut
      simp at hd
    · rwa [Function.update_of_ne hut] at hd
  refine ⟨fun u d hd => hs.left_suffix u d (hold u d hd), fun u d hd => hs.left_ne u d (hold u d hd),
    fun hnone => absurd hnone hfailed, fun hnone => absurd hnone hfailed, fun u => ?_⟩
  rw [← hs.count u, ofThread_append, ofThread_single]
  by_cases hut : u = t
  · subst hut
    simp [current, hcall]
    omega
  · simp [current, Function.update_of_ne hut, Ne.symm hut]

/-! ### What the other end reads -/

/-- The messages cut from the wire are those whose calls returned, and each thread's calls are those that returned and
the one it is in. -/
structure Unmixed (fmt : Format M F) (s : Senders T M F) : Prop where
  messages : (cut s.wire).messages.Perm (s.returned.map fun p => fmt.frames p.2)
  intended : ∀ t, ofThread t s.returned ++ s.current t = ofThread t s.called

theorem Clean.unmixed (hc : Clean fmt s) (hs : Sound fmt s) : Unmixed fmt s :=
  ⟨.of_eq hc.messages, hs.in_order hc.none_failed⟩

theorem Unmixed.none_failed (hun : Unmixed fmt s) (hs : Sound fmt s) : s.failed = [] := by
  by_contra hne
  obtain ⟨p, hp⟩ := List.exists_mem_of_ne_nil _ hne
  have hmem : p.2 ∈ ofThread p.1 s.failed := List.mem_map.mpr ⟨p, List.mem_filter.mpr ⟨hp, by simp⟩, rfl⟩
  have hpos := List.length_pos_of_mem hmem
  have hlength := congrArg List.length (hun.intended p.1)
  have hcount := hs.count p.1
  rw [List.length_append] at hlength
  omega

theorem Spoiled.not_unmixed (hsp : Spoiled fmt s) (hs : Sound fmt s) (hquiet : s.Quiet fmt) : ¬ Unmixed fmt s := by
  intro hun
  obtain hfailed | ⟨msg, hmsg, hlen⟩ | ⟨hrest, -⟩ := hsp
  · exact hfailed (hun.none_failed hs)
  · obtain ⟨p, -, rfl⟩ := List.mem_map.mp (hun.messages.mem_iff.mp hmsg)
    exact hlen (fmt.frames_length p.2)
  · obtain ⟨t, ht⟩ := hs.rest_sent (hun.none_failed hs) hrest
    exact hquiet t ht

end Senders

/-! ## Systems that send over one wire -/

section Systems

variable [DecidableEq T] {S : Type x} {E : Type y} (fmt : Format M F) (out : S → Senders T M F)
  (frameOf : E → Option (T × Bool))

/-- What a step does to the wire: the event's thread sends a frame that is taken or refused, or at most a call
starts. -/
def Drives (step : S → E → Option S) : Prop :=
  ∀ s e s', step s e = some s' →
    match frameOf e with
    | some (t, true) => (out s).sendFrame t = some (out s')
    | some (t, false) => (out s).refuseFrame t = some (out s')
    | none => out s' = out s ∨ ∃ t m, (out s).begin fmt t m = some (out s')

/-- A frame the event sends is taken, and no other thread has a message partly sent. -/
def Separate (s : S) (e : E) : Prop := ∀ t taken, frameOf e = some (t, taken) → taken = true ∧ (out s).Alone fmt t

variable {fmt out frameOf} {step : S → E → Option S}

theorem Drives.sound (hstep : Drives fmt out frameOf step) {s s' : S} {e : E} (hs : Sound fmt (out s))
    (h : step s e = some s') : Sound fmt (out s') := by
  have hcase := hstep s e s' h
  split at hcase
  · exact hs.sendFrame hcase
  · exact hs.refuseFrame hcase
  · obtain hsame | ⟨t, m, hbegin⟩ := hcase
    · rw [hsame]
      exact hs
    · exact hs.begin hbegin

theorem Drives.clean (hstep : Drives fmt out frameOf step) {s s' : S} {e : E} (hs : Sound fmt (out s))
    (hc : Clean fmt (out s)) (hsep : Separate fmt out frameOf s e) (h : step s e = some s') :
    Clean fmt (out s') := by
  have hcase := hstep s e s' h
  split at hcase
  · rename_i t ht
    exact hc.sendFrame hs (hsep t true ht).2 hcase
  · rename_i t ht
    exact absurd (hsep t false ht).1 (by decide)
  · obtain hsame | ⟨t, m, hbegin⟩ := hcase
    · rw [hsame]
      exact hc
    · exact hc.begin hbegin

theorem Drives.spoils (hstep : Drives fmt out frameOf step) {s s' : S} {e : E} (hs : Sound fmt (out s))
    (hc : Clean fmt (out s)) (hsep : ¬ Separate fmt out frameOf s e) (h : step s e = some s') :
    Spoiled fmt (out s') := by
  have hcase := hstep s e s' h
  split at hcase
  · rename_i t ht
    refine hc.spoiled hs (fun halone => hsep fun t' taken ht' => ?_) hcase
    obtain ⟨rfl, rfl⟩ := Prod.mk.inj (Option.some.inj (ht.symm.trans ht'))
    exact ⟨rfl, halone⟩
  · exact .inl (refuseFrame_failed hcase)
  · rename_i hnone
    refine absurd (fun t taken ht => ?_) hsep
    rw [hnone] at ht
    cases ht

theorem Drives.spoiled (hstep : Drives fmt out frameOf step) {s s' : S} {e : E} (hs : Sound fmt (out s))
    (hsp : Spoiled fmt (out s)) (h : step s e = some s') : Spoiled fmt (out s') := by
  have hcase := hstep s e s' h
  split at hcase
  · exact hsp.sendFrame hs hcase
  · exact .inl (refuseFrame_failed hcase)
  · obtain hsame | ⟨t, m, hbegin⟩ := hcase
    · rw [hsame]
      exact hsp
    · exact hsp.begin hbegin

theorem Drives.alone (hstep : Drives fmt out frameOf step) {s s' : S} {e : E} {t : T} (hs : (out s).Alone fmt t)
    (he : ∀ u taken, frameOf e = some (u, taken) → u = t ∧ taken = true) (h : step s e = some s') :
    (out s').Alone fmt t := by
  intro u hut hu
  have hcase := hstep s e s' h
  split at hcase
  · rename_i v hv
    obtain ⟨rfl, -⟩ := he v true hv
    exact hs u hut ((sendFrame_partlySent_other hcase hut).mp hu)
  · rename_i v hv
    exact absurd (he v false hv).2 (by decide)
  · obtain hsame | ⟨v, m, hbegin⟩ := hcase
    · rw [hsame] at hu
      exact hs u hut hu
    · exact hs u hut ((begin_partlySent hbegin u).mp hu)

/-- A run in which one thread sends all the frames keeps them apart. -/
theorem Drives.meets_of_one_thread (hstep : Drives fmt out frameOf step) {t : T} {s : S} {es : List E}
    (hs : (out s).Alone fmt t) (hes : ∀ e ∈ es, frameOf e = none ∨ frameOf e = some (t, true)) :
    Meets step (Separate fmt out frameOf) s es := by
  induction es generalizing s with
  | nil => trivial
  | cons e es ih =>
    have he : ∀ u taken, frameOf e = some (u, taken) → u = t ∧ taken = true := by
      intro u taken hu
      obtain hnone | hsome := hes e List.mem_cons_self
      · rw [hnone] at hu
        cases hu
      · rw [hsome] at hu
        cases hu
        exact ⟨rfl, rfl⟩
    refine ⟨fun u taken hu => ?_, fun s' hs' => ?_⟩
    · obtain ⟨rfl, htaken⟩ := he u taken hu
      exact ⟨htaken, hs⟩
    · exact ih (hstep.alone hs he hs') fun e' he' => hes e' (List.mem_cons_of_mem e he')

/-- Two threads send their frames one after the other, and between the two no call is under way. -/
theorem Drives.meets_of_two_turns (hstep : Drives fmt out frameOf step) {t u : T} {s m : S} {es fs : List E}
    (hs : ∀ v, (out s).calls v = none) (hes : ∀ e ∈ es, frameOf e = none ∨ frameOf e = some (t, true))
    (hrun : runFrom step s es = some m) (hm : ∀ v, (out m).calls v = none)
    (hfs : ∀ e ∈ fs, frameOf e = none ∨ frameOf e = some (u, true)) :
    Meets step (Separate fmt out frameOf) s (es ++ fs) :=
  (hstep.meets_of_one_thread (alone_of_idle hs t) hes).append hrun (hstep.meets_of_one_thread (alone_of_idle hm u) hfs)

variable {s₀ s : S} {es : List E}

theorem Drives.meets_or_spoiled (hstep : Drives fmt out frameOf step) (hstart : out s₀ = start)
    (hrun : runFrom step s₀ es = some s) :
    Meets step (Separate fmt out frameOf) s₀ es ∧ Clean fmt (out s) ∨ Spoiled fmt (out s) := by
  have hsound : Sound fmt (out s₀) := hstart ▸ start_sound
  have hclean : Clean fmt (out s₀) := hstart ▸ start_clean
  have hcases := meets_or_bad (C := Separate fmt out frameOf)
    (fun _ _ _ h hsep hm => (⟨hstep.sound h.1 hm, hstep.clean h.1 h.2 hsep hm⟩ : Sound fmt _ ∧ Clean fmt _))
    (fun _ _ _ h hsep hm => (⟨hstep.sound h.1 hm, hstep.spoils h.1 h.2 hsep hm⟩ : Sound fmt _ ∧ Spoiled fmt _))
    (fun _ _ _ h hm => ⟨hstep.sound h.1 hm, hstep.spoiled h.1 h.2 hm⟩) ⟨hsound, hclean⟩ hrun
  exact hcases.imp (fun h => ⟨h.1, h.2.2⟩) And.right

theorem Drives.sound_of_run (hstep : Drives fmt out frameOf step) (hstart : out s₀ = start)
    (hrun : runFrom step s₀ es = some s) : Sound fmt (out s) :=
  invariant_of_run (fun _ _ _ hs hm => hstep.sound hs hm) (by rw [hstart]; exact start_sound) hrun

theorem Drives.clean_of_meets (hstep : Drives fmt out frameOf step) (hstart : out s₀ = start)
    (hsep : Meets step (Separate fmt out frameOf) s₀ es) (hrun : runFrom step s₀ es = some s) :
    Clean fmt (out s) := by
  have hstart' : Sound fmt (out s₀) ∧ Clean fmt (out s₀) := by
    rw [hstart]
    exact ⟨start_sound, start_clean⟩
  have hkeep : ∀ s e s', Sound fmt (out s) ∧ Clean fmt (out s) → Separate fmt out frameOf s e →
      step s e = some s' → Sound fmt (out s') ∧ Clean fmt (out s') :=
    fun s e s' hs hc hm => ⟨hstep.sound hs.1 hm, hstep.clean hs.1 hs.2 hc hm⟩
  exact (invariant_of_meets hkeep hsep hstart' hrun).2

/-- In a state with no message partly sent, nothing is mixed only if no frame was ever refused or sent between those
of another thread's message. -/
theorem Drives.meets_of_unmixed (hstep : Drives fmt out frameOf step) (hstart : out s₀ = start)
    (hrun : runFrom step s₀ es = some s) (hquiet : (out s).Quiet fmt) (hun : Unmixed fmt (out s)) :
    Meets step (Separate fmt out frameOf) s₀ es := by
  obtain ⟨hmeets, -⟩ | hspoiled := hstep.meets_or_spoiled hstart hrun
  · exact hmeets
  · exact absurd hun (hspoiled.not_unmixed (hstep.sound_of_run hstart hrun) hquiet)

end Systems
end Chater.SharedWire
