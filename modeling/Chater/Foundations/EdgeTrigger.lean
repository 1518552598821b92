import Chater.Foundations.Transition
import Mathlib.Logic.Function.Basic

/-!
# A poll loop over edge-triggered sources

A source is a kernel object with a queue of waiting items and a pending-edge flag.  Arrivals set the flag and a
report by the poll call clears it.  The loop polls, runs the handler of each reported source once, runs its queued
functors and polls again.

Between the report and the end of its handler a source is still on the loop's active list.  The invariant is that
every source with waiting items is either announced by its flag or still on that list, so nothing is lost
as long as no handler leaves items behind an empty flag.  A source that is left so stays unnoticed until the kernel
has a new reason to announce it.
-/

namespace Chater.EdgeTrigger

open Foundations

set_option autoImplicit false

universe u v w x

/-! ## The loop -/

structure Source (α : Type v) (H : Type w) where
  queue : List α
  edge : Bool
  handler : H

inductive Phase (K : Type u)
  | polling
  | handling (active : List K)
  | functors
deriving DecidableEq

def Phase.active {K : Type u} : Phase K → List K
  | .handling active => active
  | .polling | .functors => []

structure Loop (K : Type u) (α : Type v) (H : Type w) where
  sources : K → Source α H
  phase : Phase K

/-- A handler with an input `ι` from its surroundings, and whether the poller watches its source.  `run` is `none`
when the input is impossible in that state, or when the process ends. -/
structure Handler (ι : Type x) (α : Type v) (H : Type w) where
  watched : H → Bool
  run : ι → Source α H → Option (Source α H)

/-- `signal` is a condition other than items that the kernel announces too.  `touch` and `ctl` are changes of the
handler's state outside its own event; with `ctl` they include a call that adds the source to the poller or modifies
it there, after which the kernel looks at the source afresh. -/
inductive Event (K : Type u) (ι : Type x) (α : Type v) (H : Type w)
  | arrive (k : K) (items : List α)
  | signal (k : K) (f : H → H)
  | touch (k : K) (f : H → H)
  | ctl (k : K) (f : H → H)
  | poll (reported : List K)
  | handle (i : ι)
  | runFunctors
  | enterPoll

variable {K : Type u} {ι : Type x} {α : Type v} {H : Type w} [DecidableEq K]

namespace Source

def arrive (s : Source α H) (items : List α) : Source α H := { s with queue := s.queue ++ items, edge := true }

def signal (s : Source α H) (f : H → H) : Source α H := { s with handler := f s.handler, edge := true }

def touch (s : Source α H) (f : H → H) : Source α H := { s with handler := f s.handler }

def rearm (s : Source α H) : Source α H := { s with edge := s.edge || !s.queue.isEmpty }

def report (s : Source α H) : Source α H := { s with edge := false }

theorem rearm_edge {s : Source α H} (h : s.queue ≠ []) : s.rearm.edge = true := by
  have hne : s.queue.isEmpty = false := List.isEmpty_eq_false_iff.mpr h
  simp [rearm, hne]

end Source

namespace Loop

def modify (l : Loop K α H) (k : K) (f : Source α H → Source α H) : Loop K α H :=
  { l with sources := Function.update l.sources k (f (l.sources k)) }

def report (l : Loop K α H) (reported : List K) : Loop K α H where
  sources k := if k ∈ reported then (l.sources k).report else l.sources k
  phase := .handling reported

/-- The poll call reports watched sources with a pending edge, not necessarily all of them. -/
def step (handler : Handler ι α H) (l : Loop K α H) : Event K ι α H → Option (Loop K α H)
  | .arrive k items => if items = [] then none else some (l.modify k (·.arrive items))
  | .signal k f => some (l.modify k (·.signal f))
  | .touch k f =>
    if handler.watched (f (l.sources k).handler) → handler.watched (l.sources k).handler then
      some (l.modify k (·.touch f))
    else none
  | .ctl k f => if l.phase = .polling then none else some (l.modify k fun s => (s.touch f).rearm)
  | .poll reported =>
    if l.phase = .polling ∧ ∀ k ∈ reported, handler.watched (l.sources k).handler ∧ (l.sources k).edge then
      some (l.report reported)
    else none
  | .handle i =>
    match l.phase with
    | .handling (k :: rest) =>
      (handler.run i (l.sources k)).map fun s => { l.modify k (fun _ => s) with phase := .handling rest }
    | _ => none
  | .runFunctors => if l.phase = .handling [] then some { l with phase := .functors } else none
  | .enterPoll => if l.phase = .functors then some { l with phase := .polling } else none

end Loop

/-! ## Nothing is forgotten -/

section Invariant

/-- When the loop enters the poll call, each source with waiting items has a pending edge. -/
def NoneForgotten (l : Loop K α H) : Prop :=
  l.phase = .polling → ∀ k, (l.sources k).queue ≠ [] → (l.sources k).edge = true

def Announced (l : Loop K α H) : Prop :=
  ∀ k, (l.sources k).queue ≠ [] → (l.sources k).edge = true ∨ k ∈ l.phase.active

def LeavesNothing (handler : Handler ι α H) (l : Loop K α H) : Event K ι α H → Prop
  | .handle i => ∀ k rest s, l.phase = .handling (k :: rest) → handler.run i (l.sources k) = some s →
      s.queue ≠ [] → s.edge = true
  | _ => True

omit [DecidableEq K] in
theorem Announced.noneForgotten {l : Loop K α H} (h : Announced l) : NoneForgotten l := by
  intro hphase k hq
  have hk := h k hq
  rw [hphase] at hk
  exact hk.resolve_right List.not_mem_nil

theorem Announced.modify {l : Loop K α H} (h : Announced l) {k : K} {f : Source α H → Source α H}
    (hf : (f (l.sources k)).queue ≠ [] → (f (l.sources k)).edge = true ∨ k ∈ l.phase.active) :
    Announced (l.modify k f) := by
  intro j hq
  by_cases hj : j = k
  · subst hj
    simp only [Loop.modify, Function.update_self] at hq ⊢
    exact hf hq
  · simp only [Loop.modify, Function.update_of_ne hj] at hq ⊢
    exact h j hq

theorem Announced.report {l : Loop K α H} (h : Announced l) (hphase : l.phase = .polling)
    (reported : List K) : Announced (l.report reported) := by
  intro k hq
  by_cases hk : k ∈ reported
  · exact .inr hk
  · simp only [Loop.report, if_neg hk] at hq ⊢
    exact .inl (h.noneForgotten hphase k hq)

theorem Announced.handle {l : Loop K α H} (h : Announced l) {k : K} {rest : List K} {s : Source α H}
    (hphase : l.phase = .handling (k :: rest)) (hs : s.queue ≠ [] → s.edge = true) :
    Announced { l.modify k (fun _ => s) with phase := .handling rest } := by
  intro j hq
  by_cases hj : j = k
  · subst hj
    simp only [Loop.modify, Function.update_self] at hq ⊢
    exact .inl (hs hq)
  · simp only [Loop.modify, Function.update_of_ne hj] at hq ⊢
    have hold := h j hq
    rw [hphase] at hold
    exact hold.imp_right fun hmem => (List.mem_cons.mp hmem).resolve_left hj

omit [DecidableEq K] in
theorem Announced.idle {l : Loop K α H} (h : Announced l) (hidle : l.phase.active = []) (p : Phase K) :
    Announced { l with phase := p } := by
  intro k hq
  have hk := h k hq
  rw [hidle] at hk
  exact .inl (hk.resolve_right List.not_mem_nil)

variable {handler : Handler ι α H}

theorem announced_step {l l' : Loop K α H} {e : Event K ι α H} (h : Announced l)
    (hok : LeavesNothing handler l e) (hstep : l.step handler e = some l') : Announced l' := by
  cases e with
  | arrive k items =>
    simp only [Loop.step, Option.ite_none_left_eq_some, Option.some.injEq] at hstep
    obtain ⟨-, rfl⟩ := hstep
    exact h.modify fun _ => .inl rfl
  | signal k f =>
    obtain rfl := Option.some.inj hstep
    exact h.modify fun _ => .inl rfl
  | touch k f =>
    simp only [Loop.step, Option.ite_none_right_eq_some, Option.some.injEq] at hstep
    obtain ⟨-, rfl⟩ := hstep
    exact h.modify fun hq => h k hq
  | ctl k f =>
    simp only [Loop.step, Option.ite_none_left_eq_some, Option.some.injEq] at hstep
    obtain ⟨-, rfl⟩ := hstep
    exact h.modify fun hq => .inl (Source.rearm_edge hq)
  | poll reported =>
    simp only [Loop.step, Option.ite_none_right_eq_some, Option.some.injEq] at hstep
    obtain ⟨⟨hphase, -⟩, rfl⟩ := hstep
    exact h.report hphase reported
  | handle i =>
    simp only [Loop.step] at hstep
    split at hstep
    case h_2 => cases hstep
    case h_1 k rest hphase =>
      obtain ⟨s, hs, rfl⟩ := Option.map_eq_some_iff.mp hstep
      exact h.handle hphase (hok k rest s hphase hs)
  | runFunctors =>
    simp only [Loop.step, Option.ite_none_right_eq_some, Option.some.injEq] at hstep
    obtain ⟨hphase, rfl⟩ := hstep
    exact h.idle (by rw [hphase]; rfl) _
  | enterPoll =>
    simp only [Loop.step, Option.ite_none_right_eq_some, Option.some.injEq] at hstep
    obtain ⟨hphase, rfl⟩ := hstep
    exact h.idle (by rw [hphase]; rfl) _

theorem noneForgotten_of_run {l l' : Loop K α H} {es : List (Event K ι α H)} (h : Announced l)
    (hok : Meets (Loop.step handler) (LeavesNothing handler) l es)
    (hrun : runFrom (Loop.step handler) l es = some l') : NoneForgotten l' :=
  (invariant_of_meets (fun _ _ _ => announced_step) hok h hrun).noneForgotten

end Invariant

/-! ## What is forgotten stays forgotten -/

section Forgotten

structure Forgotten (l : Loop K α H) (k : K) (q : List α) : Prop where
  queue_eq : (l.sources k).queue = q
  edge_eq : (l.sources k).edge = false
  not_active : k ∉ l.phase.active

def Event.Concerns (k : K) : Event K ι α H → Prop
  | .arrive j _ | .signal j _ | .touch j _ | .ctl j _ => j = k
  | _ => False

variable {handler : Handler ι α H}

omit [DecidableEq K] in
theorem Forgotten.of_same {l l' : Loop K α H} {k : K} {q : List α} (h : Forgotten l k q)
    (hsame : l'.sources k = l.sources k) (hnot : k ∉ l'.phase.active) : Forgotten l' k q where
  queue_eq := by rw [hsame]; exact h.queue_eq
  edge_eq := by rw [hsame]; exact h.edge_eq
  not_active := hnot

theorem Forgotten.modify {l : Loop K α H} {k j : K} {q : List α} (h : Forgotten l k q) (hj : k ≠ j)
    (f : Source α H → Source α H) : Forgotten (l.modify j f) k q :=
  h.of_same (Function.update_of_ne hj _ _) h.not_active

theorem forgotten_step {l l' : Loop K α H} {e : Event K ι α H} {k : K} {q : List α}
    (h : Forgotten l k q) (he : ¬ e.Concerns k) (hstep : l.step handler e = some l') :
    Forgotten l' k q := by
  cases e with
  | arrive j items =>
    simp only [Loop.step, Option.ite_none_left_eq_some, Option.some.injEq] at hstep
    obtain ⟨-, rfl⟩ := hstep
    exact h.modify (Ne.symm he) _
  | signal j f =>
    obtain rfl := Option.some.inj hstep
    exact h.modify (Ne.symm he) _
  | touch j f =>
    simp only [Loop.step, Option.ite_none_right_eq_some, Option.some.injEq] at hstep
    obtain ⟨-, rfl⟩ := hstep
    exact h.modify (Ne.symm he) _
  | ctl j f =>
    simp only [Loop.step, Option.ite_none_left_eq_some, Option.some.injEq] at hstep
    obtain ⟨-, rfl⟩ := hstep
    exact h.modify (Ne.symm he) _
  | poll reported =>
    simp only [Loop.step, Option.ite_none_right_eq_some, Option.some.injEq] at hstep
    obtain ⟨⟨-, hedges⟩, rfl⟩ := hstep
    -- only sources with a pending edge are reported
    have hk : k ∉ reported := fun hmem => by simpa [h.edge_eq] using (hedges k hmem).2
    exact h.of_same (if_neg hk) hk
  | handle i =>
    simp only [Loop.step] at hstep
    split at hstep
    case h_2 => cases hstep
    case h_1 j rest hphase =>
      obtain ⟨s, -, rfl⟩ := Option.map_eq_some_iff.mp hstep
      have hnot := h.not_active
      rw [hphase] at hnot
      have hne : k ≠ j := List.ne_of_not_mem_cons hnot
      exact h.of_same (Function.update_of_ne hne _ _) (List.not_mem_of_not_mem_cons hnot)
  | runFunctors =>
    simp only [Loop.step, Option.ite_none_right_eq_some, Option.some.injEq] at hstep
    obtain ⟨-, rfl⟩ := hstep
    exact h.of_same rfl List.not_mem_nil
  | enterPoll =>
    simp only [Loop.step, Option.ite_none_right_eq_some, Option.some.injEq] at hstep
    obtain ⟨-, rfl⟩ := hstep
    exact h.of_same rfl List.not_mem_nil

theorem forgotten_run {l l' : Loop K α H} {es : List (Event K ι α H)} {k : K} {q : List α}
    (h : Forgotten l k q) (hes : Meets (Loop.step handler) (fun _ e => ¬ e.Concerns k) l es)
    (hrun : runFrom (Loop.step handler) l es = some l') : Forgotten l' k q :=
  invariant_of_meets (fun _ _ _ => forgotten_step) hes h hrun

theorem forgotten_of_handle {l l' : Loop K α H} {k : K} {rest : List K} {i : ι} {s : Source α H}
    (hphase : l.phase = .handling (k :: rest)) (hrest : k ∉ rest) (hrun : handler.run i (l.sources k) = some s)
    (hedge : s.edge = false) (hstep : l.step handler (.handle i) = some l') : Forgotten l' k s.queue := by
  simp only [Loop.step, hphase, hrun, Option.map_some, Option.some.injEq] at hstep
  subst hstep
  refine ⟨?_, ?_, hrest⟩ <;> simp only [Loop.modify, Function.update_self]
  exact hedge

end Forgotten

end Chater.EdgeTrigger
