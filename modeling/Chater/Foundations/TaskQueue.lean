import Mathlib.Algebra.BigOperators.Group.Finset.Piecewise
import Mathlib.Algebra.Order.Group.Multiset
import Mathlib.Tactic

/-!
# Tasks in a queue and in the hands of workers

Tasks are put at the end of a queue and taken from its front by workers, each of which holds what it has taken until it
has finished it.  Whatever order the workers go in, the tasks taken and those in the queue are the tasks accepted, in
that order, and each task taken is finished or held by one worker (`Accounted`).

The threads that bring tasks make calls, each with a number of its own (`Numbered`); a call is in a thread until it
returns (`Made`).
-/

namespace Chater.TaskQueue

set_option autoImplicit false

universe u v

/-! ## Sums over places -/

theorem sum_update_add {P : Type u} {M : Type v} [DecidableEq P] [AddCommMonoid M] {places : Finset P} {i : P}
    (hi : i ∈ places) (f : P → M) (b : M) :
    ∑ j ∈ places, Function.update f i b j + f i = ∑ j ∈ places, f j + b := by
  rw [Finset.sum_update_of_mem hi, Finset.sum_eq_add_sum_sdiff_singleton_of_mem hi f]
  abel

/-- One place of a sum changes. -/
theorem sum_change {P : Type u} {M : Type v} [DecidableEq P] [AddCommMonoid M] {places : Finset P} {i : P}
    (hi : i ∈ places) {f g : P → M} (hsame : ∀ j, j ≠ i → g j = f j) :
    ∑ j ∈ places, g j + f i = ∑ j ∈ places, f j + g i := by
  have hg : g = Function.update f i (g i) := by
    funext j
    by_cases hj : j = i
    · rw [hj, Function.update_self]
    · rw [Function.update_of_ne hj, hsame j hj]
  rw [hg, Function.update_self]
  exact sum_update_add hi f _

/-! ## Accounts -/

variable {A : Type u}

/-- `held i` is what worker `i` of `n` has taken and not finished. -/
structure Accounted (n : ℕ) (accepted queue dequeued finished : List A) (held : ℕ → Multiset A) : Prop where
  order : dequeued ++ queue = accepted
  places : (finished : Multiset A) + ∑ i ∈ Finset.range n, held i = (dequeued : Multiset A)

namespace Accounted

variable {n i : ℕ} {accepted queue dequeued finished : List A} {held : ℕ → Multiset A} {a : A}

theorem start (hheld : ∀ i, held i = 0) : Accounted n ([] : List A) [] [] [] held where
  order := rfl
  places := by simp [hheld]

theorem push (h : Accounted n accepted queue dequeued finished held) (a : A) :
    Accounted n (accepted ++ [a]) (queue ++ [a]) dequeued finished held where
  order := by rw [← List.append_assoc, h.order]
  places := h.places

theorem dequeue (h : Accounted n accepted (a :: queue) dequeued finished held) (hi : i < n) (hfree : held i = 0) :
    Accounted n accepted queue (dequeued ++ [a]) finished (Function.update held i {a}) where
  order := by rw [← h.order, List.append_assoc, List.singleton_append]
  places := by
    have hsum := sum_update_add (Finset.mem_range.mpr hi) held {a}
    rw [hfree, add_zero] at hsum
    rw [hsum, ← add_assoc, h.places, ← Multiset.coe_add, Multiset.coe_singleton]

theorem finish (h : Accounted n accepted queue dequeued finished held) (hi : i < n) (hheld : held i = {a}) :
    Accounted n accepted queue dequeued (finished ++ [a]) (Function.update held i 0) where
  order := h.order
  places := by
    have hsum := sum_update_add (Finset.mem_range.mpr hi) held 0
    rw [hheld, add_zero] at hsum
    rw [← h.places, ← hsum, ← Multiset.coe_add, Multiset.coe_singleton]
    abel

/-- Nothing is held any more. -/
theorem finished_perm (h : Accounted n accepted queue dequeued finished held) (hidle : ∀ i < n, held i = 0) :
    finished.Perm dequeued := by
  have hsum : ∑ i ∈ Finset.range n, held i = 0 := Finset.sum_eq_zero fun i hi => hidle i (Finset.mem_range.mp hi)
  have hplaces := h.places
  rw [hsum, add_zero] at hplaces
  exact Multiset.coe_eq_coe.mp hplaces

end Accounted

/-! ## Calls -/

/-- The tasks accepted bear numbers of calls made so far, each its own. -/
structure Numbered (calls : ℕ) (accepted : List ℕ) : Prop where
  below : ∀ task ∈ accepted, task < calls
  nodup : accepted.Nodup

namespace Numbered

variable {calls : ℕ} {accepted : List ℕ}

theorem skip (h : Numbered calls accepted) : Numbered (calls + 1) accepted where
  below task hmem := (h.below task hmem).trans (Nat.lt_succ_self _)
  nodup := h.nodup

theorem fresh (h : Numbered calls accepted) : calls ∉ accepted := fun hmem => lt_irrefl _ (h.below _ hmem)

theorem push (h : Numbered calls accepted) : Numbered (calls + 1) (accepted ++ [calls]) where
  below task hmem := by
    obtain hold | hnew := List.mem_append.mp hmem
    · exact h.skip.below task hold
    · rw [List.mem_singleton.mp hnew]
      exact Nat.lt_succ_self _
  nodup := List.nodup_append.mpr ⟨h.nodup, List.nodup_singleton _, fun a ha b hb hab =>
    h.fresh (List.mem_singleton.mp hb ▸ hab ▸ ha)⟩

end Numbered

variable {T : Type v} [DecidableEq T] {inCall : T → Option A} {returned : List A} {t : T} {new call : A}

/-- The call is under way in some thread or has returned. -/
def Made (inCall : T → Option A) (returned : List A) (call : A) : Prop :=
  (∃ t, inCall t = some call) ∨ call ∈ returned

theorem made_of_begin (h : Made (Function.update inCall t (some new)) returned call) :
    call = new ∨ Made inCall returned call := by
  obtain ⟨u, hu⟩ | hmem := h
  · by_cases hut : u = t
    · subst hut
      rw [Function.update_self] at hu
      exact .inl (Option.some.inj hu).symm
    · rw [Function.update_of_ne hut] at hu
      exact .inr (.inl ⟨u, hu⟩)
  · exact .inr (.inr hmem)

theorem made_of_return (hnew : inCall t = some new)
    (h : Made (Function.update inCall t none) (returned ++ [new]) call) : Made inCall returned call := by
  obtain ⟨u, hu⟩ | hmem := h
  · by_cases hut : u = t
    · subst hut
      rw [Function.update_self] at hu
      cases hu
    · rw [Function.update_of_ne hut] at hu
      exact .inl ⟨u, hu⟩
  · obtain hold | hlast := List.mem_append.mp hmem
    · exact .inr hold
    · rw [← List.mem_singleton.mp hlast] at hnew
      exact .inl ⟨t, hnew⟩

end Chater.TaskQueue
