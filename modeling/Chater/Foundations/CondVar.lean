import Chater.Foundations.TaskQueue
import Chater.Foundations.Transition

/-!
# Workers that wait on a condition variable

Workers take tasks from a queue and wait on a condition variable when they find it empty.  Each task that is put into
the queue is followed by one notification, which wakes one waiting worker if there is one.  A worker that is awake looks
at the queue before it waits again.

As long as some worker waits, no more tasks are queued than there are notifications to come and workers awake
(`Covered`).  So no task is left behind while a worker sleeps.
-/

namespace Chater.CondVar

open TaskQueue

set_option autoImplicit false

/-- What a worker is doing, seen from the queue. -/
inductive Stance
  | awake
  | waiting
  | away
deriving DecidableEq, Repr

/-- The number of the `n` workers that have the stance. -/
def tally (n : ℕ) (stance : ℕ → Stance) (k : Stance) : ℕ := ∑ i ∈ Finset.range n, if stance i = k then 1 else 0

variable {n i : ℕ} {stance stance' : ℕ → Stance} {k : Stance}

theorem tally_change (hi : i < n) (hsame : ∀ j, j ≠ i → stance' j = stance j) :
    tally n stance' k + (if stance i = k then 1 else 0) = tally n stance k + (if stance' i = k then 1 else 0) :=
  sum_change (f := fun j => if stance j = k then 1 else 0) (g := fun j => if stance' j = k then 1 else 0)
    (Finset.mem_range.mpr hi) fun j hj => by rw [hsame j hj]

theorem tally_pos_iff : 0 < tally n stance k ↔ ∃ i < n, stance i = k := by
  rw [tally, ← Finset.card_filter, Finset.card_pos]
  simp [Finset.Nonempty]

theorem tally_eq_zero (h : ∀ i < n, stance i ≠ k) : tally n stance k = 0 := by
  by_contra hne
  obtain ⟨i, hi, hk⟩ := tally_pos_iff.mp (Nat.pos_of_ne_zero hne)
  exact h i hi hk

/-- While a worker waits, the tasks queued are no more than the notifications to come and the workers awake. -/
def Covered (n : ℕ) (stance : ℕ → Stance) (pending queued : ℕ) : Prop :=
  0 < tally n stance .waiting → queued ≤ pending + tally n stance .awake

namespace Covered

variable {pending queued : ℕ}

theorem of_empty : Covered n stance pending 0 := fun _ => Nat.zero_le _

theorem of_nobody_waits (h : ∀ i < n, stance i ≠ .waiting) : Covered n stance pending queued := by
  intro hpos
  rw [tally_eq_zero h] at hpos
  exact absurd hpos (lt_irrefl 0)

theorem push (h : Covered n stance pending queued) : Covered n stance (pending + 1) (queued + 1) := by
  intro hpos
  have := h hpos
  omega

/-- A notification wakes a worker. -/
theorem notify (h : Covered n stance (pending + 1) queued) (hi : i < n) (hsame : ∀ j, j ≠ i → stance' j = stance j)
    (hwaiting : stance i = .waiting) (hawake : stance' i = .awake) : Covered n stance' pending queued := by
  intro _
  have hpos : 0 < tally n stance .waiting := tally_pos_iff.mpr ⟨i, hi, hwaiting⟩
  have hcount := tally_change (k := .awake) hi hsame
  simp only [hwaiting, hawake, reduceCtorEq, if_true, if_false] at hcount
  have := h hpos
  omega

/-- A worker comes to the queue without having been notified. -/
theorem rouse (h : Covered n stance pending queued) (hi : i < n) (hsame : ∀ j, j ≠ i → stance' j = stance j)
    (hasleep : stance i ≠ .awake) (hawake : stance' i = .awake) : Covered n stance' pending queued := by
  intro hpos
  have hfewer := tally_change (k := .waiting) hi hsame
  have hmore := tally_change (k := .awake) hi hsame
  simp only [hasleep, hawake, reduceCtorEq, if_true, if_false] at hfewer hmore
  have := h (by omega)
  omega

/-- A worker takes a task. -/
theorem take (h : Covered n stance pending (queued + 1)) (hi : i < n) (hsame : ∀ j, j ≠ i → stance' j = stance j)
    (hawake : stance i = .awake) (haway : stance' i = .away) : Covered n stance' pending queued := by
  intro hpos
  have hsleep := tally_change (k := .waiting) hi hsame
  have hfewer := tally_change (k := .awake) hi hsame
  simp only [hawake, haway, reduceCtorEq, if_true, if_false] at hsleep hfewer
  have := h (by omega)
  omega

/-- Workers that are not awake before and after do not matter, unless one begins to wait. -/
theorem congr (h : Covered n stance pending queued)
    (hsame : ∀ i < n, (stance' i = .awake ↔ stance i = .awake) ∧ (stance' i = .waiting → stance i = .waiting)) :
    Covered n stance' pending queued := by
  intro hpos
  obtain ⟨i, hi, hwaiting⟩ := tally_pos_iff.mp hpos
  have hawake : tally n stance' .awake = tally n stance .awake :=
    Finset.sum_congr rfl fun j hj => by simp only [(hsame j (Finset.mem_range.mp hj)).1]
  rw [hawake]
  exact h (tally_pos_iff.mpr ⟨i, hi, (hsame i hi).2 hwaiting⟩)

/-- **No task is forgotten.**  With a task in the queue a notification is to come, a worker is awake, or no worker
waits. -/
theorem not_forgotten (h : Covered n stance pending queued) (hqueued : 0 < queued) :
    0 < pending ∨ (∃ i < n, stance i = .awake) ∨ ∀ i < n, stance i = .away := by
  by_cases hpos : 0 < tally n stance .waiting
  · have hle := h hpos
    obtain hpending | hawake : 0 < pending ∨ 0 < tally n stance .awake := by omega
    · exact .inl hpending
    · exact .inr (.inl (tally_pos_iff.mp hawake))
  · by_cases hawake : ∃ i < n, stance i = .awake
    · exact .inr (.inl hawake)
    · refine .inr (.inr fun i hi => ?_)
      cases hstance : stance i with
      | awake => exact absurd ⟨i, hi, hstance⟩ hawake
      | waiting => exact absurd (tally_pos_iff.mpr ⟨i, hi, hstance⟩) hpos
      | away => rfl

end Covered
end Chater.CondVar
