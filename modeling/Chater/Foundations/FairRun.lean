import Chater.Foundations.Transition
import Mathlib.Order.WellFounded
import Mathlib.Logic.Function.Iterate

/-!
# Fair infinite runs

Infinite runs of a transition function in which the events of one process keep happening.  Such a run reaches its end
when every event of the process makes a measure smaller and no other event changes it.  A process that can always go on
has an infinite run of its own.  In a finite run a process takes no more steps than its measure allows.
-/

namespace Chater.Foundations

set_option autoImplicit false

universe u v w

variable {S : Type u} {E : Type v} {step : S → E → Option S} {s : S}

structure Trace (step : S → E → Option S) (s : S) where
  state : ℕ → S
  event : ℕ → E
  first : state 0 = s
  next : ∀ i, step (state i) (event i) = some (state (i + 1))

namespace Trace

/-- The events of `process` happen again and again, unless the run is done. -/
def Fair (r : Trace step s) (process : E → Prop) (done : S → Prop) : Prop :=
  ∀ i, ∃ j, i ≤ j ∧ (done (r.state j) ∨ process (r.event j))

theorem invariant {I : S → Prop} (hstep : ∀ s e t, I s → step s e = some t → I t) (hs : I s) (r : Trace step s)
    (i : ℕ) : I (r.state i) := by
  induction i with
  | zero =>
    rw [r.first]
    exact hs
  | succ i ih => exact hstep _ _ _ ih (r.next i)

section Measure

variable {A : Type w} [LT A] {measure : S → A} {I done : S → Prop} {process : E → Prop}

/-- The next event of the process makes the measure smaller. -/
theorem exists_lt_of_process (hmove : ∀ s e t, I s → process e → step s e = some t → measure t < measure s)
    (hstay : ∀ s e t, I s → ¬ process e → step s e = some t → measure t = measure s) (r : Trace step s)
    (hI : ∀ i, I (r.state i)) {i k : ℕ} (hk : process (r.event (i + k))) :
    ∃ j, measure (r.state j) < measure (r.state i) := by
  induction k generalizing i with
  | zero => exact ⟨i + 1, hmove _ _ _ (hI i) hk (r.next i)⟩
  | succ k ih =>
    by_cases hp : process (r.event i)
    · exact ⟨i + 1, hmove _ _ _ (hI i) hp (r.next i)⟩
    · have hshift : i + (k + 1) = i + 1 + k := by omega
      rw [hshift] at hk
      obtain ⟨j, hj⟩ := ih hk
      rw [hstay _ _ _ (hI i) hp (r.next i)] at hj
      exact ⟨j, hj⟩

/-- A fair run is done at some time. -/
theorem Fair.exists_done [WellFoundedLT A] {r : Trace step s} (hfair : r.Fair process done)
    (hstep : ∀ s e t, I s → step s e = some t → I t)
    (hmove : ∀ s e t, I s → process e → step s e = some t → measure t < measure s)
    (hstay : ∀ s e t, I s → ¬ process e → step s e = some t → measure t = measure s) (hs : I s) :
    ∃ i, done (r.state i) := by
  have hI := r.invariant hstep hs
  have hall : ∀ a i, measure (r.state i) = a → ∃ j, done (r.state j) := by
    intro a
    induction a using WellFoundedLT.induction with
    | ind a ih =>
      rintro i rfl
      obtain ⟨j, hij, hdone | hprocess⟩ := hfair i
      · exact ⟨j, hdone⟩
      · obtain ⟨k, rfl⟩ := Nat.exists_eq_add_of_le hij
        obtain ⟨m, hm⟩ := exists_lt_of_process hmove hstay r hI hprocess
        exact ih _ hm m rfl
  exact hall _ 0 rfl

end Measure

/-- What helps depends on the measure.  No step makes the measure larger before the run is done, and a step that helps
makes it smaller; if something helpful happens again and again for every value, the run is done at some time. -/
theorem exists_done_of_helpful {A : Type w} [PartialOrder A] [WellFoundedLT A] {measure : S → A} {helps : A → E → Prop}
    {C : S → E → Prop} {I done : S → Prop}
    (hstep : ∀ s e t, I s → ¬ done s → C s e → step s e = some t →
      I t ∧ measure t ≤ measure s ∧ (helps (measure s) e → measure t < measure s)) (r : Trace step s) (hs : I s)
    (hmeets : ∀ i, C (r.state i) (r.event i)) (hfair : ∀ a i, ∃ j, i ≤ j ∧ helps a (r.event j)) :
    ∃ i, done (r.state i) := by
  by_contra hnever
  have hopen : ∀ i, ¬ done (r.state i) := fun i hi => hnever ⟨i, hi⟩
  have hI : ∀ i, I (r.state i) := by
    intro i
    induction i with
    | zero =>
      rw [r.first]
      exact hs
    | succ i ih => exact (hstep _ _ _ ih (hopen i) (hmeets i) (r.next i)).1
  -- the measure gets smaller before a helpful event is over
  have hsmaller : ∀ k i, helps (measure (r.state i)) (r.event (i + k)) →
      ∃ j, measure (r.state j) < measure (r.state i) := by
    intro k
    induction k with
    | zero =>
      intro i hhelps
      exact ⟨i + 1, (hstep _ _ _ (hI i) (hopen i) (hmeets i) (r.next i)).2.2 hhelps⟩
    | succ k ih =>
      intro i hhelps
      obtain hlt | heq := (hstep _ _ _ (hI i) (hopen i) (hmeets i) (r.next i)).2.1.lt_or_eq
      · exact ⟨i + 1, hlt⟩
      · have hshift : i + (k + 1) = i + 1 + k := by omega
        rw [hshift, ← heq] at hhelps
        obtain ⟨j, hj⟩ := ih (i + 1) hhelps
        exact ⟨j, heq ▸ hj⟩
  have hnone : ∀ a i, measure (r.state i) ≠ a := by
    intro a
    induction a using WellFoundedLT.induction with
    | ind a ih =>
      rintro i rfl
      obtain ⟨j, hij, hhelps⟩ := hfair (measure (r.state i)) i
      obtain ⟨k, rfl⟩ := Nat.exists_eq_add_of_le hij
      obtain ⟨m, hm⟩ := hsmaller k i hhelps
      exact ih _ hm m rfl
  exact hnone _ 0 rfl

/-- A process that can always go on does so for ever. -/
theorem exists_of_scheduler {I : S → Prop} (next : S → E) (hnext : ∀ s, I s → ∃ t, step s (next s) = some t ∧ I t)
    (hs : I s) : ∃ r : Trace step s, ∀ i, I (r.state i) ∧ r.event i = next (r.state i) := by
  let advance : S → S := fun s => (step s (next s)).getD s
  have hadvance : ∀ s, I s → step s (next s) = some (advance s) ∧ I (advance s) := by
    intro s hs
    obtain ⟨t, ht, hI⟩ := hnext s hs
    have heq : advance s = t := by rw [show advance s = (step s (next s)).getD s from rfl, ht]; rfl
    rw [heq]
    exact ⟨ht, hI⟩
  let state : ℕ → S := fun i => advance^[i] s
  have hstate : ∀ i, I (state i) := by
    intro i
    induction i with
    | zero => exact hs
    | succ i ih =>
      rw [show state (i + 1) = advance (state i) from Function.iterate_succ_apply' ..]
      exact (hadvance _ ih).2
  refine ⟨⟨state, fun i => next (state i), rfl, fun i => ?_⟩, fun i => ⟨hstate i, rfl⟩⟩
  rw [show state (i + 1) = advance (state i) from Function.iterate_succ_apply' ..]
  exact (hadvance _ (hstate i)).1

/-! ### A finite run before an infinite one -/

def cons {m : S} {e : E} (h : step s e = some m) (r : Trace step m) : Trace step s where
  state
    | 0 => s
    | i + 1 => r.state i
  event
    | 0 => e
    | i + 1 => r.event i
  first := rfl
  next
    | 0 => h.trans (congrArg some r.first.symm)
    | i + 1 => r.next i

theorem exists_append {C : S → E → Prop} {m : S} {es : List E} (hmeets : Meets step C s es)
    (hrun : runFrom step s es = some m) (r : Trace step m) (hr : ∀ i, C (r.state i) (r.event i)) :
    ∃ r' : Trace step s, (∀ i, C (r'.state i) (r'.event i)) ∧ ∀ i, r'.event (i + es.length) = r.event i := by
  induction es generalizing s with
  | nil =>
    obtain rfl := Option.some.inj hrun
    exact ⟨r, hr, fun _ => rfl⟩
  | cons e es ih =>
    obtain ⟨u, hu, hrest⟩ := runFrom_cons_iff.mp hrun
    obtain ⟨r', hC, hevent⟩ := ih (hmeets.2 u hu) hrest
    refine ⟨r'.cons hu, fun i => ?_, hevent⟩
    cases i with
    | zero => exact hmeets.1
    | succ i => exact hC i

end Trace

/-- Steps of the process make the measure smaller and no step makes it larger, so there are at most as many of them.
All steps of the run meet `C`. -/
theorem process_steps_le {C : S → E → Prop} {measure : S → ℕ} {I : S → Prop} {process : E → Bool}
    (hstep : ∀ s e t, I s → C s e → step s e = some t →
      I t ∧ measure t ≤ measure s ∧ (process e = true → measure t < measure s)) {t : S} {es : List E}
    (hs : I s) (hmeets : Meets step C s es) (hrun : runFrom step s es = some t) :
    I t ∧ es.countP process + measure t ≤ measure s := by
  induction es generalizing s with
  | nil =>
    obtain rfl := Option.some.inj hrun
    exact ⟨hs, by simp⟩
  | cons e es ih =>
    obtain ⟨m, hm, hrest⟩ := runFrom_cons_iff.mp hrun
    obtain ⟨hI, hle, hlt⟩ := hstep s e m hs hmeets.1 hm
    obtain ⟨ht, hcount⟩ := ih hI (hmeets.2 m hm) hrest
    refine ⟨ht, ?_⟩
    rw [List.countP_cons]
    cases hprocess : process e with
    | true =>
      have := hlt hprocess
      simp only [if_true]
      omega
    | false =>
      simp only [Bool.false_eq_true, if_false]
      omega

/-! ## Rounds -/

theorem run_split {C : S → E → Prop} {t : S} {es fs : List E} (hmeets : Meets step C s (es ++ fs))
    (hrun : runFrom step s (es ++ fs) = some t) :
    ∃ m, Meets step C s es ∧ runFrom step s es = some m ∧ Meets step C m fs ∧ runFrom step m fs = some t := by
  induction es generalizing s with
  | nil => exact ⟨s, trivial, rfl, hmeets, hrun⟩
  | cons e es ih =>
    obtain ⟨u, hu, hrest⟩ := runFrom_cons_iff.mp hrun
    obtain ⟨hc, hmeets⟩ := (meets_cons_iff hu).mp hmeets
    obtain ⟨m, hes, hm, hfs, ht⟩ := ih hmeets hrest
    exact ⟨m, (meets_cons_iff hu).mpr ⟨hc, hes⟩, runFrom_cons_iff.mpr ⟨u, hu, hm⟩, hfs, ht⟩

section Rounds

variable {C : S → E → Prop} {measure : S → ℕ} {I : S → Prop} {awaits : ℕ → E → Prop}

/-- No step makes the measure larger, and an event that it awaits makes it smaller.  In a run with such an event it gets
smaller. -/
theorem lt_of_round (hstep : ∀ s e t, I s → C s e → step s e = some t →
      I t ∧ measure t ≤ measure s ∧ (measure s ≠ 0 → awaits (measure s) e → measure t < measure s)) {t : S}
    {es : List E} (hs : I s) (hmeets : Meets step C s es) (hrun : runFrom step s es = some t)
    (hawaited : ∃ e ∈ es, awaits (measure s) e) :
    I t ∧ measure t ≤ measure s ∧ (measure s ≠ 0 → measure t < measure s) := by
  have hle : ∀ {m es}, I m → Meets step C m es → runFrom step m es = some t → I t ∧ measure t ≤ measure m := by
    intro m es hm hmeets hrun
    have hkeep : ∀ u e v, (I u ∧ measure u ≤ measure m) → C u e → step u e = some v → I v ∧ measure v ≤ measure m := by
      intro u e v hu hc hv
      obtain ⟨hI, hdown, -⟩ := hstep u e v hu.1 hc hv
      exact ⟨hI, hdown.trans hu.2⟩
    exact invariant_of_meets hkeep hmeets ⟨hm, le_rfl⟩ hrun
  induction es generalizing s with
  | nil => exact absurd hawaited (by simp)
  | cons e es ih =>
    obtain ⟨m, hm, hrest⟩ := runFrom_cons_iff.mp hrun
    obtain ⟨hI, hstepLe, hlt⟩ := hstep s e m hs hmeets.1 hm
    obtain ⟨ht, htail⟩ := hle hI (hmeets.2 m hm) hrest
    obtain ⟨a, hmem, ha⟩ := hawaited
    obtain rfl | hmem := List.mem_cons.mp hmem
    · exact ⟨ht, by omega, fun hpos => by have := hlt hpos ha; omega⟩
    · by_cases hsame : measure m = measure s
      · rw [← hsame] at ha ⊢
        exact ih hI (hmeets.2 m hm) hrest ⟨a, hmem, ha⟩
      · exact ⟨ht, by omega, fun _ => by omega⟩

/-- After as many rounds as the measure says it is zero. -/
theorem zero_of_rounds (hstep : ∀ s e t, I s → C s e → step s e = some t →
      I t ∧ measure t ≤ measure s ∧ (measure s ≠ 0 → awaits (measure s) e → measure t < measure s)) {t : S}
    {rounds : List (List E)} (hs : I s) (hrounds : ∀ round ∈ rounds, ∀ k, ∃ e ∈ round, awaits k e)
    (hlength : measure s ≤ rounds.length) (hmeets : Meets step C s rounds.flatten)
    (hrun : runFrom step s rounds.flatten = some t) : I t ∧ measure t = 0 := by
  induction rounds generalizing s with
  | nil =>
    obtain rfl := Option.some.inj hrun
    exact ⟨hs, Nat.le_zero.mp hlength⟩
  | cons round rounds ih =>
    rw [List.flatten_cons] at hmeets hrun
    obtain ⟨m, hmeets, hm, hmeets', hrest⟩ := run_split hmeets hrun
    obtain ⟨hI, hle, hlt⟩ := lt_of_round hstep hs hmeets hm (hrounds round List.mem_cons_self _)
    refine ih hI (fun r hr => hrounds r (List.mem_cons_of_mem _ hr)) ?_ hmeets' hrest
    rw [List.length_cons] at hlength
    by_cases hzero : measure s = 0
    · omega
    · have := hlt hzero
      omega

end Rounds

end Chater.Foundations
