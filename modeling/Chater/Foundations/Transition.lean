import Mathlib.Tactic

/-!
# Runs of a partial step function

A system is a partial step function: `step s e` is the state after the event `e`, and `none` when `e` cannot
happen in `s`.  Invariants are proved one step at a time and carried over whole runs, either for every run or for
the runs whose steps all meet a condition on the state and the event before the step.
-/

namespace Chater.Foundations

set_option autoImplicit false

universe u v

variable {S : Type u} {E : Type v} (step : S → E → Option S)

def runFrom : S → List E → Option S
  | s, [] => some s
  | s, e :: es => (step s e).bind fun t => runFrom t es

/-- Every step of the run meets `C` in the state it is taken in. -/
def Meets (C : S → E → Prop) : S → List E → Prop
  | _, [] => True
  | s, e :: es => C s e ∧ ∀ t, step s e = some t → Meets C t es

variable {step}

theorem runFrom_cons_iff {s t : S} {e : E} {es : List E} :
    runFrom step s (e :: es) = some t ↔ ∃ m, step s e = some m ∧ runFrom step m es = some t := by
  rw [runFrom, Option.bind_eq_some_iff]

theorem meets_cons_iff {C : S → E → Prop} {s m : S} {e : E} {es : List E} (hm : step s e = some m) :
    Meets step C s (e :: es) ↔ C s e ∧ Meets step C m es := by
  refine and_congr_right fun _ => ⟨fun hall => hall m hm, fun hmeets m' hm' => ?_⟩
  obtain rfl := Option.some.inj (hm.symm.trans hm')
  exact hmeets

theorem runFrom_append {s m t : S} {es fs : List E} (hes : runFrom step s es = some m)
    (hfs : runFrom step m fs = some t) : runFrom step s (es ++ fs) = some t := by
  induction es generalizing s with
  | nil =>
    obtain rfl := Option.some.inj hes
    exact hfs
  | cons e es ih =>
    obtain ⟨s', hs', hrun⟩ := runFrom_cons_iff.mp hes
    exact runFrom_cons_iff.mpr ⟨s', hs', ih hrun⟩

/-- A run that ends without a failure, found by looking at a part of its last state. -/
theorem exists_ok_of_view {ε σ α : Type} (x : Option (Except ε σ)) (view : σ → α) {a : α}
    (h : (x.bind fun r => r.toOption.map view) = some a) : ∃ s, x = some (.ok s) ∧ view s = a := by
  obtain ⟨r, hx, hr⟩ := Option.bind_eq_some_iff.mp h
  cases r with
  | error failure => cases hr
  | ok s => exact ⟨s, hx, Option.some.inj hr⟩

theorem invariant_of_meets {C : S → E → Prop} {Inv : S → Prop}
    (hstep : ∀ s e t, Inv s → C s e → step s e = some t → Inv t) {s t : S} {es : List E}
    (hmeets : Meets step C s es) (hs : Inv s) (hrun : runFrom step s es = some t) : Inv t := by
  induction es generalizing s with
  | nil =>
    obtain rfl := Option.some.inj hrun
    exact hs
  | cons e es ih =>
    obtain ⟨m, hm, hrest⟩ := runFrom_cons_iff.mp hrun
    exact ih (hmeets.2 m hm) (hstep s e m hs hmeets.1 hm) hrest

instance Meets.decidable {C : S → E → Prop} [∀ s e, Decidable (C s e)] :
    (s : S) → (es : List E) → Decidable (Meets step C s es)
  | _, [] => .isTrue trivial
  | s, e :: es =>
    match h : step s e with
    | none => decidable_of_iff (C s e) (by simp [Meets, h])
    | some t =>
      have : Decidable (Meets step C t es) := Meets.decidable t es
      decidable_of_iff (C s e ∧ Meets step C t es) (by simp [Meets, h])

theorem Meets.mono {C D : S → E → Prop} (h : ∀ s e, C s e → D s e) {s : S} {es : List E}
    (hes : Meets step C s es) : Meets step D s es := by
  induction es generalizing s with
  | nil => trivial
  | cons e es ih => exact ⟨h s e hes.1, fun t ht => ih (hes.2 t ht)⟩

theorem Meets.and {C D : S → E → Prop} {s : S} {es : List E} (hc : Meets step C s es) (hd : Meets step D s es) :
    Meets step (fun s e => C s e ∧ D s e) s es := by
  induction es generalizing s with
  | nil => trivial
  | cons e es ih => exact ⟨⟨hc.1, hd.1⟩, fun t ht => ih (hc.2 t ht) (hd.2 t ht)⟩

theorem Meets.append {C : S → E → Prop} {s m : S} {es fs : List E} (hes : Meets step C s es)
    (hrun : runFrom step s es = some m) (hfs : Meets step C m fs) : Meets step C s (es ++ fs) := by
  induction es generalizing s with
  | nil =>
    obtain rfl := Option.some.inj hrun
    exact hfs
  | cons e es ih =>
    obtain ⟨t, ht, hrest⟩ := runFrom_cons_iff.mp hrun
    exact (meets_cons_iff ht).mpr ⟨hes.1, ih (hes.2 t ht) hrest⟩

theorem meets_true (s : S) (es : List E) : Meets step (fun _ _ => True) s es := by
  induction es generalizing s with
  | nil => trivial
  | cons e es ih => exact ⟨trivial, fun t _ => ih t⟩

theorem invariant_of_run {Inv : S → Prop} (hstep : ∀ s e t, Inv s → step s e = some t → Inv t)
    {s t : S} {es : List E} (hs : Inv s) (hrun : runFrom step s es = some t) : Inv t :=
  invariant_of_meets (fun s e t h _ => hstep s e t h) (meets_true s es) hs hrun

theorem exists_run_of_meets {C : S → E → Prop} {Inv : S → Prop}
    (hstep : ∀ s e, Inv s → C s e → ∃ t, step s e = some t ∧ Inv t) {s : S} {es : List E} (hs : Inv s)
    (hmeets : Meets step C s es) : ∃ t, runFrom step s es = some t ∧ Inv t := by
  induction es generalizing s with
  | nil => exact ⟨s, rfl, hs⟩
  | cons e es ih =>
    obtain ⟨m, hm, hinv⟩ := hstep s e hs hmeets.1
    obtain ⟨t, ht, htinv⟩ := ih hinv (hmeets.2 m hm)
    exact ⟨t, runFrom_cons_iff.mpr ⟨m, hm, ht⟩, htinv⟩

/-- The first step that misses the condition decides: before it the run is good, from it on it is bad.  The steps of
the run all belong to `D`. -/
theorem meets_or_bad_within {C D : S → E → Prop} {Good Bad : S → Prop}
    (hgood : ∀ s e t, Good s → D s e → C s e → step s e = some t → Good t)
    (hbreak : ∀ s e t, Good s → D s e → ¬ C s e → step s e = some t → Bad t)
    (hbad : ∀ s e t, Bad s → D s e → step s e = some t → Bad t) {s t : S} {es : List E} (hs : Good s)
    (hwithin : Meets step D s es) (hrun : runFrom step s es = some t) : Meets step C s es ∧ Good t ∨ Bad t := by
  induction es generalizing s with
  | nil =>
    obtain rfl := Option.some.inj hrun
    exact .inl ⟨trivial, hs⟩
  | cons e es ih =>
    obtain ⟨m, hm, hrest⟩ := runFrom_cons_iff.mp hrun
    obtain ⟨hd, hwithin⟩ := (meets_cons_iff hm).mp hwithin
    by_cases hc : C s e
    · obtain ⟨hmeets, ht⟩ | ht := ih (hgood s e m hs hd hc hm) hwithin hrest
      · exact .inl ⟨(meets_cons_iff hm).mpr ⟨hc, hmeets⟩, ht⟩
      · exact .inr ht
    · exact .inr (invariant_of_meets hbad hwithin (hbreak s e m hs hd hc hm) hrest)

theorem meets_or_bad {C : S → E → Prop} {Good Bad : S → Prop}
    (hgood : ∀ s e t, Good s → C s e → step s e = some t → Good t)
    (hbreak : ∀ s e t, Good s → ¬ C s e → step s e = some t → Bad t)
    (hbad : ∀ s e t, Bad s → step s e = some t → Bad t) {s t : S} {es : List E} (hs : Good s)
    (hrun : runFrom step s es = some t) : Meets step C s es ∧ Good t ∨ Bad t :=
  meets_or_bad_within (fun s e t h _ => hgood s e t h) (fun s e t h _ => hbreak s e t h) (fun s e t h _ => hbad s e t h)
    hs (meets_true s es) hrun

/-- Where the first step that misses the condition breaks the property, the condition holds along a run exactly when the
property holds in every state. -/
theorem meets_iff_forall_of_good {C : S → E → Prop} {Good P : S → Prop} (hP : ∀ s, Good s → P s)
    (hgood : ∀ s e t, Good s → C s e → step s e = some t → Good t)
    (hbreak : ∀ s e t, Good s → ¬ C s e → step s e = some t → ¬ P t) {s t : S} {es : List E} (hs : Good s)
    (hrun : runFrom step s es = some t) :
    Meets step C s es ↔ ∀ es₁ es₂ u, es = es₁ ++ es₂ → runFrom step s es₁ = some u → P u := by
  induction es generalizing s with
  | nil =>
    refine ⟨fun _ es₁ es₂ u hsplit hu => ?_, fun _ => trivial⟩
    obtain ⟨rfl, rfl⟩ := List.append_eq_nil_iff.mp hsplit.symm
    obtain rfl := Option.some.inj hu
    exact hP s hs
  | cons e es ih =>
    obtain ⟨m, hm, hrest⟩ := runFrom_cons_iff.mp hrun
    constructor
    · rintro ⟨hc, hmeets⟩ es₁ es₂ u hsplit hu
      cases es₁ with
      | nil =>
        obtain rfl := Option.some.inj hu
        exact hP s hs
      | cons e₁ es₁ =>
        obtain ⟨rfl, rfl⟩ := List.cons.inj hsplit
        obtain ⟨m', hm', hu'⟩ := runFrom_cons_iff.mp hu
        obtain rfl := Option.some.inj (hm.symm.trans hm')
        exact (ih (hgood s e m hs hc hm) hrest).mp (hmeets m hm) es₁ es₂ u rfl hu'
    · intro hall
      have hc : C s e := by
        by_contra hmiss
        exact hbreak s e m hs hmiss hm (hall [e] es m rfl (runFrom_cons_iff.mpr ⟨m, hm, rfl⟩))
      refine (meets_cons_iff hm).mpr ⟨hc, (ih (hgood s e m hs hc hm) hrest).mpr fun es₁ es₂ u hsplit hu => ?_⟩
      exact hall (e :: es₁) es₂ u (congrArg (e :: ·) hsplit) (runFrom_cons_iff.mpr ⟨m, hm, hu⟩)

/-- Where the condition decides each step, it holds along a run exactly when the property holds in every state. -/
theorem meets_iff_forall_state {C : S → E → Prop} {P : S → Prop}
    (hstep : ∀ s e t, P s → step s e = some t → (C s e ↔ P t)) {s t : S} {es : List E} (hs : P s)
    (hrun : runFrom step s es = some t) :
    Meets step C s es ↔ ∀ es₁ es₂ u, es = es₁ ++ es₂ → runFrom step s es₁ = some u → P u :=
  meets_iff_forall_of_good (fun _ h => h) (fun s e t h hc hm => (hstep s e t h hm).mp hc)
    (fun s e t h hc hm ht => hc ((hstep s e t h hm).mpr ht)) hs hrun

/-- A step that misses the condition may break the property only later, by steps `F` that finish what has begun.  The
condition holds along a run exactly when every way to finish it keeps the property. -/
theorem meets_iff_forall_finished {C F : S → E → Prop} {P Good Bad : S → Prop} (hP : ∀ s, Good s → P s)
    (hgood : ∀ s e t, Good s → C s e → step s e = some t → Good t)
    (hbreak : ∀ s e t, Good s → ¬ C s e → step s e = some t → Bad t)
    (hbad : ∀ s e t, Bad s → step s e = some t → Bad t) (hfinish : ∀ s e, F s e → C s e)
    (hbroken : ∀ s, Bad s → ∃ fs t, Meets step F s fs ∧ runFrom step s fs = some t ∧ ¬ P t) {s t : S} {es : List E}
    (hs : Good s) (hrun : runFrom step s es = some t) :
    Meets step C s es ↔ ∀ fs u, Meets step F t fs → runFrom step t fs = some u → P u := by
  constructor
  · intro hmeets fs u hfs hu
    have ht := invariant_of_meets hgood hmeets hs hrun
    exact hP u (invariant_of_meets hgood (hfs.mono hfinish) ht hu)
  · intro hall
    obtain ⟨hmeets, -⟩ | ht := meets_or_bad hgood hbreak hbad hs hrun
    · exact hmeets
    · obtain ⟨fs, u, hfs, hu, hmiss⟩ := hbroken t ht
      exact absurd (hall fs u hfs hu) hmiss

end Chater.Foundations
