import Chater.Foundations.Transition
import Mathlib.Logic.Function.Iterate

/-!
# A counter that threads increment without a lock

Each increment is a load and a store, between which other threads may go, and gives the thread the value it has stored.
When no thread loads while another is between its load and its store, the values given are those that follow the first
one, in order.  When one does, both threads are given the same value.
-/

namespace Chater.Foundations

set_option autoImplicit false

universe u v w

/-- `loaded t` is the value that thread `t` has read and not yet incremented, and `given` are the values that
increments have returned, in the order of their stores. -/
structure Counter (T : Type u) (V : Type v) where
  value : V
  loaded : T → Option V
  given : List V

namespace Counter

inductive Op (T : Type u)
  | load (t : T)
  | store (t : T)

variable {T : Type u} {V : Type v}

def start (first : V) : Counter T V := ⟨first, fun _ => none, []⟩

/-- No thread is in an increment. -/
def Quiet (c : Counter T V) : Prop := ∀ t, c.loaded t = none

variable [DecidableEq T] (next : V → V)

def apply (c : Counter T V) : Op T → Option (Counter T V)
  | .load t =>
    match c.loaded t with
    | none => some { c with loaded := Function.update c.loaded t (some c.value) }
    | some _ => none
  | .store t =>
    (c.loaded t).map fun v => ⟨next v, Function.update c.loaded t none, c.given ++ [next v]⟩

/-- The first `n` values after `first`. -/
def following (first : V) (n : ℕ) : List V := (List.range n).map fun i => next^[i + 1] first

variable {next} {c c' : Counter T V} {t : T} {first : V}

omit [DecidableEq T] in
theorem following_succ (n : ℕ) : following next first (n + 1) = following next first n ++ [next^[n + 1] first] := by
  simp [following, List.range_succ]

theorem load_spec (h : c.apply next (.load t) = some c') :
    c.loaded t = none ∧ c' = { c with loaded := Function.update c.loaded t (some c.value) } := by
  simp only [apply] at h
  split at h
  · rename_i hnone
    exact ⟨hnone, (Option.some.inj h).symm⟩
  · cases h

theorem store_spec (h : c.apply next (.store t) = some c') :
    ∃ v, c.loaded t = some v ∧ c' = ⟨next v, Function.update c.loaded t none, c.given ++ [next v]⟩ := by
  obtain ⟨v, hv, rfl⟩ := Option.map_eq_some_iff.mp h
  exact ⟨v, hv, rfl⟩

/-! ## One increment at a time -/

structure InTurn (next : V → V) (first : V) (c : Counter T V) : Prop where
  given : c.given = following next first c.given.length
  value : c.value = next^[c.given.length] first
  current : ∀ t v, c.loaded t = some v → v = c.value
  single : ∀ t u, (c.loaded t).isSome → (c.loaded u).isSome → t = u

theorem InTurn.load (h : c.InTurn next first) (hquiet : c.Quiet) (hload : c.apply next (.load t) = some c') :
    c'.InTurn next first := by
  obtain ⟨-, rfl⟩ := load_spec hload
  have honly : ∀ u, (Function.update c.loaded t (some c.value) u).isSome → u = t := by
    intro u hu
    by_contra hne
    rw [Function.update_of_ne hne, hquiet u] at hu
    cases hu
  refine ⟨h.given, h.value, fun u v hu => ?_, fun u w hu hw => (honly u hu).trans (honly w hw).symm⟩
  have hut : u = t := honly u (Option.isSome_iff_exists.mpr ⟨v, hu⟩)
  have hu : Function.update c.loaded t (some c.value) u = some v := hu
  rw [hut, Function.update_self] at hu
  exact (Option.some.inj hu).symm

theorem InTurn.store (h : c.InTurn next first) (hstore : c.apply next (.store t) = some c') :
    c'.InTurn next first := by
  obtain ⟨v, hv, rfl⟩ := store_spec hstore
  have hnext : next v = next^[c.given.length + 1] first := by
    rw [h.current t v hv, h.value, Function.iterate_succ_apply']
  have hquiet : ∀ u, Function.update c.loaded t none u = none := by
    intro u
    by_cases hne : u = t
    · rw [hne, Function.update_self]
    · rw [Function.update_of_ne hne]
      by_contra hu
      exact hne (h.single u t (Option.isSome_iff_ne_none.mpr hu) (by simp [hv]))
  refine ⟨?_, ?_, fun u w hu => ?_, fun u w hu _ => ?_⟩
  · rw [List.length_append, List.length_singleton, following_succ, ← h.given, hnext]
  · rw [List.length_append, List.length_singleton, hnext]
  · cases (hquiet u).symm.trans hu
  · rw [show Counter.loaded _ u = none from hquiet u] at hu
    cases hu

/-! ## Two increments at once -/

/-- A value has been given twice or is going to be. -/
def Clash (next : V → V) (c : Counter T V) : Prop :=
  ¬ c.given.Nodup ∨ (∃ t v, c.loaded t = some v ∧ next v ∈ c.given) ∨
    ∃ t u v, t ≠ u ∧ c.loaded t = some v ∧ c.loaded u = some v

theorem Clash.load (h : c.Clash next) (hload : c.apply next (.load t) = some c') : c'.Clash next := by
  obtain ⟨hnone, rfl⟩ := load_spec hload
  have hkeep : ∀ u v, c.loaded u = some v → Function.update c.loaded t (some c.value) u = some v := by
    intro u v hu
    have hne : u ≠ t := fun heq => by rw [heq, hnone] at hu; cases hu
    rw [Function.update_of_ne hne, hu]
  obtain hdup | ⟨u, v, hu, hmem⟩ | ⟨u, w, v, hne, hu, hw⟩ := h
  · exact .inl hdup
  · exact .inr (.inl ⟨u, v, hkeep u v hu, hmem⟩)
  · exact .inr (.inr ⟨u, w, v, hne, hkeep u v hu, hkeep w v hw⟩)

theorem Clash.store (h : c.Clash next) (hstore : c.apply next (.store t) = some c') : c'.Clash next := by
  obtain ⟨x, hx, rfl⟩ := store_spec hstore
  have hnew : next x ∈ c.given ++ [next x] := List.mem_append_right _ (List.mem_singleton_self _)
  have hkeep : ∀ u v, u ≠ t → c.loaded u = some v → Function.update c.loaded t none u = some v := by
    intro u v hne hu
    rw [Function.update_of_ne hne, hu]
  obtain hdup | ⟨u, v, hu, hmem⟩ | ⟨u, w, v, hne, hu, hw⟩ := h
  · exact .inl fun hnodup => hdup (List.nodup_append.mp hnodup).1
  · by_cases hut : u = t
    · rw [hut, hx] at hu
      obtain rfl := Option.some.inj hu
      exact .inl fun hnodup => (List.nodup_append.mp hnodup).2.2 _ hmem _ (List.mem_singleton_self _) rfl
    · exact .inr (.inl ⟨u, v, hkeep u v hut hu, List.mem_append_left _ hmem⟩)
  -- whichever of the two stores, the other is left with a value that has been given
  · by_cases hut : u = t
    · rw [hut, hx] at hu
      obtain rfl := Option.some.inj hu
      exact .inr (.inl ⟨w, x, hkeep w x (hut ▸ hne.symm) hw, hnew⟩)
    · by_cases hwt : w = t
      · rw [hwt, hx] at hw
        obtain rfl := Option.some.inj hw
        exact .inr (.inl ⟨u, x, hkeep u x hut hu, hnew⟩)
      · exact .inr (.inr ⟨u, w, v, hne, hkeep u v hut hu, hkeep w v hwt hw⟩)

section Systems

variable {S : Type w} {E : Type w} (view : S → Counter T V) (opOf : E → Option (Op T))

variable {view opOf} {step : S → E → Option S} {s₀ s : S} {es : List E}

end Systems

end Counter
end Chater.Foundations
