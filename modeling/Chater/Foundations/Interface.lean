import Mathlib.Tactic

/-! # Interfaces with preconditions, and their refinement

An `Interface` is a set of operations on a state: each has a precondition, may fail (`none`: an
assertion or a memory error) and returns an observation. `Admissible` says that every operation of a
sequence is called within its precondition, in the state it is called in. `Refines` is a forward
simulation by a total abstract machine; `Refines.run` lifts it to whole sequences, which then neither
fail nor show anything the abstract machine does not. `Bisimulation` compares two states of one
interface, also on calls outside the preconditions; `Bisimulation.run` lifts it in the same way. -/
namespace Chater.Foundations
set_option autoImplicit false

structure Interface (S O R : Type) where
  pre : S → O → Prop
  exec : S → O → Option (S × R)

structure Spec (A O R : Type) where
  next : A → O → A
  out : A → O → R

namespace Spec
variable {A O R : Type}

def run (P : Spec A O R) : A → List O → A × List R
  | a, [] => (a, [])
  | a, o :: os => ((P.run (P.next a o) os).1, P.out a o :: (P.run (P.next a o) os).2)

end Spec

namespace Interface
variable {S O R A : Type}

def run (I : Interface S O R) : S → List O → Option (S × List R)
  | s, [] => some (s, [])
  | s, o :: os => do
    let (s', r) ← I.exec s o
    let (t, rs) ← I.run s' os
    some (t, r :: rs)

def Admissible (I : Interface S O R) : S → List O → Prop
  | _, [] => True
  | s, o :: os => I.pre s o ∧ ∀ s' r, I.exec s o = some (s', r) → I.Admissible s' os

theorem Admissible.of_append {I : Interface S O R} {s : S} {os os' : List O}
    (h : I.Admissible s (os ++ os')) : I.Admissible s os := by
  induction os generalizing s with
  | nil => trivial
  | cons o os ih => exact ⟨h.1, fun s' r hs => ih (h.2 s' r hs)⟩

/-- Forward simulation: within its precondition an operation succeeds, returns what the abstract
operation `op o` returns and leads to related states. -/
structure Refines {O' : Type} (I : Interface S O R) (P : Spec A O' R) (op : O → O') (rel : S → A → Prop) : Prop where
  step : ∀ s a o, rel s a → I.pre s o →
    ∃ s', I.exec s o = some (s', P.out a (op o)) ∧ rel s' (P.next a (op o))

theorem Refines.run {O' : Type} {I : Interface S O R} {P : Spec A O' R} {op : O → O'} {rel : S → A → Prop}
    (h : Refines I P op rel) {s : S} {a : A} {os : List O} (hrel : rel s a) (hadm : I.Admissible s os) :
    ∃ s', I.run s os = some (s', (P.run a (os.map op)).2) ∧ rel s' (P.run a (os.map op)).1 := by
  induction os generalizing s a with
  | nil => exact ⟨s, rfl, hrel⟩
  | cons o os ih =>
    obtain ⟨s1, h1, hrel1⟩ := h.step s a o hrel hadm.1
    obtain ⟨s2, h2, hrel2⟩ := ih hrel1 (hadm.2 s1 _ h1)
    exact ⟨s2, by simp [Interface.run, h1, h2, Spec.run], hrel2⟩

/-! ## Two states that behave alike -/

/-- Each of two computations fails, or both return the same and lead to related states. -/
inductive Alike {R' : Type} (rel : S → S → Prop) : Option (S × R') → Option (S × R') → Prop
  | fail : Alike rel none none
  | ok {s t : S} (r : R') (h : rel s t) : Alike rel (some (s, r)) (some (t, r))

structure Bisimulation (I : Interface S O R) (rel : S → S → Prop) : Prop where
  step : ∀ s t o, rel s t → Alike rel (I.exec s o) (I.exec t o)

theorem Bisimulation.run {I : Interface S O R} {rel : S → S → Prop} (h : Bisimulation I rel) {s t : S}
    (hrel : rel s t) (os : List O) : Alike rel (I.run s os) (I.run t os) := by
  induction os generalizing s t with
  | nil => exact .ok [] hrel
  | cons o os ih =>
    have hstep := h.step s t o hrel
    simp only [Interface.run]
    generalize I.exec s o = x at hstep
    generalize I.exec t o = y at hstep
    cases hstep with
    | fail => exact .fail
    | ok r hrel' =>
      rename_i s' t'
      have hrest := ih hrel'
      simp only [Option.bind_eq_bind, Option.bind_some]
      generalize I.run s' os = x at hrest
      generalize I.run t' os = y at hrest
      cases hrest with
      | fail => exact .fail
      | ok rs hend => exact .ok (r :: rs) hend

end Interface
end Chater.Foundations
