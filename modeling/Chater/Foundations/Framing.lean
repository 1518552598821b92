import Mathlib.Tactic

/-! # Incremental decoding of a framed stream

A `Decoder` looks at the unread cells of a stream and asks for more, rejects them, or recognises an
item that occupies the first `n` of them. Its laws say that a verdict other than `more` does not
change when further cells arrive. `Walk` is the decoding loop as a relation, so that a decoder whose
items may be empty, and whose loop may therefore not end, is covered too.

Results: decoding is deterministic (`Walk.unique`), the place where a stream is cut does not matter
(`Walk.extend`), the loop ends when every item met is non-empty (`exists_stuck`), and it does not end
once an empty item is met (`Walk.no_empty`). -/
namespace Chater.Framing
set_option autoImplicit false

inductive Verdict (β : Type)
  | more
  | reject
  | item (x : β) (n : ℕ)
deriving DecidableEq

structure Decoder (α β : Type) where
  verdict : List α → Verdict β
  item_le : ∀ xs x n, verdict xs = .item x n → n ≤ xs.length
  item_append : ∀ xs ys x n, verdict xs = .item x n → verdict (xs ++ ys) = .item x n
  reject_append : ∀ xs ys, verdict xs = .reject → verdict (xs ++ ys) = .reject

variable {α β : Type} (D : Decoder α β)

/-- `Walk D xs items rest`: starting on the unread cells `xs` the loop recognises `items`, one after
the other, and then has `rest` unread. -/
inductive Walk : List α → List β → List α → Prop
  | nil (xs : List α) : Walk xs [] xs
  | cons {xs rest : List α} {x : β} {n : ℕ} {items : List β} (h : D.verdict xs = .item x n)
      (w : Walk (xs.drop n) items rest) : Walk xs (x :: items) rest

def Stuck (xs : List α) : Prop := ∀ x n, D.verdict xs ≠ .item x n

variable {D}

theorem stuck_of_more {xs : List α} (h : D.verdict xs = .more) : Stuck D xs := by
  intro x n hx
  rw [h] at hx
  cases hx

theorem stuck_of_reject {xs : List α} (h : D.verdict xs = .reject) : Stuck D xs := by
  intro x n hx
  rw [h] at hx
  cases hx

theorem stuck_iff {xs : List α} : Stuck D xs ↔ D.verdict xs = .more ∨ D.verdict xs = .reject := by
  constructor
  · intro h
    cases hv : D.verdict xs with
    | more => exact .inl rfl
    | reject => exact .inr rfl
    | item x n => exact absurd hv (h x n)
  · rintro (h | h)
    · exact stuck_of_more h
    · exact stuck_of_reject h

/-! ## Composition and cuts -/

theorem Walk.trans {xs ys zs : List α} {a b : List β} (h1 : Walk D xs a ys) (h2 : Walk D ys b zs) :
    Walk D xs (a ++ b) zs := by
  induction h1 with
  | nil => exact h2
  | cons h _ ih => exact .cons h (ih h2)

theorem Walk.single {xs : List α} {x : β} {n : ℕ} (h : D.verdict xs = .item x n) : Walk D xs [x] (xs.drop n) :=
  .cons h (.nil _)

/-- Cells that arrive later do not change what was recognised before. -/
theorem Walk.append {xs rest : List α} {items : List β} (h : Walk D xs items rest) (ys : List α) :
    Walk D (xs ++ ys) items (rest ++ ys) := by
  induction h with
  | nil xs => exact .nil _
  | cons hv _ ih =>
    refine .cons (D.item_append _ ys _ _ hv) ?_
    rw [List.drop_append_of_le_length (D.item_le _ _ _ hv)]
    exact ih

theorem Walk.extend {xs ys rest rest' : List α} {a b : List β} (h1 : Walk D xs a rest)
    (h2 : Walk D (rest ++ ys) b rest') : Walk D (xs ++ ys) (a ++ b) rest' :=
  (h1.append ys).trans h2

theorem Walk.congr {E : Decoder α β} {xs rest : List α} {items : List β} (h : Walk D xs items rest)
    (heq : ∀ a r, Walk D xs a r → E.verdict r = D.verdict r) : Walk E xs items rest := by
  induction h with
  | nil xs => exact .nil xs
  | cons hv _ ih =>
    refine .cons ((heq [] _ (.nil _)).trans hv) (ih ?_)
    intro a r hr
    exact heq _ r (.cons hv hr)

/-! ## Determinism -/

theorem Walk.unique {xs r s : List α} {a b : List β} (h1 : Walk D xs a r) (hr : Stuck D r)
    (h2 : Walk D xs b s) (hs : Stuck D s) : a = b ∧ r = s := by
  induction h1 generalizing b with
  | nil xs =>
    cases h2 with
    | nil => exact ⟨rfl, rfl⟩
    | cons hv _ => exact absurd hv (hr _ _)
  | cons hv _ ih =>
    cases h2 with
    | nil => exact absurd hv (hs _ _)
    | cons hv' w =>
      obtain ⟨rfl, rfl⟩ := Verdict.item.inj (hv.symm.trans hv')
      obtain ⟨rfl, rfl⟩ := ih hr w
      exact ⟨rfl, rfl⟩

theorem Walk.continue {xs r s : List α} {a b : List β} (h1 : Walk D xs a r) (h2 : Walk D xs b s)
    (hs : Stuck D s) : ∃ c, Walk D r c s ∧ b = a ++ c := by
  induction h1 generalizing b with
  | nil xs => exact ⟨b, h2, rfl⟩
  | cons hv _ ih =>
    cases h2 with
    | nil => exact absurd hv (hs _ _)
    | cons hv' w =>
      obtain ⟨rfl, rfl⟩ := Verdict.item.inj (hv.symm.trans hv')
      obtain ⟨c, hc, rfl⟩ := ih w
      exact ⟨c, hc, rfl⟩

theorem Walk.mem_of_item {xs r s : List α} {a b : List β} {x : β} {n : ℕ} (h1 : Walk D xs a r)
    (hv : D.verdict r = .item x n) (h2 : Walk D xs b s) (hs : Stuck D s) : x ∈ b := by
  obtain ⟨c, hc, rfl⟩ := h1.continue h2 hs
  cases hc with
  | nil => exact absurd hv (hs _ _)
  | cons hv' _ =>
    obtain ⟨rfl, -⟩ := Verdict.item.inj (hv.symm.trans hv')
    exact List.mem_append_right _ (List.mem_cons_self ..)

/-! ## Termination -/

theorem exists_stuck (xs : List α)
    (hpos : ∀ items rest, Walk D xs items rest → ∀ x n, D.verdict rest = .item x n → 0 < n) :
    ∃ items rest, Walk D xs items rest ∧ Stuck D rest := by
  -- strong induction on the number of unread cells
  induction hk : xs.length using Nat.strong_induction_on generalizing xs with
  | _ k ih =>
    cases hv : D.verdict xs with
    | more => exact ⟨[], xs, .nil xs, stuck_of_more hv⟩
    | reject => exact ⟨[], xs, .nil xs, stuck_of_reject hv⟩
    | item x n =>
      have hn := hpos [] xs (.nil xs) x n hv
      have hle := D.item_le xs x n hv
      obtain ⟨items, rest, hw, hs⟩ := ih (xs.drop n).length (by rw [List.length_drop]; omega) (xs.drop n)
        (fun items rest hw => hpos (x :: items) rest (.cons hv hw)) rfl
      exact ⟨x :: items, rest, .cons hv hw, hs⟩

theorem Walk.no_empty {xs r s : List α} {a b : List β} {x : β} (h1 : Walk D xs a r) (hr : Stuck D r)
    (h2 : Walk D xs b s) : D.verdict s ≠ .item x 0 := by
  intro hv
  obtain ⟨c, hc, -⟩ := h2.continue h1 hr
  clear h1 h2
  -- the walk from `s` repeats its first step forever, so it has no last step
  induction c generalizing s with
  | nil =>
    cases hc
    exact hr _ _ hv
  | cons y c ih =>
    cases hc with
    | cons hv' w =>
      obtain ⟨rfl, rfl⟩ := Verdict.item.inj (hv.symm.trans hv')
      exact ih hv w

theorem Walk.length_add_le {xs rest : List α} {items : List β} (h : Walk D xs items rest)
    (hpos : ∀ a r, Walk D xs a r → ∀ x n, D.verdict r = .item x n → 0 < n) :
    items.length + rest.length ≤ xs.length := by
  induction h with
  | nil => simp
  | @cons xs rest x n items hv _ ih =>
    have hn := hpos [] xs (.nil xs) x n hv
    have hle := D.item_le xs x n hv
    have := ih (fun a r hw => hpos (x :: a) r (.cons hv hw))
    rw [List.length_drop] at this
    rw [List.length_cons]
    omega

end Chater.Framing
