import Chater.Net.StepClosure
import Mathlib.Data.Set.Card
import Mathlib.Logic.Relation

/-!
# The connections are spread over the IO loops

`GetNextLoop` deals the new connections out to the IO loops in turn.  `next_` is only moved by an accept, whatever else
the loops and the other threads do, and a connection stays on the loop it was given; so no IO loop ever gets more than
one connection ahead of another.
-/

namespace Chater.Net.NetLayer

open Base Foundations

set_option autoImplicit false

variable {cfg : Config} {n : ℕ} {s t : NetLayer} {fd loop : ℕ} {c : Conn}

/-- The connections that the loop has been given. -/
def given (s : NetLayer) (loop : ℕ) : Set ℕ := {fd | s.loopOf fd = some loop}

/-- The updates of a step leave the deal and the descriptors as they are, except for the connection that is dealt next
and the descriptor that is opened for it. -/
inductive Deals (n : ℕ) (s t : NetLayer) : Prop
  | same (hnext : t.next = s.next) (hloopOf : t.loopOf = s.loopOf) (hopenFds : t.openFds = s.openFds)
  | deal (fd : ℕ) (hfresh : s.loopOf fd = none) (hnext : t.next = (getNextLoop n s.next).2)
      (hloopOf : t.loopOf = Function.update s.loopOf fd (some (getNextLoop n s.next).1)) (hclosed : fd ∉ s.openFds)
      (hopenFds : t.openFds = fd :: s.openFds)

theorem loopOf_of_conns_eq (h : t.conns = s.conns) : t.loopOf = s.loopOf := by
  funext fd
  rw [loopOf, loopOf, h]

theorem loopOf_addConn (s : NetLayer) (next fd : ℕ) (c : Conn) :
    (s.addConn next fd c).loopOf = Function.update s.loopOf fd (some c.loop) := by
  funext j
  by_cases hj : j = fd
  · rw [hj, Function.update_self]
    exact loopOf_of_conns (Function.update_self ..)
  · rw [Function.update_of_ne hj]
    exact congrArg _ (Function.update_of_ne hj ..)

theorem deals_closed (n thread : ℕ) : Closed n thread (Relation.ReflTransGen (Deals n)) where
  refl _ := .refl
  trans := .trans
  server hconns _ hnext hopenFds := .single (.same hnext (loopOf_of_conns_eq hconns) hopenFds)
  own _ _ := .single (.same rfl rfl rfl)
  queueInLoop _ _ _ := .single (.same rfl rfl rfl)
  setPoller _ _ _ := .single (.same rfl rfl rfl)
  modifyConn s fd _ hf := .single (.same rfl (loopOf_modifyConn s fd fun c => (hf c).loop) rfl)
  addConn := by
    intro s fd c hfresh hclosed hloop
    refine .single (.deal fd ?_ rfl ?_ hclosed rfl)
    · rw [loopOf, hfresh]
      rfl
    · rw [loopOf_addConn, hloop]
      rfl

/-! ## Rounds of the deal -/

/-- The deal is in a round: the loops before `next_` have one connection more than the others. -/
structure InTurn (n : ℕ) (s : NetLayer) : Prop where
  next_lt : s.next < n
  io : ∀ fd loop, s.loopOf fd = some loop → 1 ≤ loop ∧ loop ≤ n
  rounds : ∃ q : ℕ, ∀ i < n, (s.given (i + 1)).encard = (if i < s.next then q + 1 else q : ℕ)

theorem given_update_self (hloopOf : t.loopOf = Function.update s.loopOf fd (some loop)) :
    t.given loop = insert fd (s.given loop) := by
  ext j
  change t.loopOf j = some loop ↔ j = fd ∨ s.loopOf j = some loop
  rw [hloopOf]
  by_cases hj : j = fd
  · rw [hj, Function.update_self]
    exact iff_of_true rfl (.inl rfl)
  · rw [Function.update_of_ne hj, or_iff_right hj]

theorem given_update_of_ne (hfresh : s.loopOf fd = none)
    (hloopOf : t.loopOf = Function.update s.loopOf fd (some loop)) {other : ℕ} (hne : other ≠ loop) :
    t.given other = s.given other := by
  ext j
  change t.loopOf j = some other ↔ s.loopOf j = some other
  rw [hloopOf]
  by_cases hj : j = fd
  · rw [hj, Function.update_self, hfresh]
    refine iff_of_false (fun h => hne (Option.some.inj h).symm) fun h => ?_
    cases h
  · rw [Function.update_of_ne hj]

/-- The loop that is dealt to is the next of the round, and after the last one a new round begins. -/
theorem InTurn.deal (h : InTurn n s) (hfresh : s.loopOf fd = none) (hnext : t.next = (getNextLoop n s.next).2)
    (hloopOf : t.loopOf = Function.update s.loopOf fd (some (getNextLoop n s.next).1)) : InTurn n t := by
  obtain ⟨hlt, hio, q, hq⟩ := h
  have hn : n ≠ 0 := by omega
  simp only [getNextLoop, if_neg hn] at hnext hloopOf
  have hfd : fd ∉ s.given (s.next + 1) := by
    intro hmem
    cases hfresh.symm.trans hmem
  have hdealt : (t.given (s.next + 1)).encard = (q + 1 : ℕ) := by
    have hcount := hq s.next hlt
    rw [if_neg (lt_irrefl _)] at hcount
    rw [given_update_self hloopOf, Set.encard_insert_of_notMem hfd, hcount]
    rfl
  have hother : ∀ i < n, i ≠ s.next → (t.given (i + 1)).encard = (if i < s.next then q + 1 else q : ℕ) := by
    intro i hi hne
    rw [given_update_of_ne hfresh hloopOf (by omega)]
    exact hq i hi
  refine ⟨?_, fun j l hj => ?_, ?_⟩
  · rw [hnext]
    split_ifs <;> omega
  · by_cases hjfd : j = fd
    · rw [hloopOf, hjfd, Function.update_self, Option.some.injEq] at hj
      omega
    · rw [hloopOf, Function.update_of_ne hjfd] at hj
      exact hio j l hj
  · by_cases hlast : s.next + 1 ≥ n
    · -- the round is complete
      refine ⟨q + 1, fun i hi => ?_⟩
      rw [hnext, if_pos hlast, if_neg (Nat.not_lt_zero i)]
      by_cases hi' : i = s.next
      · rw [hi', hdealt]
      · rw [hother i hi hi', if_pos (by omega)]
    · refine ⟨q, fun i hi => ?_⟩
      rw [hnext, if_neg hlast]
      by_cases hi' : i = s.next
      · rw [hi', hdealt, if_pos (by omega)]
      · rw [hother i hi hi']
        congr 2
        apply propext
        omega

theorem InTurn.same (h : InTurn n s) (hnext : t.next = s.next) (hloopOf : t.loopOf = s.loopOf) : InTurn n t := by
  obtain ⟨hlt, hio, q, hq⟩ := h
  refine ⟨hnext ▸ hlt, hloopOf ▸ hio, q, fun i hi => ?_⟩
  rw [hnext, given, hloopOf]
  exact hq i hi

theorem InTurn.deals (h : InTurn n s) (hdeals : Relation.ReflTransGen (Deals n) s t) : InTurn n t := by
  induction hdeals with
  | refl => exact h
  | tail _ hlast ih =>
    cases hlast with
    | same hnext hloopOf => exact ih.same hnext hloopOf
    | deal fd hfresh hnext hloopOf => exact ih.deal hfresh hnext hloopOf

theorem start_inTurn (hn : 0 < n) (cfg : Config) : InTurn n (start cfg n) := by
  refine ⟨hn, fun fd loop h => ?_, 0, fun i _ => ?_⟩
  · cases h
  · have hempty : (start cfg n).given (i + 1) = ∅ := by
      ext fd
      refine iff_of_false (fun h => ?_) (Set.notMem_empty fd)
      cases h
    rw [hempty, Set.encard_empty]
    exact congrArg Nat.cast (if_neg (Nat.not_lt_zero i)).symm

/-- **The IO loops share the connections evenly.**  In every run, whatever the threads do in between and however
connections come and go, there is a number such that every IO loop has been given that many connections or one more,
and the base loop has been given none. -/
theorem connections_balanced {es : List Event} (hn : 0 < n)
    (hrun : runFrom (step cfg n) (.ok (start cfg n)) es = some (.ok s)) :
    (∀ fd loop, s.loopOf fd = some loop → 1 ≤ loop ∧ loop ≤ n) ∧
      ∃ q : ℕ, ∀ loop, 1 ≤ loop → loop ≤ n → (s.given loop).encard = q ∨ (s.given loop).encard = (q + 1 : ℕ) := by
  have hkeep : ∀ x e y, (∀ s, x = .ok s → Affine cfg n s ∧ InTurn n s) → step cfg n x e = some y →
      ∀ s, y = .ok s → Affine cfg n s ∧ InTurn n s := by
    rintro x e y hx hy t rfl
    cases x with
    | error failure => cases hy
    | ok s =>
      obtain ⟨haffine, hturn⟩ := hx s rfl
      exact ⟨haffine.act hy, hturn.deals (Closed.act (deals_closed n) (fun _ => haffine.fresh) hy)⟩
  have hstart : ∀ s, (.ok (start cfg n) : Except Failure NetLayer) = .ok s → Affine cfg n s ∧ InTurn n s := by
    intro s hs
    obtain rfl := Except.ok.inj hs
    exact ⟨(start_keeps cfg n).1, start_inTurn hn cfg⟩
  obtain ⟨-, -, hio, q, hq⟩ := invariant_of_run hkeep hstart hrun s rfl
  refine ⟨hio, q, fun loop hlow hhigh => ?_⟩
  obtain ⟨i, rfl⟩ : ∃ i, loop = i + 1 := ⟨loop - 1, by omega⟩
  have hcount := hq i (by omega)
  split_ifs at hcount
  · exact .inr hcount
  · exact .inl hcount

/-- Two IO loops and three clients: descriptor 8 is established while 9 is still to be accepted. -/
def threeClients : List Event :=
  let accept (fd : ℕ) : List Event := [.poll 0 [(3, EPOLLIN)], .handle 0 ⟨some fd, .bytes [], .wrote 0, id⟩,
    .handle 0 ⟨none, .bytes [], .wrote 0, id⟩, .doPendingFunctors 0, .endFunctors 0]
  [.start] ++ accept 7 ++ accept 8 ++ [.poll 2 [], .doPendingFunctors 2, .run 2 (.wrote 0)] ++ accept 9

theorem threeClients_balanced :
    ∃ s, runFrom (step sampleConfig 2) (.ok (start sampleConfig 2)) threeClients = some (.ok s) ∧
      (s.loopOf 7 = some 1 ∧ s.loopOf 8 = some 2 ∧ s.loopOf 9 = some 1) ∧
      ∃ q : ℕ, ∀ loop, 1 ≤ loop → loop ≤ 2 → (s.given loop).encard = q ∨ (s.given loop).encard = (q + 1 : ℕ) := by
  have hend : ((runFrom (step sampleConfig 2) (.ok (start sampleConfig 2)) threeClients).bind fun r =>
      r.toOption.map fun s => decide (s.loopOf 7 = some 1 ∧ s.loopOf 8 = some 2 ∧ s.loopOf 9 = some 1)) =
        some true := by decide +kernel
  obtain ⟨s, hrun, hs⟩ := exists_ok_of_view _ _ hend
  exact ⟨s, hrun, of_decide_eq_true hs, (connections_balanced (by decide) hrun).2⟩

end Chater.Net.NetLayer
