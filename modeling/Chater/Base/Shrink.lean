import Chater.Base.RingBufferRefinement

/-! # Shrinking a buffer

`Shrink(reserve)` moves the unread bytes to the front of a new vector of `reserve` bytes. A buffer shows nothing of
it afterwards: the two buffers store the same queue, and `Append`, `Retrieve`, `RetrieveAsString` and
`RetrieveAll` depend on no more than that, whatever they resize or compact on the way. The copy itself has no check, and
runs over the end of the new vector when more than `reserve` bytes are unread. -/
namespace Chater.Base
open Foundations Memory
set_option autoImplicit false

namespace RingBuffer

/-! ## The call -/

theorem Wf.peek_readable {b : RingBuffer} (h : b.Wf) : (b.peek b.readableBytes).length = b.readableBytes :=
  h.content_length

theorem Holds.shrink {b : RingBuffer} {q : List UInt8} {reserve : ℕ} (h : b.Holds q)
    (hfit : b.readableBytes ≤ reserve) :
    ∃ b', b.shrink reserve = some b' ∧ b'.Holds q := by
  have hlen := h.peek_readable
  have hroom : 0 + (b.peek b.readableBytes).length ≤ (List.replicate reserve (0 : UInt8)).length := by
    rw [List.length_replicate]
    omega
  obtain ⟨mem, hmem, hstored⟩ := store_stored hroom
  refine ⟨⟨mem, 0, b.readableBytes⟩, by rw [RingBuffer.shrink, hmem, Option.map_some], ⟨Nat.zero_le _, ?_⟩, ?_⟩
  · rw [hstored.length_eq, List.length_replicate]
    exact hfit
  · have hblock := hstored.block
    rw [hlen] at hblock
    exact hblock.trans h.content_eq

theorem shrink_overrun {b : RingBuffer} {reserve : ℕ} (h : b.Wf) (hover : reserve < b.readableBytes) :
    b.shrink reserve = none := by
  have hroom : ¬ 0 + (b.peek b.readableBytes).length ≤ (List.replicate reserve (0 : UInt8)).length := by
    rw [h.peek_readable, List.length_replicate]
    omega
  rw [RingBuffer.shrink, store, if_neg hroom, Option.map_none]

/-- The states of a buffer: any sequence of calls whose assertions hold, `Shrink` among them. -/
inductive Reachable : RingBuffer → Prop
  | new (initialSize : ℕ) : Reachable (ofSize initialSize)
  | call {b b' : RingBuffer} {out : List UInt8} (h : Reachable b) (o : Op) (hpre : o.pre b)
      (hexec : o.exec b = some (b', out)) : Reachable b'
  | shrink {b b' : RingBuffer} (h : Reachable b) (reserve : ℕ) (hshrink : b.shrink reserve = some b') : Reachable b'

theorem Reachable.wf {b : RingBuffer} (h : Reachable b) : b.Wf := by
  induction h with
  | new initialSize => exact (ofSize_holds initialSize).toWf
  | call _ o hpre hexec ih =>
    obtain ⟨b₁, hstep, hholds⟩ := interface_refines.step _ _ o ih.holds hpre
    obtain ⟨rfl, -⟩ := Prod.mk.inj (Option.some.inj (hexec.symm.trans hstep))
    exact hholds.toWf
  | shrink _ reserve hshrink ih =>
    rename_i b b' _
    by_cases hfit : b.readableBytes ≤ reserve
    · obtain ⟨b₁, hstep, hholds⟩ := ih.holds.shrink hfit
      obtain rfl := Option.some.inj (hshrink.symm.trans hstep)
      exact hholds.toWf
    · rw [shrink_overrun ih (Nat.lt_of_not_le hfit)] at hshrink
      cases hshrink

/-! ## The calls that follow -/

inductive Call
  | append (data : List UInt8)
  | retrieve (len : ℕ)
  | retrieveAsString (len : ℕ)
  | retrieveAll

def Call.op : Call → Op
  | .append data => .append data
  | .retrieve len => .retrieve len
  | .retrieveAsString len => .retrieveAsString len
  | .retrieveAll => .retrieveAll

def calls : Interface RingBuffer Call (List UInt8) where
  pre b c := c.op.pre b
  exec b c := c.op.exec b

def SameQueue (b b' : RingBuffer) : Prop := ∃ q, b.Holds q ∧ b'.Holds q

/-- The assertions of the four calls are about the number of unread bytes only. -/
theorem exec_of_not_pre {b : RingBuffer} {c : Call} (h : ¬ c.op.pre b) : c.op.exec b = none := by
  cases c with
  | append data => exact absurd trivial h
  | retrieve len =>
    have hlen : ¬ len ≤ b.readableBytes := h
    simp only [Call.op, Op.exec, RingBuffer.retrieve, if_neg hlen, Option.map_none]
  | retrieveAsString len =>
    have hlen : ¬ len ≤ b.readableBytes := h
    simp only [Call.op, Op.exec, RingBuffer.retrieveAsString, if_neg hlen, Option.map_none]
  | retrieveAll => exact absurd trivial h

theorem pre_congr {b b' : RingBuffer} (hread : b.readableBytes = b'.readableBytes) (c : Call) :
    c.op.pre b ↔ c.op.pre b' := by
  cases c with
  | append data => exact Iff.rfl
  | retrieve len => exact iff_of_eq (congrArg (len ≤ ·) hread)
  | retrieveAsString len => exact iff_of_eq (congrArg (len ≤ ·) hread)
  | retrieveAll => exact Iff.rfl

theorem sameQueue_bisimulation : Interface.Bisimulation calls SameQueue where
  step := by
    rintro b b' c ⟨q, hb, hb'⟩
    have hread : b.readableBytes = b'.readableBytes := by rw [hb.readableBytes_eq, hb'.readableBytes_eq]
    show Interface.Alike SameQueue (c.op.exec b) (c.op.exec b')
    by_cases hpre : c.op.pre b
    · obtain ⟨b₁, hexec, hq⟩ := interface_refines.step b q c.op hb hpre
      obtain ⟨b₁', hexec', hq'⟩ := interface_refines.step b' q c.op hb' ((pre_congr hread c).mp hpre)
      replace hexec : c.op.exec b = some (b₁, byteQueue.out q c.op.queueOp) := hexec
      replace hexec' : c.op.exec b' = some (b₁', byteQueue.out q c.op.queueOp) := hexec'
      rw [hexec, hexec']
      exact .ok _ ⟨_, hq, hq'⟩
    · rw [exec_of_not_pre hpre, exec_of_not_pre fun h => hpre ((pre_congr hread c).mpr h)]
      exact .fail

/-! ## Both runs -/

/-- What a caller sees of a sequence of calls: the bytes returned and `ReadableBytes()`, or a failed assertion. -/
def seen (b : RingBuffer) (cs : List Call) : Option (List (List UInt8) × ℕ) :=
  (calls.run b cs).map fun r => (r.2, r.1.readableBytes)

/-- After every sequence of calls the indices of the buffer are in order. -/
def StaysWf (b : RingBuffer) : Prop := ∀ cs r, calls.run b cs = some r → r.1.Wf

def ShrinkInvisible (b : RingBuffer) (reserve : ℕ) : Prop :=
  ∃ b', b.shrink reserve = some b' ∧ (∀ cs, seen b' cs = seen b cs) ∧ StaysWf b' ∧ StaysWf b

theorem seen_eq_of_sameQueue {b b' : RingBuffer} (h : SameQueue b b') (cs : List Call) : seen b cs = seen b' cs := by
  have hrun := sameQueue_bisimulation.run h cs
  unfold seen
  generalize calls.run b cs = x at hrun
  generalize calls.run b' cs = y at hrun
  cases hrun with
  | fail => rfl
  | ok outs hend =>
    obtain ⟨q, hb, hb'⟩ := hend
    rw [Option.map_some, Option.map_some, hb.readableBytes_eq, hb'.readableBytes_eq]

theorem staysWf_of_holds {b : RingBuffer} {q : List UInt8} (h : b.Holds q) : StaysWf b := by
  intro cs r hr
  have hrun := sameQueue_bisimulation.run ⟨q, h, h⟩ cs
  rw [hr] at hrun
  cases hrun with
  | ok outs hend =>
    obtain ⟨q', hend, -⟩ := hend
    exact hend.toWf

/-- **`Shrink` is invisible exactly when the unread bytes fit.** -/
theorem shrinkInvisible_iff_fits {b : RingBuffer} (h : Reachable b) (reserve : ℕ) :
    ShrinkInvisible b reserve ↔ b.readableBytes ≤ reserve := by
  constructor
  · rintro ⟨b', hshrink, -⟩
    by_contra hover
    rw [shrink_overrun h.wf (Nat.lt_of_not_le hover)] at hshrink
    cases hshrink
  · intro hfit
    obtain ⟨b', hshrink, hholds⟩ := h.wf.holds.shrink hfit
    exact ⟨b', hshrink, seen_eq_of_sameQueue ⟨_, hholds, h.wf.holds⟩, staysWf_of_holds hholds,
      staysWf_of_holds h.wf.holds⟩

/-- Three bytes in a buffer of four. -/
def threeUnread : RingBuffer := ⟨[1, 2, 3, 0], 0, 3⟩

theorem threeUnread_reachable : Reachable threeUnread :=
  .call (.new 4) (.append [1, 2, 3]) trivial (show _ = some (threeUnread, []) by decide)

theorem shrinkInvisible_threeUnread : ShrinkInvisible threeUnread 3 :=
  (shrinkInvisible_iff_fits threeUnread_reachable 3).mpr (by decide)

/-- `Shrink(0)` with unread bytes: the copy leaves the new vector. -/
theorem not_shrinkInvisible_threeUnread :
    Reachable threeUnread ∧ threeUnread.shrink 0 = none ∧ ¬ ShrinkInvisible threeUnread 0 := by
  have hover : threeUnread.shrink 0 = none := by decide
  refine ⟨threeUnread_reachable, hover, ?_⟩
  rintro ⟨b', hshrink, -⟩
  rw [hover] at hshrink
  cases hshrink

end RingBuffer
end Chater.Base
