import Chater.Foundations.Interface
import Chater.Base.RingBuffer

/-! # The buffer refines a byte queue

`ByteQueue.spec` says what a connection buffer is for: bytes are pushed and dropped at either end.
`RingBuffer.interface` collects the public operations of `RingBuffer` with the preconditions their
own assertions state. The refinement holds from any initial size, over every admissible sequence of
calls, whatever resizing, compaction and index resets happen underneath. -/
namespace Chater.Base
open Foundations
set_option autoImplicit false

/-! ## The abstract queue -/

inductive QueueOp
  | pushBack (bytes : List UInt8)
  | pushFront (bytes : List UInt8)
  | dropFront (n : ℕ)
  | takeFront (n : ℕ)
  | dropBack (n : ℕ)
  | clear
  | skip

def byteQueue : Spec (List UInt8) QueueOp (List UInt8) where
  next
    | q, .pushBack bytes => q ++ bytes
    | q, .pushFront bytes => bytes ++ q
    | q, .dropFront n => q.drop n
    | q, .takeFront n => q.drop n
    | q, .dropBack n => q.take (q.length - n)
    | _, .clear => []
    | q, .skip => q
  out
    | q, .takeFront n => q.take n
    | _, _ => []

namespace RingBuffer

/-- A call of a public operation. The pointer given to `RetrieveUntil` is its distance from `Peek()`;
`hasWritten stored len` is a store of `stored` at `BeginWrite()` followed by `HasWritten(len)`; `readFd`
carries what `::readv` returned. -/
inductive Op
  | append (data : List UInt8)
  | retrieve (len : ℕ)
  | retrieveUntil (ofs : ℕ)
  | retrieveAll
  | retrieveAsString (len : ℕ)
  | ensureWritableBytes (len : ℕ)
  | hasWritten (stored : List UInt8) (len : ℕ)
  | unwrite (len : ℕ)
  | prepend (data : List UInt8)
  | readFd (res : ReadvResult)

/-- The operation's own assertions; stored bytes lie in the writable part, and `::readv` delivers at
most what it was offered. -/
def Op.pre (b : RingBuffer) : Op → Prop
  | .append _ => True
  | .retrieve len => len ≤ b.readableBytes
  | .retrieveUntil ofs => b.readIndex + ofs ≤ b.writeIndex
  | .retrieveAll => True
  | .retrieveAsString len => len ≤ b.readableBytes
  | .ensureWritableBytes _ => True
  | .hasWritten stored len => stored.length ≤ b.writableBytes ∧ len ≤ stored.length
  | .unwrite len => len ≤ b.readableBytes
  | .prepend data => data.length ≤ b.prependableBytes
  | .readFd (.error _) => True
  | .readFd (.bytes data) => data.length ≤ b.readvSpace

def Op.exec (b : RingBuffer) : Op → Option (RingBuffer × List UInt8)
  | .append data => (b.append data).map (·, [])
  | .retrieve len => (b.retrieve len).map (·, [])
  | .retrieveUntil ofs => (b.retrieveUntil (b.readIndex + ofs)).map (·, [])
  | .retrieveAll => some (b.retrieveAll, [])
  | .retrieveAsString len => (b.retrieveAsString len).map fun r => (r.2, r.1)
  | .ensureWritableBytes len => (b.ensureWritableBytes len).map (·, [])
  | .hasWritten stored len => ((b.storeAtBeginWrite stored).bind (·.hasWritten len)).map (·, [])
  | .unwrite len => (b.unwrite len).map (·, [])
  | .prepend data => (b.prepend data).map (·, [])
  | .readFd res => (b.readFd res).map (·, [])

def interface : Interface RingBuffer Op (List UInt8) where
  pre b o := o.pre b
  exec b o := o.exec b

def Op.queueOp : Op → QueueOp
  | .append data => .pushBack data
  | .retrieve len => .dropFront len
  | .retrieveUntil ofs => .dropFront ofs
  | .retrieveAll => .clear
  | .retrieveAsString len => .takeFront len
  | .ensureWritableBytes _ => .skip
  | .hasWritten stored len => .pushBack (stored.take len)
  | .unwrite len => .dropBack len
  | .prepend data => .pushFront data
  | .readFd (.error _) => .skip
  | .readFd (.bytes data) => .pushBack data

/-! ## One step and whole sequences -/

theorem hasWritten_step {b : RingBuffer} {q stored : List UInt8} {len : ℕ} (h : b.Holds q)
    (hroom : stored.length ≤ b.writableBytes) (hlen : len ≤ stored.length) :
    ∃ b', (b.storeAtBeginWrite stored).bind (·.hasWritten len) = some b' ∧ b'.Holds (q ++ stored.take len) := by
  obtain ⟨b1, h1, hsize, -, hwi, -, hext⟩ := h.storeAtBeginWrite hroom
  refine ⟨_, ?_, hext len hlen⟩
  have hroom1 : len ≤ b1.writableBytes := by
    simp only [writableBytes, hsize, hwi] at hroom ⊢
    omega
  rw [h1, Option.bind_some, RingBuffer.hasWritten, if_pos hroom1, hwi]

theorem void_step {b : RingBuffer} {q : List UInt8} {o : Op} {x : Option RingBuffer}
    (he : o.exec b = x.map (·, [])) (ho : byteQueue.out q o.queueOp = [])
    (hx : ∃ b', x = some b' ∧ b'.Holds (byteQueue.next q o.queueOp)) :
    ∃ b', interface.exec b o = some (b', byteQueue.out q o.queueOp) ∧ b'.Holds (byteQueue.next q o.queueOp) := by
  obtain ⟨b', rfl, hq⟩ := hx
  exact ⟨b', by rw [ho]; exact he, hq⟩

theorem interface_refines : Interface.Refines interface byteQueue Op.queueOp Holds where
  step := by
    intro b q o h hpre
    have hr := h.readableBytes_eq
    cases o with
    | append data => exact void_step rfl rfl (h.append data)
    | retrieve len => exact void_step rfl rfl (h.retrieve (hr ▸ hpre))
    | retrieveUntil ofs =>
      have hstep := h.retrieveUntil (Nat.le_add_right b.readIndex ofs) hpre
      rw [Nat.add_sub_cancel_left] at hstep
      exact void_step rfl rfl hstep
    | retrieveAll => exact ⟨_, rfl, RingBuffer.retrieveAll_holds⟩
    | retrieveAsString len =>
      have hlen : len ≤ q.length := hr ▸ hpre
      obtain ⟨b', hb', hq⟩ := h.retrieveAsString hlen
      exact ⟨b', by simp [interface, Op.exec, hb', byteQueue, Op.queueOp], hq⟩
    | ensureWritableBytes len =>
      obtain ⟨b', hb', hq, -⟩ := h.ensureWritableBytes len
      exact void_step rfl rfl ⟨b', hb', hq⟩
    | hasWritten stored len => exact void_step rfl rfl (hasWritten_step h hpre.1 hpre.2)
    | unwrite len => exact void_step rfl rfl (h.unwrite (hr ▸ hpre))
    | prepend data => exact void_step rfl rfl (h.prepend hpre)
    | readFd res =>
      cases res with
      | error errno => exact ⟨b, rfl, h⟩
      | bytes data => exact void_step rfl rfl (h.readFd data)

/-- **The buffer is a byte queue.** After every prefix of an admissible sequence of calls the buffer is
well formed, has failed no assertion, and shows and stores what the queue does; room can always be
made; and no buffer enters the compaction branch of `MakeSpace` with fewer than 9 bytes in front. -/
theorem run_refines_byteQueue (initialSize : ℕ) (done todo : List Op)
    (hadm : interface.Admissible (ofSize initialSize) (done ++ todo)) :
    ∃ b outs, interface.run (ofSize initialSize) done = some (b, outs) ∧
      (b.readIndex ≤ b.writeIndex ∧ b.writeIndex ≤ b.buffer.length) ∧
      (b.content, outs) = byteQueue.run [] (done.map Op.queueOp) ∧
      (∀ len, ∃ b', b.ensureWritableBytes len = some b' ∧ len ≤ b'.writableBytes) ∧
      ∀ (c : RingBuffer) (len : ℕ), c.writableBytes < len → c.mustResize len = false →
        kCheapPrepend < c.readIndex := by
  obtain ⟨b, hrun, hq⟩ := interface_refines.run (ofSize_holds initialSize) hadm.of_append
  refine ⟨b, _, hrun, ⟨hq.read_le_write, hq.write_le_size⟩, Prod.ext hq.content_eq rfl, ?_, ?_⟩
  · intro len
    obtain ⟨b', hb', -, hroom⟩ := hq.ensureWritableBytes len
    exact ⟨b', hb', hroom⟩
  · intro c len hw hc
    exact compaction_readIndex hw hc

theorem run_refines_byteQueue_compaction :
    ∃ b outs, interface.run (ofSize 4) [.append (List.replicate 20 7), .retrieve 19, .append [1, 2, 3]] = some (b, outs) ∧
      (b.readIndex ≤ b.writeIndex ∧ b.writeIndex ≤ b.buffer.length) ∧ b.content = [7, 1, 2, 3] := by
  obtain ⟨b, outs, hrun, hidx, hq, -⟩ := run_refines_byteQueue 4
    [.append (List.replicate 20 7), .retrieve 19, .append [1, 2, 3]] [] (by
      refine ⟨trivial, fun s1 r1 h1 => ⟨?_, fun _ _ _ => ⟨trivial, fun _ _ _ => trivial⟩⟩⟩
      have hs1 : some (s1, r1) = some ((⟨List.replicate 20 7, 0, 20⟩ : RingBuffer), []) := by
        rw [← h1]
        decide
      obtain ⟨rfl, -⟩ := Prod.mk.inj (Option.some.inj hs1)
      show 19 ≤ 20 - 0
      omega)
  exact ⟨b, outs, hrun, hidx, (Prod.mk.inj hq).1.trans (by decide)⟩

end RingBuffer
end Chater.Base
