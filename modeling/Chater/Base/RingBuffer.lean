import Chater.Foundations.Memory

/-! # The byte buffer of a connection

`RingBuffer` (`HPGateway/src/base/RingBuffer.h`) with `ReadFd` (`HPGateway/src/net/Buffer.cpp`): a
`std::vector<char>` and two indices. Every public operation is translated statement by statement; a
failed `assert`, a store outside the vector and an ill-defined overlapping `std::copy` are `none`.
A pointer into the vector is its distance from `Begin()`; `peek b n` are the `n` bytes at `Peek()`, and
a `ReadvResult` is what `::readv` came back with.

`size_t` is `ℕ`: the buffer sizes stay far below `2^64`, so no subtraction or sum wraps while the
indices are ordered, and the results below show that they always are.

`Holds b q` relates a buffer to the byte queue `q` it stores. Each operation has one lemma that
says what it does to that queue; later modules use these lemmas and never unfold an operation. -/
namespace Chater.Base
open Memory
set_option autoImplicit false

structure RingBuffer where
  buffer : List UInt8
  readIndex : ℕ
  writeIndex : ℕ
deriving DecidableEq

namespace RingBuffer

def kCheapPrepend : ℕ := 8

def extrabufSize : ℕ := 65536

def ofSize (initialSize : ℕ) : RingBuffer := ⟨List.replicate initialSize 0, 0, 0⟩

def readableBytes (b : RingBuffer) : ℕ := b.writeIndex - b.readIndex

def writableBytes (b : RingBuffer) : ℕ := b.buffer.length - b.writeIndex

def prependableBytes (b : RingBuffer) : ℕ := b.readIndex

def peek (b : RingBuffer) (n : ℕ) : List UInt8 := slice b.buffer b.readIndex n

def retrieveAll (b : RingBuffer) : RingBuffer := { b with readIndex := 0, writeIndex := 0 }

def retrieve (b : RingBuffer) (len : ℕ) : Option RingBuffer :=
  if len ≤ b.readableBytes then
    if len < b.readableBytes then some { b with readIndex := b.readIndex + len }
    else some b.retrieveAll
  else none

def retrieveUntil (b : RingBuffer) (stop : ℕ) : Option RingBuffer :=
  if b.readIndex ≤ stop ∧ stop ≤ b.writeIndex then b.retrieve (stop - b.readIndex) else none

def retrieveAsString (b : RingBuffer) (len : ℕ) : Option (List UInt8 × RingBuffer) :=
  if len ≤ b.readableBytes then (b.retrieve len).map fun b' => (b.peek len, b') else none

def retrieveAllAsString (b : RingBuffer) : Option (List UInt8 × RingBuffer) :=
  b.retrieveAsString b.readableBytes

def mustResize (b : RingBuffer) (len : ℕ) : Bool :=
  decide (b.writableBytes + b.prependableBytes < len + kCheapPrepend)

/-- `MakeSpace`. The compaction copies forward to `Begin() + kCheapPrepend`; `std::copy` is undefined
when that position lies inside the copied range. -/
def makeSpace (b : RingBuffer) (len : ℕ) : Option RingBuffer :=
  if b.mustResize len then some { b with buffer := resize 0 b.buffer (b.writeIndex + len) }
  else if b.readIndex ≤ kCheapPrepend ∧ kCheapPrepend < b.writeIndex then none
  else (copyForward b.readableBytes b.buffer b.readIndex kCheapPrepend).map fun mem =>
    ⟨mem, kCheapPrepend, kCheapPrepend + b.readableBytes⟩

def ensureWritableBytes (b : RingBuffer) (len : ℕ) : Option RingBuffer := do
  let b ← if b.writableBytes < len then b.makeSpace len else some b
  if len ≤ b.writableBytes then some b else none

def hasWritten (b : RingBuffer) (len : ℕ) : Option RingBuffer :=
  if len ≤ b.writableBytes then some { b with writeIndex := b.writeIndex + len } else none

def storeAtBeginWrite (b : RingBuffer) (data : List UInt8) : Option RingBuffer :=
  (store b.buffer b.writeIndex data).map fun mem => { b with buffer := mem }

def append (b : RingBuffer) (data : List UInt8) : Option RingBuffer := do
  let b ← b.ensureWritableBytes data.length
  let b ← b.storeAtBeginWrite data
  b.hasWritten data.length

def unwrite (b : RingBuffer) (len : ℕ) : Option RingBuffer :=
  if len ≤ b.readableBytes then some { b with writeIndex := b.writeIndex - len } else none

def prepend (b : RingBuffer) (data : List UInt8) : Option RingBuffer :=
  if data.length ≤ b.prependableBytes then
    (store b.buffer (b.readIndex - data.length) data).map fun mem =>
      { b with buffer := mem, readIndex := b.readIndex - data.length }
  else none

def shrink (b : RingBuffer) (reserve : ℕ) : Option RingBuffer :=
  (store (List.replicate reserve 0) 0 (b.peek b.readableBytes)).map fun mem => ⟨mem, 0, b.readableBytes⟩

inductive ReadvResult
  | error (errno : ℕ)
  | bytes (data : List UInt8)
deriving DecidableEq

def ReadvResult.n : ReadvResult → ℤ
  | .error _ => -1
  | .bytes data => data.length

/-- The space `ReadFd` offers to `::readv`: the writable bytes, and the stack buffer behind them
unless the writable part is already as large. -/
def readvSpace (b : RingBuffer) : ℕ :=
  if b.writableBytes < extrabufSize then b.writableBytes + extrabufSize else b.writableBytes

/-- `ReadFd` after `::readv`: the first bytes went to `BeginWrite()`, those beyond the writable part
to the stack buffer, from where they are appended. -/
def readFd (b : RingBuffer) : ReadvResult → Option RingBuffer
  | .error _ => some b
  | .bytes data =>
    if data.length ≤ b.writableBytes then do
      let b' ← b.storeAtBeginWrite data
      some { b' with writeIndex := b.writeIndex + data.length }
    else do
      let b' ← b.storeAtBeginWrite (data.take b.writableBytes)
      append { b' with writeIndex := b'.buffer.length } (data.drop b.writableBytes)

/-! ## Well-formedness and the stored queue -/

structure Wf (b : RingBuffer) : Prop where
  read_le_write : b.readIndex ≤ b.writeIndex
  write_le_size : b.writeIndex ≤ b.buffer.length

def content (b : RingBuffer) : List UInt8 := slice b.buffer b.readIndex b.readableBytes

/-- The buffer is well formed and stores exactly the queue `q`. -/
structure Holds (b : RingBuffer) (q : List UInt8) : Prop extends Wf b where
  content_eq : b.content = q

theorem Wf.holds {b : RingBuffer} (h : b.Wf) : b.Holds b.content := ⟨h, rfl⟩

theorem Wf.readable_le {b : RingBuffer} (h : b.Wf) : b.readIndex + b.readableBytes ≤ b.buffer.length := by
  have := h.read_le_write
  have := h.write_le_size
  unfold readableBytes
  omega

theorem Wf.readIndex_add_readable {b : RingBuffer} (h : b.Wf) : b.readIndex + b.readableBytes = b.writeIndex := by
  have := h.read_le_write
  unfold readableBytes
  omega

theorem Wf.writeIndex_add_writable {b : RingBuffer} (h : b.Wf) :
    b.writeIndex + b.writableBytes = b.buffer.length := by
  have := h.write_le_size
  unfold writableBytes
  omega

theorem Wf.content_length {b : RingBuffer} (h : b.Wf) : b.content.length = b.readableBytes :=
  slice_length h.readable_le

theorem Holds.readableBytes_eq {b : RingBuffer} {q : List UInt8} (h : b.Holds q) : b.readableBytes = q.length := by
  rw [← h.content_eq, h.content_length]

theorem Holds.peek_eq {b : RingBuffer} {q : List UInt8} {n : ℕ} (h : b.Holds q) (hn : n ≤ q.length) :
    b.peek n = q.take n := by
  have hr := h.readableBytes_eq
  rw [← h.content_eq, content, slice_take, Nat.min_eq_left (by omega)]
  rfl

theorem ofSize_holds (initialSize : ℕ) : (ofSize initialSize).Holds [] :=
  ⟨⟨le_rfl, Nat.zero_le _⟩, slice_zero _ _⟩

/-! ## Dropping a prefix or a suffix -/

theorem retrieveAll_holds {b : RingBuffer} : b.retrieveAll.Holds [] :=
  ⟨⟨le_rfl, Nat.zero_le _⟩, slice_zero _ _⟩

theorem Holds.retrieve {b : RingBuffer} {q : List UInt8} {len : ℕ} (h : b.Holds q) (hlen : len ≤ q.length) :
    ∃ b', b.retrieve len = some b' ∧ b'.Holds (q.drop len) := by
  have hr := h.readableBytes_eq
  have hrw := h.read_le_write
  have hws := h.write_le_size
  unfold RingBuffer.retrieve
  rw [if_pos (by omega)]
  by_cases hlt : len < b.readableBytes
  · rw [if_pos hlt]
    have hread : ({ b with readIndex := b.readIndex + len } : RingBuffer).readableBytes = b.readableBytes - len := by
      simp only [readableBytes]
      omega
    refine ⟨_, rfl, ⟨?_, hws⟩, ?_⟩
    · unfold readableBytes at hlt
      simp only
      omega
    · rw [← h.content_eq, content, hread, content, slice_drop]
  · rw [if_neg hlt, List.drop_eq_nil_of_le (by omega)]
    exact ⟨_, rfl, retrieveAll_holds⟩

theorem Holds.retrieveUntil {b : RingBuffer} {q : List UInt8} {stop : ℕ} (h : b.Holds q)
    (hlo : b.readIndex ≤ stop) (hhi : stop ≤ b.writeIndex) :
    ∃ b', b.retrieveUntil stop = some b' ∧ b'.Holds (q.drop (stop - b.readIndex)) := by
  unfold RingBuffer.retrieveUntil
  rw [if_pos ⟨hlo, hhi⟩]
  apply h.retrieve
  have hr := h.readableBytes_eq
  unfold readableBytes at hr
  omega

theorem Holds.retrieveAsString {b : RingBuffer} {q : List UInt8} {len : ℕ} (h : b.Holds q)
    (hlen : len ≤ q.length) :
    ∃ b', b.retrieveAsString len = some (q.take len, b') ∧ b'.Holds (q.drop len) := by
  obtain ⟨b', hb', hq⟩ := h.retrieve hlen
  refine ⟨b', ?_, hq⟩
  unfold RingBuffer.retrieveAsString
  rw [if_pos (by rw [h.readableBytes_eq]; exact hlen), hb', h.peek_eq hlen, Option.map_some]

theorem Holds.unwrite {b : RingBuffer} {q : List UInt8} {len : ℕ} (h : b.Holds q) (hlen : len ≤ q.length) :
    ∃ b', b.unwrite len = some b' ∧ b'.Holds (q.take (q.length - len)) := by
  have hr := h.readableBytes_eq
  have hrw := h.read_le_write
  have hws := h.write_le_size
  unfold RingBuffer.unwrite
  rw [if_pos (by omega)]
  have hread : ({ b with writeIndex := b.writeIndex - len } : RingBuffer).readableBytes = b.readableBytes - len := by
    simp only [readableBytes]
    omega
  refine ⟨_, rfl, ⟨?_, ?_⟩, ?_⟩
  · unfold readableBytes at hr
    simp only
    omega
  · simp only
    omega
  · rw [content, hread, ← hr, ← h.content_eq, content, slice_take, Nat.min_eq_left (by omega)]

/-! ## Making room -/

theorem mustResize_eq_false {b : RingBuffer} {len : ℕ} :
    b.mustResize len = false ↔ len + kCheapPrepend ≤ b.writableBytes + b.readIndex := by
  unfold mustResize prependableBytes
  rw [decide_eq_false_iff_not, not_lt]

/-- Entering the compaction branch means more than the 8 slack bytes lie before the content, so the
forward copy goes to a lower address. -/
theorem compaction_readIndex {b : RingBuffer} {len : ℕ} (hw : b.writableBytes < len)
    (hc : b.mustResize len = false) : kCheapPrepend < b.readIndex := by
  rw [mustResize_eq_false] at hc
  omega

theorem Holds.makeSpace {b : RingBuffer} {q : List UInt8} {len : ℕ} (h : b.Holds q)
    (hw : b.writableBytes < len) :
    ∃ b', b.makeSpace len = some b' ∧ b'.Holds q ∧ len ≤ b'.writableBytes := by
  have hrw := h.read_le_write
  have hws := h.write_le_size
  unfold RingBuffer.makeSpace
  cases hm : b.mustResize len with
  | true =>
    rw [if_pos rfl]
    have hgrow : b.buffer.length ≤ b.writeIndex + len := by
      unfold writableBytes at hw
      omega
    refine ⟨_, rfl, ⟨⟨hrw, ?_⟩, ?_⟩, ?_⟩
    · rw [resize_length]
      simp
    · rw [← h.content_eq]
      exact resize_slice 0 b.buffer hgrow h.readable_le
    · simp only [writableBytes, resize_length]
      omega
  | false =>
    have hread := compaction_readIndex hw hm
    rw [if_neg (by simp), if_neg (by omega)]
    obtain ⟨mem, hcopy, hlen, hslice⟩ := copyForward_slice hread.le h.readable_le
    have hreadable : (⟨mem, kCheapPrepend, kCheapPrepend + b.readableBytes⟩ : RingBuffer).readableBytes =
        b.readableBytes := by
      simp only [readableBytes]
      omega
    have hsum := h.readIndex_add_readable
    rw [hcopy]
    refine ⟨_, rfl, ⟨⟨?_, ?_⟩, ?_⟩, ?_⟩
    · simp
    · simp only [hlen]
      omega
    · rw [content, hreadable, ← h.content_eq]
      exact hslice
    · rw [mustResize_eq_false] at hm
      have hend := h.writeIndex_add_writable
      simp only [writableBytes, hlen] at hm ⊢
      omega

theorem Holds.ensureWritableBytes {b : RingBuffer} {q : List UInt8} (h : b.Holds q) (len : ℕ) :
    ∃ b', b.ensureWritableBytes len = some b' ∧ b'.Holds q ∧ len ≤ b'.writableBytes := by
  unfold RingBuffer.ensureWritableBytes
  by_cases hw : b.writableBytes < len
  · obtain ⟨b', hb', hq, hroom⟩ := h.makeSpace hw
    exact ⟨b', by simp [hw, hb', hroom], hq, hroom⟩
  · have hroom : len ≤ b.writableBytes := by omega
    exact ⟨b, by simp [hw, hroom], h, hroom⟩

/-! ## Extending the content -/

theorem Holds.storeAtBeginWrite {b : RingBuffer} {q data : List UInt8} (h : b.Holds q)
    (hroom : data.length ≤ b.writableBytes) :
    ∃ b', b.storeAtBeginWrite data = some b' ∧ b'.buffer.length = b.buffer.length ∧
      b'.readIndex = b.readIndex ∧ b'.writeIndex = b.writeIndex ∧ b'.Holds q ∧
      ∀ n, n ≤ data.length → ({ b' with writeIndex := b.writeIndex + n } : RingBuffer).Holds (q ++ data.take n) := by
  have hrw := h.read_le_write
  have hend := h.writeIndex_add_writable
  have hsum := h.readIndex_add_readable
  have hfit : b.writeIndex + data.length ≤ b.buffer.length := by omega
  obtain ⟨mem, hmem, hst⟩ := store_stored hfit
  refine ⟨{ b with buffer := mem }, by simp [RingBuffer.storeAtBeginWrite, hmem], hst.length_eq, rfl, rfl, ?_, ?_⟩
  · refine ⟨⟨hrw, ?_⟩, ?_⟩
    · simp only [hst.length_eq]
      omega
    · rw [← h.content_eq]
      exact hst.before _ _ hsum.le
  · intro n hn
    have hread : (⟨mem, b.readIndex, b.writeIndex + n⟩ : RingBuffer).readableBytes = b.readableBytes + n := by
      simp only [readableBytes]
      omega
    refine ⟨⟨?_, ?_⟩, ?_⟩
    · simp only
      omega
    · simp only [hst.length_eq]
      omega
    · rw [← hsum] at hst
      rw [content, hread, ← slice_append_slice, ← h.content_eq]
      congr 1
      · exact hst.before _ _ le_rfl
      · have hblock := congrArg (List.take n) hst.block
        rw [slice_take, Nat.min_eq_left hn] at hblock
        exact hblock

theorem Holds.append {b : RingBuffer} {q : List UInt8} (h : b.Holds q) (data : List UInt8) :
    ∃ b', b.append data = some b' ∧ b'.Holds (q ++ data) := by
  obtain ⟨b1, h1, hq1, hroom⟩ := h.ensureWritableBytes data.length
  obtain ⟨b2, h2, hlen, -, hwi, -, hext⟩ := hq1.storeAtBeginWrite hroom
  have hroom2 : data.length ≤ b2.writableBytes := by
    simp only [writableBytes, hlen, hwi] at hroom ⊢
    exact hroom
  have hres := hext data.length le_rfl
  rw [List.take_length] at hres
  refine ⟨{ b2 with writeIndex := b1.writeIndex + data.length }, ?_, hres⟩
  simp [RingBuffer.append, h1, h2, hasWritten, hroom2, hwi]

theorem Holds.readFd {b : RingBuffer} {q : List UInt8} (h : b.Holds q) (data : List UInt8) :
    ∃ b', b.readFd (.bytes data) = some b' ∧ b'.Holds (q ++ data) := by
  unfold RingBuffer.readFd
  by_cases hfit : data.length ≤ b.writableBytes
  · obtain ⟨b1, h1, -, -, -, -, hext⟩ := h.storeAtBeginWrite hfit
    have hres := hext data.length le_rfl
    rw [List.take_length] at hres
    exact ⟨_, by simp [hfit, h1], hres⟩
  · have htake : (data.take b.writableBytes).length = b.writableBytes := by
      rw [List.length_take]
      omega
    obtain ⟨b1, h1, hlen, -, -, -, hext⟩ := h.storeAtBeginWrite htake.le
    have hfull := hext b.writableBytes (by omega)
    rw [List.take_take, Nat.min_self, h.writeIndex_add_writable, ← hlen] at hfull
    obtain ⟨b2, h2, hq2⟩ := hfull.append (data.drop b.writableBytes)
    rw [List.append_assoc, List.take_append_drop] at hq2
    exact ⟨b2, by simp [hfit, h1, h2], hq2⟩

theorem Holds.prepend {b : RingBuffer} {q data : List UInt8} (h : b.Holds q)
    (hroom : data.length ≤ b.prependableBytes) :
    ∃ b', b.prepend data = some b' ∧ b'.Holds (data ++ q) := by
  have hrw := h.read_le_write
  have hws := h.write_le_size
  unfold prependableBytes at hroom
  have hfit : b.readIndex - data.length + data.length ≤ b.buffer.length := by omega
  obtain ⟨mem, hmem, hst⟩ := store_stored hfit
  refine ⟨⟨mem, b.readIndex - data.length, b.writeIndex⟩, ?_, ⟨?_, ?_⟩, ?_⟩
  · simp [RingBuffer.prepend, prependableBytes, hroom, hmem]
  · simp only
    omega
  · simp only [hst.length_eq]
    omega
  · have hread : (⟨mem, b.readIndex - data.length, b.writeIndex⟩ : RingBuffer).readableBytes =
        data.length + b.readableBytes := by
      simp only [readableBytes]
      omega
    rw [content, hread, hst.extend_front, Nat.sub_add_cancel hroom, ← h.content_eq]
    rfl

end RingBuffer
end Chater.Base
