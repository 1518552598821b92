import Chater.Base.RingBuffer

/-! # Well-formed buffers

A connection only ever reaches its two buffers through the public operations, and each of these keeps the indices
in order.  `WfBuffer` carries that fact, so the operations a connection uses are total on it and their effect is an
equation on the stored bytes. -/

namespace Chater.Base
open RingBuffer
set_option autoImplicit false

def WfBuffer : Type := {b : RingBuffer // b.Wf}

namespace WfBuffer

instance : DecidableEq WfBuffer := inferInstanceAs (DecidableEq {b : RingBuffer // b.Wf})

def content (b : WfBuffer) : List UInt8 := b.1.content

def readableBytes (b : WfBuffer) : ℕ := b.1.readableBytes

def readvSpace (b : WfBuffer) : ℕ := b.1.readvSpace

theorem readableBytes_eq (b : WfBuffer) : b.readableBytes = b.content.length :=
  b.2.holds.readableBytes_eq

theorem readableBytes_eq_zero (b : WfBuffer) : b.readableBytes = 0 ↔ b.content = [] := by
  rw [readableBytes_eq, List.length_eq_zero_iff]

theorem readvSpace_pos (b : WfBuffer) : 0 < b.readvSpace := by
  unfold readvSpace RingBuffer.readvSpace extrabufSize
  split_ifs <;> omega

/-- The buffer an operation returned, when it is known to succeed. -/
def ofSome (r : Option RingBuffer) {q : List UInt8} (h : ∃ b, r = some b ∧ b.Holds q) : WfBuffer :=
  ⟨r.get (by obtain ⟨b, rfl, -⟩ := h; rfl), by obtain ⟨b, rfl, hb⟩ := h; exact hb.toWf⟩

theorem ofSome_content {r : Option RingBuffer} {q : List UInt8} (h : ∃ b, r = some b ∧ b.Holds q) :
    (ofSome r h).content = q := by
  obtain ⟨b, rfl, hb⟩ := h
  exact hb.content_eq

def ofSize (initialSize : ℕ) : WfBuffer := ⟨RingBuffer.ofSize initialSize, (ofSize_holds initialSize).toWf⟩

def retrieveAll (b : WfBuffer) : WfBuffer := ⟨b.1.retrieveAll, retrieveAll_holds.toWf⟩

def retrieve (b : WfBuffer) (len : ℕ) : Option WfBuffer :=
  if h : len ≤ b.content.length then some (ofSome (b.1.retrieve len) (b.2.holds.retrieve h)) else none

def append (b : WfBuffer) (data : List UInt8) : WfBuffer := ofSome (b.1.append data) (b.2.holds.append data)

def readFd (b : WfBuffer) : ReadvResult → WfBuffer
  | .error _ => b
  | .bytes data => ofSome (b.1.readFd (.bytes data)) (b.2.holds.readFd data)

@[simp] theorem ofSize_content (initialSize : ℕ) : (ofSize initialSize).content = [] :=
  (ofSize_holds initialSize).content_eq

theorem ofSize_readvSpace (initialSize : ℕ) :
    (ofSize initialSize).readvSpace = if initialSize < 65536 then initialSize + 65536 else initialSize := by
  simp only [readvSpace, ofSize, RingBuffer.readvSpace, RingBuffer.ofSize, writableBytes, extrabufSize,
    List.length_replicate, Nat.sub_zero]

@[simp] theorem append_content (b : WfBuffer) (data : List UInt8) : (b.append data).content = b.content ++ data :=
  ofSome_content _

@[simp] theorem readFd_content (b : WfBuffer) (data : List UInt8) :
    (b.readFd (.bytes data)).content = b.content ++ data :=
  ofSome_content (b.2.holds.readFd data)

theorem retrieve_content {b b' : WfBuffer} {len : ℕ} (h : b.retrieve len = some b') :
    b'.content = b.content.drop len := by
  unfold retrieve at h
  split at h
  · obtain rfl := Option.some.inj h
    exact ofSome_content _
  · cases h

end WfBuffer
end Chater.Base
