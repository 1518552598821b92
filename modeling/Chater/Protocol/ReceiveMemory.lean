import Chater.Foundations.Transition
import Chater.Protocol.Termination

/-!
# The memory of the receive path

`TcpConnection::HandleRead` with the codec as its message callback.  `ReadFd` offers the writable part of the buffer
and 64 KiB of stack to `readv`, and the vector grows only when more arrived than was writable.  What the codec leaves
unread is less than the largest frame it accepts, and `MakeSpace` grows the vector only while little has been read off
its front, so the vector stays below four times 64 KiB.
-/

namespace Chater.Protocol

open Base Foundations Framing PacketHeader RingBuffer

set_option autoImplicit false

/-! ## How the vector grows -/

theorem storeAtBeginWrite_size {b b' : RingBuffer} {data : List UInt8} (hb : b.Wf)
    (hroom : data.length ≤ b.writableBytes) (h : b.storeAtBeginWrite data = some b') :
    b'.buffer.length = b.buffer.length ∧ b'.readIndex = b.readIndex ∧ b'.writeIndex = b.writeIndex := by
  obtain ⟨b₁, h₁, hlength, hread, hwrite, -⟩ := hb.holds.storeAtBeginWrite hroom
  obtain rfl := Option.some.inj (h₁.symm.trans h)
  exact ⟨hlength, hread, hwrite⟩

/-- `MakeSpace` grows the vector only when the room it needs exceeds what is free before and behind the content. -/
theorem makeSpace_size {b b' : RingBuffer} {len : ℕ} (hb : b.Wf) (hroom : b.writableBytes < len)
    (h : b.makeSpace len = some b') :
    b'.buffer.length = b.buffer.length ∨
      b'.buffer.length = b.writeIndex + len ∧ b.writableBytes + b.readIndex < len + kCheapPrepend := by
  unfold RingBuffer.makeSpace at h
  cases hresize : b.mustResize len with
  | true =>
    rw [hresize, if_pos rfl] at h
    obtain rfl := Option.some.inj h
    exact .inr ⟨Memory.resize_length _ _ _, of_decide_eq_true hresize⟩
  | false =>
    have hread := compaction_readIndex hroom hresize
    obtain ⟨mem, hcopy, hlength, -⟩ := Memory.copyForward_slice hread.le hb.readable_le
    rw [hresize, if_neg (by simp), if_neg (by omega), hcopy] at h
    obtain rfl := Option.some.inj h
    exact .inl hlength

theorem ensureWritableBytes_size {b b' : RingBuffer} {len : ℕ} (hb : b.Wf)
    (h : b.ensureWritableBytes len = some b') :
    b'.buffer.length = b.buffer.length ∨
      b'.buffer.length = b.writeIndex + len ∧ b.writableBytes + b.readIndex < len + kCheapPrepend := by
  by_cases hw : b.writableBytes < len
  · obtain ⟨b₁, h₁, -, hroom⟩ := hb.holds.makeSpace hw
    simp only [RingBuffer.ensureWritableBytes, hw, h₁, hroom, if_true, Option.bind_eq_bind, Option.bind_some] at h
    obtain rfl := Option.some.inj h
    exact makeSpace_size hb hw h₁
  · simp only [RingBuffer.ensureWritableBytes, hw, not_lt.mp hw, if_true, if_false, Option.bind_eq_bind,
      Option.bind_some] at h
    obtain rfl := Option.some.inj h
    exact .inl rfl

theorem append_size {b b' : RingBuffer} {data : List UInt8} (hb : b.Wf) (h : b.append data = some b') :
    b'.buffer.length = b.buffer.length ∨
      b'.buffer.length = b.writeIndex + data.length ∧
        b.writableBytes + b.readIndex < data.length + kCheapPrepend := by
  obtain ⟨b₁, h₁, hq₁, hroom⟩ := hb.holds.ensureWritableBytes data.length
  obtain ⟨b₂, h₂, hlength, -⟩ := hq₁.storeAtBeginWrite hroom
  have hsize : b'.buffer.length = b₁.buffer.length := by
    simp only [RingBuffer.append, h₁, h₂, Option.bind_eq_bind, Option.bind_some, hasWritten] at h
    split_ifs at h
    obtain rfl := Option.some.inj h
    exact hlength
  rw [hsize]
  exact ensureWritableBytes_size hb h₁

/-- `ReadFd` grows the vector only from a full one, by what went to the stack buffer. -/
theorem readFd_size {b b' : RingBuffer} {data : List UInt8} (hb : b.Wf) (h : b.readFd (.bytes data) = some b') :
    b'.buffer.length = b.buffer.length ∨
      b.writableBytes < data.length ∧
        b'.buffer.length = b.buffer.length + (data.length - b.writableBytes) ∧
        b.readIndex < data.length - b.writableBytes + kCheapPrepend := by
  unfold RingBuffer.readFd at h
  simp only at h
  split_ifs at h with hfit
  · obtain ⟨b₁, h₁, hlast⟩ := Option.bind_eq_some_iff.mp h
    obtain ⟨hlength, -, -⟩ := storeAtBeginWrite_size hb hfit h₁
    obtain rfl := Option.some.inj hlast
    exact .inl hlength
  · obtain ⟨b₁, h₁, hlast⟩ := Option.bind_eq_some_iff.mp h
    have htake : (data.take b.writableBytes).length ≤ b.writableBytes := List.length_take_le _ _
    obtain ⟨hlength, hread, hwrite⟩ := storeAtBeginWrite_size hb htake h₁
    have hfull : ({ b₁ with writeIndex := b₁.buffer.length } : RingBuffer).Wf := by
      refine ⟨?_, le_rfl⟩
      have hle := hb.read_le_write
      have hle' := hb.write_le_size
      show b₁.readIndex ≤ b₁.buffer.length
      omega
    obtain hsame | ⟨hgrown, hneed⟩ := append_size hfull hlast
    · exact .inl (hsame.trans hlength)
    · refine .inr ⟨by omega, ?_, ?_⟩
      · rw [hgrown, List.length_drop]
        exact congrArg (· + _) hlength
      · rw [List.length_drop] at hneed
        have hread' : ({ b₁ with writeIndex := b₁.buffer.length } : RingBuffer).readIndex = b.readIndex := hread
        omega

/-- From less than 64 KiB unread, what `readv` can return keeps the vector within the bound. -/
theorem readFd_size_le {b b' : RingBuffer} {r : ReadvResult} (hb : b.Wf) (hunread : b.readableBytes < 65536)
    (hsize : b.buffer.length ≤ 262152) (hspace : r.n ≤ b.readvSpace) (h : b.readFd r = some b') :
    b'.buffer.length ≤ 262152 := by
  cases r with
  | error errno =>
    obtain rfl := Option.some.inj h
    exact hsize
  | bytes data =>
    obtain hsame | ⟨hmore, hgrown, hread⟩ := readFd_size hb h
    · omega
    · have hsum := hb.readIndex_add_readable
      have hend := hb.writeIndex_add_writable
      have hspace' : data.length ≤ b.readvSpace := Int.ofNat_le.mp hspace
      unfold readvSpace extrabufSize at hspace'
      unfold kCheapPrepend at hread
      split_ifs at hspace' with hsmall <;> omega

/-! ## What the codec leaves -/

theorem retrieve_size {b b' : RingBuffer} {len : ℕ} (h : b.retrieve len = some b') : b'.buffer = b.buffer := by
  unfold RingBuffer.retrieve at h
  split_ifs at h
  all_goals
    obtain rfl := Option.some.inj h
    rfl

theorem iteration_size {buf buf' : RingBuffer} {p : Packet} (h : Codec.iteration buf = some (.deliver p buf')) :
    buf'.buffer = buf.buffer := by
  unfold Codec.iteration at h
  simp only at h
  split_ifs at h
  all_goals first | cases h | skip
  all_goals
    obtain ⟨b, hb, hdeliver⟩ := Option.map_eq_some_iff.mp h
    obtain ⟨-, rfl⟩ := Codec.Iteration.deliver.inj hdeliver
    exact retrieve_size hb

theorem onMessageLoop_size {fuel : ℕ} {buf : RingBuffer} {r : Codec.Result}
    (h : Codec.onMessageLoop fuel buf = some r) : r.buf.buffer = buf.buffer := by
  induction fuel generalizing buf r with
  | zero => cases h
  | succ fuel ih =>
    rw [Codec.onMessageLoop] at h
    cases hit : Codec.iteration buf with
    | none =>
      rw [hit] at h
      cases h
    | some it =>
      rw [hit] at h
      cases it with
      | wait =>
        obtain rfl := Option.some.inj h
        rfl
      | invalidLength len =>
        obtain rfl := Option.some.inj h
        rfl
      | deliver p buf' =>
        obtain ⟨r', hr', rfl⟩ := Option.map_eq_some_iff.mp h
        exact (ih hr').trans (iteration_size hit)

theorem more_length {q : List UInt8} (h : Codec.frameVerdict q = .more) : q.length < 65536 := by
  unfold Codec.frameVerdict at h
  split_ifs at h with hheader hmax hbody
  · unfold kHeaderLength at hheader
    omega
  · unfold kMaxLength at hmax
    omega

/-! ## Streams without empty frames -/

/-- Every complete header at a frame start of the stream has a non-zero length field. -/
def NonZeroLengths (stream : List UInt8) : Prop :=
  ∀ k, FrameStart stream k → k + kHeaderLength ≤ stream.length → lengthField (stream.drop k) ≠ 0

theorem item_pos {stream rest ys : List UInt8} {items : List Packet} {p : Packet} {n : ℕ}
    (hstream : NonZeroLengths stream) (hw : Walk Codec.frames stream items (rest ++ ys))
    (hv : Codec.frames.verdict rest = .item p n) : 0 < n := by
  obtain ⟨k, hk, hrest⟩ := frameStart_of_walk hw
  obtain ⟨hheader, -, -, -, rfl⟩ := Codec.frameVerdict_item_iff.mp hv
  have hlength := congrArg List.length hrest
  rw [List.length_append, List.length_drop] at hlength
  have hne := hstream k hk (by have := hk.le; omega)
  rw [← hrest, Codec.lengthField_append_header hheader] at hne
  exact Nat.pos_of_ne_zero hne

/-! ## Reading -/

def kInitialSize : ℕ := 1024

/-- `rejected` once the codec has called `ForceClose`, `closed` once `HandleClose` ran for an end of file. -/
structure Reception where
  inputBuffer : RingBuffer
  rejected : Bool
  closed : Bool

namespace Reception

def start : Reception := ⟨ofSize kInitialSize, false, false⟩

def handleRead (s : Reception) (r : ReadvResult) : Option Reception :=
  (s.inputBuffer.readFd r).bind fun buf =>
    if 0 < r.n then
      (Codec.onMessage buf).map fun result => { s with inputBuffer := result.buf, rejected := result.invalidLength.isSome }
    else if r.n = 0 then some { s with inputBuffer := buf, closed := true }
    else some { s with inputBuffer := buf }

/-- A read of an open connection that the codec has not rejected, with no more bytes than `ReadFd` offers room for. -/
def Reads (s : Reception) (r : ReadvResult) : Prop :=
  s.rejected = false ∧ s.closed = false ∧ r.n ≤ s.inputBuffer.readvSpace

instance (s : Reception) (r : ReadvResult) : Decidable (s.Reads r) := inferInstanceAs (Decidable (_ ∧ _ ∧ _))

end Reception

def bytesRead : ReadvResult → List UInt8
  | .error _ => []
  | .bytes data => data

open Reception

/-- What is known of a connection that has read `q`: the unread bytes are the rest of `q`, less than a frame unless
they are rejected, and the vector is within the bound. -/
structure Bounded (q : List UInt8) (s : Reception) : Prop where
  unread : ∃ items rest, Walk Codec.frames q items rest ∧ s.inputBuffer.Holds rest ∧
    (s.rejected = false → Codec.frameVerdict rest = .more)
  size : s.inputBuffer.buffer.length ≤ 262152

theorem Bounded.readableBytes_lt {q : List UInt8} {s : Reception} (h : Bounded q s) (hs : s.rejected = false) :
    s.inputBuffer.readableBytes < 65536 := by
  obtain ⟨items, rest, -, hrest, hmore⟩ := h.unread
  rw [hrest.readableBytes_eq]
  exact more_length (hmore hs)

theorem Bounded.wf {q : List UInt8} {s : Reception} (h : Bounded q s) : s.inputBuffer.Wf := by
  obtain ⟨items, rest, -, hrest, -⟩ := h.unread
  exact hrest.toWf

theorem bounded_start : Bounded [] start := by
  refine ⟨⟨[], [], .nil [], ofSize_holds kInitialSize, fun _ => rfl⟩, ?_⟩
  show (List.replicate kInitialSize (0 : UInt8)).length ≤ 262152
  rw [List.length_replicate]
  decide

theorem Bounded.handleRead {q : List UInt8} {s : Reception} {r : ReadvResult} (h : Bounded q s)
    (hr : Reads s r) (ys : List UInt8) (hstream : NonZeroLengths (q ++ bytesRead r ++ ys)) :
    ∃ s', s.handleRead r = some s' ∧ Bounded (q ++ bytesRead r) s' := by
  obtain ⟨hopen, -, hspace⟩ := hr
  obtain ⟨items, rest, hw, hrest, hmore⟩ := h.unread
  have hsize : ∀ b, s.inputBuffer.readFd r = some b → b.buffer.length ≤ 262152 :=
    fun b hb => readFd_size_le h.wf (h.readableBytes_lt hopen) h.size hspace hb
  cases r with
  | error errno =>
    refine ⟨s, rfl, ?_⟩
    rw [bytesRead, List.append_nil]
    exact h
  | bytes data =>
    obtain ⟨b, hread, hb⟩ := hrest.readFd data
    cases data with
    | nil =>
      refine ⟨{ s with inputBuffer := b, closed := true }, ?_, ?_, hsize b hread⟩
      · rw [Reception.handleRead, hread]
        rfl
      · refine ⟨items, rest, ?_, ?_, hmore⟩
        · rw [bytesRead, List.append_nil]
          exact hw
        · rw [List.append_nil] at hb
          exact hb
    | cons byte data =>
      -- the whole stream has no empty frame, so neither have the bytes the loop works on
      have hpos : ∀ a rest', Walk Codec.frames (rest ++ byte :: data) a rest' →
          ∀ p n, Codec.frames.verdict rest' = .item p n → 0 < n :=
        fun a rest' ha p n hv => item_pos hstream ((hw.extend ha).append ys) hv
      obtain ⟨items', rest', hw', hstuck⟩ := exists_stuck (rest ++ byte :: data) hpos
      obtain ⟨b', hloop, hb'⟩ := Codec.onMessage_of_walk hb hw' hstuck
      refine ⟨{ s with inputBuffer := b', rejected := (Codec.stopLength rest').isSome }, ?_, ?_, ?_⟩
      · rw [Reception.handleRead, hread, Option.bind_some, if_pos (by simp [ReadvResult.n]), hloop]
        rfl
      · refine ⟨items ++ items', rest', hw.extend hw', hb', fun haccepted => ?_⟩
        refine (stuck_iff.mp hstuck).resolve_right fun hreject => ?_
        replace hreject : Codec.frameVerdict rest' = .reject := hreject
        simp [Codec.stopLength, hreject] at haccepted
      · rw [onMessageLoop_size hloop]
        exact hsize b hread

theorem Bounded.run {q ys : List UInt8} {s : Reception} {rs : List ReadvResult} (h : Bounded q s)
    (hrs : Meets Reception.handleRead Reads s rs) (hstream : NonZeroLengths (q ++ rs.flatMap bytesRead ++ ys)) :
    ∃ s', runFrom Reception.handleRead s rs = some s' ∧ Bounded (q ++ rs.flatMap bytesRead) s' := by
  induction rs generalizing q s with
  | nil => exact ⟨s, rfl, by simpa using h⟩
  | cons r rs ih =>
    have hassoc : q ++ (r :: rs).flatMap bytesRead = q ++ bytesRead r ++ rs.flatMap bytesRead := by simp
    rw [hassoc] at hstream ⊢
    obtain ⟨s₁, h₁, hb₁⟩ := h.handleRead hrs.1 (rs.flatMap bytesRead ++ ys) (by simpa using hstream)
    obtain ⟨s', hs', hb'⟩ := ih hb₁ (hrs.2 s₁ h₁) hstream
    exact ⟨s', runFrom_cons_iff.mpr ⟨s₁, h₁, hs'⟩, hb'⟩

/-- **Receive memory is bounded.**  Whatever the peer sends without zero length fields and however `readv` cuts it,
every read returns, the vector of `inputBuffer_` stays within four times 64 KiB plus 8 bytes, also before the codec
runs, and less than 64 KiB are unread after every read that was not rejected. -/
theorem receive_memory_bounded {stream : List UInt8} (hstream : NonZeroLengths stream) {rs : List ReadvResult}
    (hread : rs.flatMap bytesRead <+: stream) (hrs : Meets Reception.handleRead Reads start rs) :
    ∃ s, runFrom Reception.handleRead start rs = some s ∧ s.inputBuffer.buffer.length ≤ 262152 ∧
      (s.rejected = false → s.inputBuffer.readableBytes < 65536) ∧
      ∀ r buf, Reads s r → s.inputBuffer.readFd r = some buf → buf.buffer.length ≤ 262152 := by
  obtain ⟨ys, rfl⟩ := hread
  obtain ⟨s, hrun, hb⟩ := bounded_start.run hrs hstream
  refine ⟨s, hrun, hb.size, hb.readableBytes_lt, fun r buf hr hbuf => ?_⟩
  exact readFd_size_le hb.wf (hb.readableBytes_lt hr.1) hb.size hr.2.2 hbuf

/-- A frame of 1600 bytes, more than the vector has room for at first. -/
def largeFrame : List UInt8 := [0x40, 0x06, 0, 0] ++ List.replicate 1596 1

def largeFrameReads : List ReadvResult := [.bytes (largeFrame.take 1500), .bytes (largeFrame.drop 1500)]

theorem frameStart_largeFrame {k : ℕ} (h : FrameStart largeFrame k) : k = 0 ∨ k = 1600 := by
  induction h with
  | zero => exact .inl rfl
  | next _ hheader _ _ ih =>
    obtain rfl | rfl := ih
    · exact .inr (by decide +kernel)
    · exact absurd hheader (by decide +kernel)

theorem receive_memory_grows :
    ∃ s, runFrom Reception.handleRead start largeFrameReads = some s ∧ s.inputBuffer.readableBytes = 0 ∧
      kInitialSize < s.inputBuffer.buffer.length ∧ s.inputBuffer.buffer.length ≤ 262152 := by
  have hstream : NonZeroLengths largeFrame := by
    intro k hk hheader
    obtain rfl | rfl := frameStart_largeFrame hk
    · decide +kernel
    · exact absurd hheader (by decide +kernel)
  have hall : largeFrameReads.flatMap bytesRead <+: largeFrame := by
    simp [largeFrameReads, bytesRead, List.take_append_drop]
  have hreads : Meets Reception.handleRead Reads start largeFrameReads := by decide +kernel
  have hgrows : (runFrom Reception.handleRead start largeFrameReads).all (fun s =>
      decide (s.inputBuffer.readableBytes = 0 ∧ kInitialSize < s.inputBuffer.buffer.length)) = true := by
    decide +kernel
  obtain ⟨s, hrun, hsize, -⟩ := receive_memory_bounded hstream hall hreads
  rw [hrun, Option.all_some, decide_eq_true_eq] at hgrows
  exact ⟨s, hrun, hgrows.1, hgrows.2, hsize⟩

end Chater.Protocol
