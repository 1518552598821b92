import Chater.Protocol.Codec

/-! # Stream reassembly

A receiving connection as the codec sees it: bytes arrive in chunks that are added to one `RingBuffer`,
by `Append` or by `ReadFd`, and `OnMessage` runs after each of them. `feed_of_walk` reduces a whole run to
one walk over the concatenated stream: the cuts, and the resizing, compaction and index resets of the
buffer, leave no trace in what is delivered. For a stream of encoded packets the walk is known, which
gives exact reassembly after every chunk. -/
namespace Chater.Protocol
open Base Framing PacketHeader
set_option autoImplicit false

inductive Chunk
  | append (data : List UInt8)
  | readFd (data : List UInt8)

namespace Chunk

def data : Chunk → List UInt8
  | .append data => data
  | .readFd data => data

def addTo (buf : RingBuffer) : Chunk → Option RingBuffer
  | .append data => buf.append data
  | .readFd data => buf.readFd (.bytes data)

theorem addTo_holds {buf : RingBuffer} {q : List UInt8} (h : buf.Holds q) (c : Chunk) :
    ∃ buf', c.addTo buf = some buf' ∧ buf'.Holds (q ++ c.data) := by
  cases c with
  | append data => exact h.append data
  | readFd data => exact h.readFd data

end Chunk

def bytesOf (chunks : List Chunk) : List UInt8 := chunks.flatMap Chunk.data

theorem bytesOf_concat (chunks : List Chunk) (c : Chunk) : bytesOf (chunks ++ [c]) = bytesOf chunks ++ c.data := by
  simp [bytesOf]

/-- The receive buffer, the packets the callback has got so far, and the lengths for which `OnMessage`
has called `ForceClose`. -/
structure Receiver where
  buf : RingBuffer
  received : List Packet
  forceCloses : List ℕ
deriving DecidableEq

namespace Receiver

def init (initialSize : ℕ) : Receiver := ⟨RingBuffer.ofSize initialSize, [], []⟩

def onChunk (s : Receiver) (c : Chunk) : Option Receiver := do
  let buf ← c.addTo s.buf
  let r ← Codec.onMessage buf
  some ⟨r.buf, s.received ++ r.delivered, s.forceCloses ++ r.invalidLength.toList⟩

def feed : Receiver → List Chunk → Option Receiver
  | s, [] => some s
  | s, c :: cs => do
    let s' ← s.onChunk c
    s'.feed cs

theorem feed_concat (s : Receiver) (cs : List Chunk) (c : Chunk) :
    s.feed (cs ++ [c]) = (s.feed cs).bind (·.onChunk c) := by
  induction cs generalizing s with
  | nil => cases h : s.onChunk c <;> simp [feed, h]
  | cons d cs ih =>
    cases h : s.onChunk d with
    | none => simp [feed, h]
    | some s' => simp [feed, h, ih]

/-! ## One chunk, and a run as one walk -/

theorem onChunk_of_walk {s : Receiver} {rest rest' : List UInt8} {items : List Packet} (h : s.buf.Holds rest)
    (c : Chunk) (hw : Walk Codec.frames (rest ++ c.data) items rest') (hs : Stuck Codec.frames rest') :
    ∃ buf', s.onChunk c = some ⟨buf', s.received ++ items, s.forceCloses ++ (Codec.stopLength rest').toList⟩ ∧
      buf'.Holds rest' := by
  obtain ⟨b1, h1, hq1⟩ := c.addTo_holds h
  obtain ⟨b2, h2, hq2⟩ := Codec.onMessage_of_walk hq1 hw hs
  exact ⟨b2, by simp [onChunk, h1, h2], hq2⟩

theorem exists_stuck_of_append {xs ys rest : List UInt8} {items : List Packet}
    (hw : Walk Codec.frames (xs ++ ys) items rest) (hs : Stuck Codec.frames rest) :
    ∃ a r, Walk Codec.frames xs a r ∧ Stuck Codec.frames r := by
  apply exists_stuck
  intro a r hr x n hv
  rcases Nat.eq_zero_or_pos n with rfl | hn
  · exact absurd (Codec.frames.item_append _ ys _ _ hv) (hw.no_empty hs (hr.append ys))
  · exact hn

/-- **A run is a walk.** Whatever the cuts, the run delivers the packets of the concatenated stream, keeps
its unread rest, and has called `ForceClose` exactly if the stream is rejected there. -/
theorem feed_of_walk (initialSize : ℕ) {chunks : List Chunk} {items : List Packet} {rest : List UInt8}
    (hw : Walk Codec.frames (bytesOf chunks) items rest) (hs : Stuck Codec.frames rest) :
    ∃ s, (init initialSize).feed chunks = some s ∧ s.received = items ∧ s.buf.Holds rest ∧
      (s.forceCloses = [] ↔ Codec.frameVerdict rest ≠ .reject) := by
  induction chunks using List.reverseRecOn generalizing items rest with
  | nil =>
    have hnil : Stuck Codec.frames (bytesOf []) := stuck_of_more rfl
    obtain ⟨rfl, rfl⟩ := hw.unique hs (.nil _) hnil
    exact ⟨init initialSize, rfl, rfl, RingBuffer.ofSize_holds initialSize,
      by simp [init, bytesOf, Codec.frameVerdict, kHeaderLength]⟩
  | append_singleton cs c ih =>
    rw [bytesOf_concat] at hw
    obtain ⟨items1, rest1, hw1, hs1⟩ := exists_stuck_of_append hw hs
    obtain ⟨s1, hf1, hrec1, hb1, hfc1⟩ := ih hw1 hs1
    obtain ⟨items2, hw2, rfl⟩ := (hw1.append c.data).continue hw hs
    obtain ⟨buf', hon, hb'⟩ := onChunk_of_walk hb1 c hw2 hs
    refine ⟨_, by rw [feed_concat, hf1, Option.bind_some, hon], by rw [hrec1], hb', ?_⟩
    have hstay : Codec.frameVerdict rest1 = .reject → Codec.frameVerdict rest = .reject := by
      intro hrej
      have hrej' := Codec.frames.reject_append rest1 c.data hrej
      obtain ⟨-, rfl⟩ := hw2.unique hs (.nil _) (stuck_of_reject hrej')
      exact hrej'
    by_cases hrej : Codec.frameVerdict rest = .reject
    · simp [Codec.stopLength, hrej]
    · have hrej1 : Codec.frameVerdict rest1 ≠ .reject := fun h => hrej (hstay h)
      simp [Codec.stopLength, hrej, hfc1.mpr hrej1]

theorem walk_of_feed {initialSize : ℕ} {chunks : List Chunk} {s : Receiver}
    (hf : (init initialSize).feed chunks = some s) :
    ∃ rest, Walk Codec.frames (bytesOf chunks) s.received rest ∧ Stuck Codec.frames rest ∧ s.buf.Holds rest := by
  induction chunks using List.reverseRecOn generalizing s with
  | nil =>
    obtain rfl := Option.some.inj hf
    exact ⟨[], .nil _, stuck_of_more rfl, RingBuffer.ofSize_holds initialSize⟩
  | append_singleton cs c ih =>
    rw [feed_concat] at hf
    obtain ⟨s1, hf1, hon⟩ := Option.bind_eq_some_iff.mp hf
    obtain ⟨rest1, hw1, -, hb1⟩ := ih hf1
    obtain ⟨b1, hadd, hq1⟩ := c.addTo_holds hb1
    simp only [onChunk, hadd, Option.bind_eq_bind, Option.bind_some] at hon
    obtain ⟨r, hr, hs⟩ := Option.bind_eq_some_iff.mp hon
    obtain rfl := Option.some.inj hs
    obtain ⟨rest, hw, hst, hb, -⟩ := Codec.walk_of_onMessageLoop hq1 hr
    rw [bytesOf_concat]
    exact ⟨rest, hw1.extend hw, hst, hb⟩

end Receiver

/-! ## Streams of encoded packets -/

structure Packet.Framed (p : Packet) : Prop where
  length_eq : p.header.length.toNat = kHeaderLength + p.body.length
  length_le : kHeaderLength + p.body.length ≤ kMaxLength

def wire (ps : List Packet) : List UInt8 := ps.flatMap Packet.serialise

/-- The packets whose last byte is among the first `n` bytes of `wire ps`. -/
def arrived : List Packet → ℕ → List Packet
  | [], _ => []
  | p :: ps, n => if p.serialise.length ≤ n then p :: arrived ps (n - p.serialise.length) else []

theorem arrived_subset (ps : List Packet) (n : ℕ) : arrived ps n ⊆ ps := by
  induction ps generalizing n with
  | nil => exact List.nil_subset _
  | cons p ps ih =>
    rw [arrived]
    split_ifs
    · exact List.cons_subset_cons p (ih _)
    · exact List.nil_subset _

theorem Packet.lengthField_serialise (p : Packet) (rest : List UInt8) :
    lengthField (p.serialise ++ rest) = p.header.length.toNat := by
  rw [← ofBytes_length_toNat, Packet.serialise, List.append_assoc, ofBytes_toBytes_append]

theorem Packet.Framed.verdict {p : Packet} (h : p.Framed) (rest : List UInt8) :
    Codec.frames.verdict (p.serialise ++ rest) = .item p p.serialise.length := by
  rw [Codec.frames_verdict]
  have hlen : p.serialise.length = p.header.length.toNat := by rw [Packet.serialise_length, h.length_eq]
  have hmax := h.length_le
  have heq := h.length_eq
  refine Codec.frameVerdict_item_iff.mpr ⟨?_, ?_, ?_, ?_, ?_⟩
  · rw [List.length_append, Packet.serialise_length]
    omega
  · rw [p.lengthField_serialise]
    omega
  · rw [p.lengthField_serialise, List.length_append]
    omega
  · have hdrop : p.serialise.drop kHeaderLength = p.body := by
      rw [Packet.serialise, ← toBytes_length p.header, List.drop_left]
    have hhead : ofBytes (p.serialise ++ rest) = p.header := by
      rw [Packet.serialise, List.append_assoc, ofBytes_toBytes_append]
    rw [List.take_left, hdrop, hhead]
  · rw [p.lengthField_serialise, hlen]

theorem Packet.Framed.verdict_part {p : Packet} (h : p.Framed) {part : List UInt8} (hp : part <+: p.serialise)
    (hlt : part.length < p.serialise.length) : Codec.frameVerdict part = .more := by
  obtain ⟨t, ht⟩ := hp
  unfold Codec.frameVerdict
  by_cases h12 : part.length < kHeaderLength
  · rw [if_pos h12]
  · have hfield : lengthField part = p.header.length.toNat := by
      rw [← Codec.lengthField_append_header (by omega) t, ht]
      have := p.lengthField_serialise []
      rwa [List.append_nil] at this
    have hmax := h.length_le
    have heq := h.length_eq
    rw [Packet.serialise_length] at hlt
    rw [if_neg h12, if_neg (by omega), if_neg (by omega)]

theorem walk_wire {ps : List Packet} (h : ∀ p ∈ ps, p.Framed) (rest : List UInt8) :
    Walk Codec.frames (wire ps ++ rest) ps rest := by
  induction ps with
  | nil => exact .nil rest
  | cons p ps ih =>
    have hp := (h p (List.mem_cons_self ..)).verdict (wire ps ++ rest)
    have hsplit : wire (p :: ps) ++ rest = p.serialise ++ (wire ps ++ rest) := by simp [wire]
    rw [hsplit]
    refine .cons hp ?_
    rw [List.drop_left]
    exact ih (fun p' hp' => h p' (List.mem_cons_of_mem p hp'))

theorem wire_prefix_split {ps : List Packet} (h : ∀ p ∈ ps, p.Framed) {pre : List UInt8} (hpre : pre <+: wire ps) :
    ∃ part, pre = wire (arrived ps pre.length) ++ part ∧ Codec.frameVerdict part = .more ∧
      (pre.length = (wire ps).length → part = []) := by
  induction ps generalizing pre with
  | nil =>
    have hnil : pre = [] := List.prefix_nil.mp hpre
    subst hnil
    exact ⟨[], rfl, rfl, fun _ => rfl⟩
  | cons p ps ih =>
    have hwire : wire (p :: ps) = p.serialise ++ wire ps := by simp [wire]
    rw [hwire] at hpre
    by_cases hle : p.serialise.length ≤ pre.length
    · obtain ⟨pre', rfl⟩ := List.prefix_of_prefix_length_le (List.prefix_append _ _) hpre hle
      have hpre' : pre' <+: wire ps := (List.prefix_append_right_inj _).mp hpre
      obtain ⟨part, hsplit, hmore, hend⟩ := ih (fun p' hp' => h p' (List.mem_cons_of_mem p hp')) hpre'
      have harr : arrived (p :: ps) (p.serialise ++ pre').length = p :: arrived ps pre'.length := by
        rw [arrived, if_pos hle, List.length_append, Nat.add_sub_cancel_left]
      refine ⟨part, ?_, hmore, ?_⟩
      · rw [harr]
        show p.serialise ++ pre' = (p.serialise ++ wire (arrived ps pre'.length)) ++ part
        rw [List.append_assoc, ← hsplit]
      · intro hlen
        rw [hwire, List.length_append, List.length_append] at hlen
        exact hend (by omega)
    · have hpart : pre <+: p.serialise :=
        List.prefix_of_prefix_length_le hpre (List.prefix_append _ _) (by omega)
      refine ⟨pre, ?_, (h p (List.mem_cons_self ..)).verdict_part hpart (by omega), ?_⟩
      · rw [arrived, if_neg hle]
        rfl
      · intro hlen
        rw [hwire, List.length_append] at hlen
        omega

theorem Codec.encode_framed {data : List UInt8} (cmd : UInt16) (seq : UInt32) (h : data.length ≤ 65536 - 12) :
    (Codec.encode cmd seq data).Framed := by
  have hsmall : kHeaderLength + data.length < 2 ^ 32 := by
    unfold kHeaderLength
    omega
  have hlen := Codec.encode_length cmd seq hsmall
  refine ⟨hlen, ?_⟩
  show kHeaderLength + data.length ≤ kMaxLength
  unfold kHeaderLength kMaxLength
  omega

structure Request where
  cmd : UInt16
  seq : UInt32
  data : List UInt8

def Request.packet (m : Request) : Packet := Codec.encode m.cmd m.seq m.data

/-- **Exact reassembly.** Cut the stream of encoded packets anyhow; after each chunk the callback has
received exactly the packets whose last byte has arrived, `ForceClose` was never called, and after the last
chunk the buffer is empty. -/
theorem reassembly_exact (initialSize : ℕ) (sent : List Request) (hlen : ∀ m ∈ sent, m.data.length ≤ 65536 - 12)
    (done todo : List Chunk) (hcut : bytesOf (done ++ todo) = wire (sent.map Request.packet)) :
    (∀ m ∈ sent, Codec.sendPacket m.packet = some m.packet.serialise) ∧
      ∃ s, (Receiver.init initialSize).feed done = some s ∧
        s.received = arrived (sent.map Request.packet) (bytesOf done).length ∧ s.forceCloses = [] ∧
        (todo = [] → s.buf.readableBytes = 0) := by
  have hframed : ∀ p ∈ sent.map Request.packet, p.Framed := by
    intro p hp
    obtain ⟨m, hm, rfl⟩ := List.mem_map.mp hp
    exact Codec.encode_framed m.cmd m.seq (hlen m hm)
  refine ⟨?_, ?_⟩
  · intro m hm
    have hf := (hframed m.packet (List.mem_map_of_mem hm)).length_eq
    apply Codec.sendPacket_eq
    rw [Packet.totalLength, hf]
    exact Nat.le_add_right _ _
  · have hpre : bytesOf done <+: wire (sent.map Request.packet) := by
      rw [← hcut, bytesOf, bytesOf, List.flatMap_append]
      exact List.prefix_append _ _
    obtain ⟨part, hsplit, hmore, hend⟩ := wire_prefix_split hframed hpre
    have harr : ∀ p ∈ arrived (sent.map Request.packet) (bytesOf done).length, p.Framed := by
      intro p hp
      exact hframed p (arrived_subset _ _ hp)
    have hw := walk_wire harr part
    rw [← hsplit] at hw
    obtain ⟨s, hfeed, hrec, hbuf, hfc⟩ := Receiver.feed_of_walk initialSize hw (stuck_of_more hmore)
    refine ⟨s, hfeed, hrec, hfc.mpr (by rw [hmore]; simp), ?_⟩
    rintro rfl
    rw [List.append_nil] at hcut
    rw [hbuf.readableBytes_eq, hend (by rw [hcut])]
    rfl

theorem reassembly_exact_two_packets :
    ∃ s, (Receiver.init 4).feed [.append [13, 0], .readFd [0, 0, 1, 0, 0, 0, 5, 0, 0, 0, 9, 12, 0]] = some s ∧
      s.received = [Codec.encode 1 5 [9]] ∧ s.forceCloses = [] := by
  obtain ⟨-, s, hfeed, hrec, hfc, -⟩ := reassembly_exact 4 [⟨1, 5, [9]⟩, ⟨2, 6, []⟩] (by decide)
    [.append [13, 0], .readFd [0, 0, 1, 0, 0, 0, 5, 0, 0, 0, 9, 12, 0]]
    [.append [0, 0, 2, 0, 0, 0, 6, 0, 0, 0]] (by decide)
  exact ⟨s, hfeed, hrec.trans (by decide), hfc⟩

end Chater.Protocol
