import Chater.ApiCli.ApiClient
import Chater.Protocol.Reassembly
import Chater.Protocol.Termination

/-! # The two decoders of the wire format

The server decodes a growing buffer with `Codec::OnMessage`, the client reads exactly what it needs with
`ApiClient::RecvPacket`. Both bound the length field by 64 KiB; only the client also requires it to cover the
header. `agree_iff` states on the bytes alone when that difference shows: the decoders accept the same packets
and reject at the same offset exactly if every complete header at a frame start has a length field of at least
12. A shorter one the server delivers as a packet that is not valid. -/
namespace Chater.ApiCli
open Protocol Framing PacketHeader ClientSocket
set_option autoImplicit false

def view (p : Packet) : UInt16 × UInt16 × UInt32 × List UInt8 := (p.header.cmd, p.header.flag, p.header.seq, p.body)

/-- The stream offset of the header for which `ForceClose` was called. -/
def serverRejectOffset (total : ℕ) (s : Receiver) : Option ℕ :=
  if s.forceCloses = [] then none else some (total - s.buf.readableBytes)

/-- The stream offset of the header with the invalid length; `RecvPacket` has consumed the header itself. -/
def clientRejectOffset (total : ℕ) (r : Run) : Option ℕ :=
  match r.last with
  | .invalidLength _ => some (total - (r.sock.avail.length + kHeaderLength))
  | _ => none

/-- Server and client make the same of the stream: `OnMessage`, run after each of the chunks, delivers what
repeated `RecvPacket` calls accept, both reject at the same offset or neither does, and every packet delivered
is valid and consumes exactly its header and body. -/
def Agree (initialSize : ℕ) (chunks : List Chunk) (sock : ClientSocket) : Prop :=
  ∃ s fuel r, (Receiver.init initialSize).feed chunks = some s ∧ recvPackets fuel sock = some r ∧
    s.received.map view = r.accepted.map view ∧
    serverRejectOffset (bytesOf chunks).length s = clientRejectOffset (bytesOf chunks).length r ∧
    (∀ p ∈ s.received, p.isValid = true ∧ p.header.length.toNat = kHeaderLength + p.body.length) ∧
    bytesOf chunks = wire s.received ++ s.buf.content

def HeadersCovered (q : List UInt8) : Prop :=
  ∀ k, FrameStart q k → k + kHeaderLength ≤ q.length → kHeaderLength ≤ lengthField (q.drop k)

theorem HeadersCovered.of_walk {q rest : List UInt8} {items : List Packet} (h : HeadersCovered q)
    (hw : Walk Codec.frames q items rest) : rest.length < kHeaderLength ∨ kHeaderLength ≤ lengthField rest := by
  obtain ⟨k, hk, rfl⟩ := frameStart_of_walk hw
  have hle := hk.le
  by_cases h12 : k + kHeaderLength ≤ q.length
  · exact .inr (h k hk h12)
  · refine .inl ?_
    rw [List.length_drop]
    omega

theorem HeadersCovered.item_pos {q rest : List UInt8} {items : List Packet} (h : HeadersCovered q)
    (hw : Walk Codec.frames q items rest) {p : Packet} {n : ℕ} (hv : Codec.frames.verdict rest = .item p n) : 0 < n := by
  obtain ⟨h12, -, -, -, rfl⟩ := Codec.frameVerdict_item_iff.mp hv
  have := h.of_walk hw
  unfold kHeaderLength at *
  omega

theorem serialise_item {q : List UInt8} {p : Packet} {n : ℕ} (hv : Codec.frameVerdict q = .item p n)
    (hn : kHeaderLength ≤ n) : p.isValid = true ∧ p.header.length.toNat = kHeaderLength + p.body.length ∧
      q = p.serialise ++ q.drop n := by
  obtain ⟨h12, -, hle, rfl, rfl⟩ := Codec.frameVerdict_item_iff.mp hv
  have hlen : (ofBytes q).length.toNat = lengthField q := ofBytes_length_toNat q
  refine ⟨?_, ?_, ?_⟩
  · simpa [Packet.isValid, hlen] using hn
  · simp only [List.length_drop, List.length_take, hlen]
    omega
  · have hhead : (q.take (lengthField q)).take kHeaderLength = q.take kHeaderLength := by
      rw [List.take_take, Nat.min_eq_left hn]
    rw [Packet.serialise, toBytes_ofBytes h12, ← hhead, List.take_append_drop, List.take_append_drop]

theorem HeadersCovered.items_valid {q rest : List UInt8} {items : List Packet} (h : HeadersCovered q)
    (hw : Walk Codec.frames q items rest) :
    (∀ p ∈ items, p.isValid = true ∧ p.header.length.toNat = kHeaderLength + p.body.length) ∧
      q = wire items ++ rest := by
  -- the condition is on all of `q`; along the walk only what it says of the headers still to come is used
  have hreach : ∀ a r, Walk Codec.frames q a r → r.length < kHeaderLength ∨ kHeaderLength ≤ lengthField r :=
    fun a r hr => h.of_walk hr
  clear h
  induction hw with
  | nil q => exact ⟨by simp, by simp [wire]⟩
  | @cons q rest p n items hv _ ih =>
    obtain ⟨h12, -, -, -, hlen⟩ := Codec.frameVerdict_item_iff.mp hv
    have hn : kHeaderLength ≤ n := by
      have := hreach [] q (.nil q)
      omega
    obtain ⟨hvalid, hsize, hsplit⟩ := serialise_item hv hn
    obtain ⟨hall, hrest⟩ := ih (fun a r hr => hreach (p :: a) r (.cons hv hr))
    refine ⟨?_, ?_⟩
    · intro p' hp'
      rcases List.mem_cons.mp hp' with rfl | hp'
      · exact ⟨hvalid, hsize⟩
      · exact hall p' hp'
    · calc q = p.serialise ++ q.drop n := hsplit
        _ = p.serialise ++ (wire items ++ rest) := by rw [← hrest]
        _ = wire (p :: items) ++ rest := by simp [wire]

theorem HeadersCovered.client_walk {q rest : List UInt8} {items : List Packet} (h : HeadersCovered q)
    (hw : Walk Codec.frames q items rest) : Walk clientFrames q items rest :=
  hw.congr fun _ _ hr => clientVerdict_eq (h.of_walk hr)

theorem HeadersCovered.agree {initialSize : ℕ} {chunks : List Chunk} {sock : ClientSocket}
    (h : HeadersCovered (bytesOf chunks)) (hsock : sock.avail = bytesOf chunks) (hs : sock.Steady) :
    Agree initialSize chunks sock := by
  obtain ⟨items, rest, hw, hstuck⟩ := exists_stuck (D := Codec.frames) (bytesOf chunks)
    (fun _ _ hr _ _ hv => h.item_pos hr hv)
  obtain ⟨s, hfeed, rfl, hbuf, hfc⟩ := Receiver.feed_of_walk initialSize hw hstuck
  have hclient : clientVerdict rest = Codec.frameVerdict rest := clientVerdict_eq (h.of_walk hw)
  have hstuck' : Stuck clientFrames rest := by
    intro x n hx
    rw [clientFrames_verdict, hclient] at hx
    exact hstuck x n hx
  have hcw := h.client_walk hw
  rw [← hsock] at hcw
  obtain ⟨r, hrun, hacc, hend⟩ := recvPackets_of_walk hs hcw hstuck' (Nat.lt_succ_self _)
  obtain ⟨hvalid, hsplit⟩ := h.items_valid hw
  refine ⟨s, _, r, hfeed, hrun, by rw [hacc], ?_, hvalid, by rw [hbuf.content_eq]; exact hsplit⟩
  unfold serverRejectOffset clientRejectOffset
  rcases stuck_iff.mp hstuck with hv | hv
  · rw [Codec.frames_verdict] at hv
    rw [if_pos (hfc.mpr (by rw [hv]; simp)), hend.more (hclient.trans hv)]
  · rw [Codec.frames_verdict] at hv
    obtain ⟨hlast, hlen⟩ := hend.reject (hclient.trans hv)
    rw [if_neg (fun hnil => hfc.mp hnil hv), hlast, hbuf.readableBytes_eq, hlen]

/-- **Agreement of the decoders.** For every stream, however it reaches the server in chunks and the client in
`::recv` portions, the decoders agree exactly if every complete header at a frame start covers itself. -/
theorem agree_iff (initialSize : ℕ) (chunks : List Chunk) (sock : ClientSocket) (hsock : sock.avail = bytesOf chunks)
    (hs : sock.Steady) : Agree initialSize chunks sock ↔ HeadersCovered (bytesOf chunks) := by
  constructor
  · rintro ⟨s, fuel, r, hfeed, -, -, -, hvalid, -⟩ k hk h12
    by_contra hshort
    obtain ⟨rest, hw, hstuck, -⟩ := Receiver.walk_of_feed hfeed
    obtain ⟨items, hwk⟩ := hk.walk
    -- the server delivers the short frame as a packet, and that packet is not valid
    have hv : Codec.frames.verdict ((bytesOf chunks).drop k) = .item
        ⟨ofBytes ((bytesOf chunks).drop k), (((bytesOf chunks).drop k).take
          (lengthField ((bytesOf chunks).drop k))).drop kHeaderLength⟩ (lengthField ((bytesOf chunks).drop k)) := by
      have hmax : kHeaderLength ≤ kMaxLength := by decide
      refine Codec.frameVerdict_item_iff.mpr ⟨?_, by omega, ?_, rfl, rfl⟩
      · rw [List.length_drop]
        omega
      · rw [List.length_drop]
        omega
    have hin := (hvalid _ (hwk.mem_of_item hv hw hstuck)).1
    rw [Packet.isValid, decide_eq_true_eq, ofBytes_length_toNat] at hin
    exact hshort hin
  · intro h
    exact h.agree hsock hs

theorem agree_heartbeat : Agree 8 [.append [12, 0, 0, 0, 1], .readFd [240, 0, 0, 7, 0, 0, 0]]
    ⟨[12, 0, 0, 0, 1, 240, 0, 0, 7, 0, 0, 0], [.upTo 4, .upTo 4]⟩ :=
  (agree_iff 8 _ _ (by decide) (by simp [Steady])).mpr (by
    intro k hk h12
    have hlen : (bytesOf [.append [12, 0, 0, 0, 1], .readFd [240, 0, 0, 7, 0, 0, 0]]).length = 12 := by decide
    unfold kHeaderLength at h12
    obtain rfl : k = 0 := by omega
    decide)

/-- A header with length field 11: the server delivers it, the client rejects it. -/
theorem not_agree_short_header : ¬ Agree 16 [.append [11, 0, 0, 0, 1, 0, 0, 0, 7, 0, 0, 0]]
    ⟨[11, 0, 0, 0, 1, 0, 0, 0, 7, 0, 0, 0], []⟩ := by
  rintro ⟨s, fuel, r, hfeed, hrun, hacc, -⟩
  have hs : (Receiver.init 16).feed [.append [11, 0, 0, 0, 1, 0, 0, 0, 7, 0, 0, 0]] =
      some ⟨⟨[11, 0, 0, 0, 1, 0, 0, 0, 7, 0, 0, 0, 0, 0, 0, 0], 11, 12⟩, [⟨⟨11, 1, 0, 7⟩, []⟩], []⟩ := by decide
  obtain rfl := Option.some.inj (hs.symm.trans hfeed)
  cases fuel with
  | zero => cases hrun
  | succ fuel =>
    obtain rfl := Option.some.inj hrun
    cases hacc

end Chater.ApiCli
