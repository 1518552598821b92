import Chater.ApiCli.ApiClient
import Chater.ApiCli.SendRequest

/-!
# What the encoders may be given

`Codec::OnMessage` and `ApiClient::RecvPacket` accept length fields from 12 to 65536 only, and nothing on the sending
side looks at that limit: `Codec::Encode` and `ApiClient::SendRequest` convert the length of the body to `uint32_t`, and
`SubscribeQuote` and `UnSubscribeQuote` multiply a signed count by the size of one request.  The frames that both ends
accept as they were meant are those of bodies with at most 65524 bytes.
-/

namespace Chater.ApiCli

open Protocol PacketHeader Base ClientSocket

set_option autoImplicit false

/-! ## Subscriptions -/

def kCmdSubscribeReq : UInt16 := 0x0201
def kCmdUnsubscribeReq : UInt16 := 0x0203

def SYMBOL_LEN : ℕ := 32
def EXCHANGE_LEN : ℕ := 16

/-- The size of `SubscribeQuoteRequest` and of `UnSubscribeQuoteRequest`. -/
def quoteRequestSize : ℕ := SYMBOL_LEN + EXCHANGE_LEN

/-- `count * sizeof(...)`: the count is converted to `size_t`, and the product is one. -/
def quoteRequestsLength (count : Int32) : UInt64 := UInt64.ofInt count.toInt * UInt64.ofNat quoteRequestSize

/-- The request of `SubscribeQuote` or `UnSubscribeQuote`, where `req` is the memory from the array of requests on. -/
def quoteRequest (cmd : UInt16) (seq : UInt32) (req : ℕ → UInt8) (count : Int32) : Packet :=
  requestPacket cmd seq ((List.range (quoteRequestsLength count).toNat).map req)

def subscribeQuote : UInt32 → (ℕ → UInt8) → Int32 → Packet := quoteRequest kCmdSubscribeReq

def unSubscribeQuote : UInt32 → (ℕ → UInt8) → Int32 → Packet := quoteRequest kCmdUnsubscribeReq

/-! ## Frames both ends accept -/

/-- The length field counts the bytes of the frame and is in the range of the decoders, and each of them takes the frame
for what it is, whatever follows it. -/
structure WithinLimits (p : Packet) : Prop where
  counts : p.header.length.toNat = p.serialise.length
  range : kHeaderLength ≤ p.header.length.toNat ∧ p.header.length.toNat ≤ kMaxLength
  server : ∀ (rest : List UInt8) (buf : RingBuffer), buf.Holds (p.serialise ++ rest) →
    ∃ buf', Codec.iteration buf = some (.deliver p buf') ∧ buf'.Holds rest
  client : ∀ (rest : List UInt8) (s : ClientSocket), s.Steady → s.avail = p.serialise ++ rest →
    ∃ s', s.recvPacket = (.packet p, s') ∧ s'.avail = rest

theorem iteration_of_framed {p : Packet} (h : p.Framed) {rest : List UInt8} {buf : RingBuffer}
    (hbuf : buf.Holds (p.serialise ++ rest)) :
    ∃ buf', Codec.iteration buf = some (.deliver p buf') ∧ buf'.Holds rest := by
  have hspec := Codec.iteration_spec hbuf
  rw [← Codec.frames_verdict, h.verdict rest] at hspec
  obtain ⟨buf', hit, hholds⟩ := hspec
  rw [List.drop_left] at hholds
  exact ⟨buf', hit, hholds⟩

theorem recvPacket_of_framed {p : Packet} (h : p.Framed) {rest : List UInt8} {s : ClientSocket} (hs : s.Steady)
    (ha : s.avail = p.serialise ++ rest) : ∃ s', s.recvPacket = (.packet p, s') ∧ s'.avail = rest := by
  have hfield : kHeaderLength ≤ lengthField (p.serialise ++ rest) := by
    rw [p.lengthField_serialise, h.length_eq]
    exact Nat.le_add_right _ _
  have hverdict : clientVerdict (p.serialise ++ rest) = .item p p.serialise.length := by
    rw [clientVerdict_eq (.inr hfield), ← Codec.frames_verdict, h.verdict rest]
  have hspec := recvPacket_spec hs
  rw [ha, hverdict] at hspec
  obtain ⟨s', hrecv, -, havail⟩ := hspec
  rw [List.drop_left] at havail
  exact ⟨s', hrecv, havail⟩

theorem withinLimits_iff_framed (p : Packet) : WithinLimits p ↔ p.Framed := by
  constructor
  · intro h
    have hcounts := h.counts
    rw [Packet.serialise_length] at hcounts
    exact ⟨hcounts, hcounts.ge.trans h.range.2⟩
  · intro h
    have hrange : kHeaderLength ≤ p.header.length.toNat := by
      rw [h.length_eq]
      exact Nat.le_add_right _ _
    exact ⟨by rw [h.length_eq, Packet.serialise_length], ⟨hrange, h.length_eq.trans_le h.length_le⟩,
      fun rest buf hbuf => iteration_of_framed h hbuf, fun rest s hs ha => recvPacket_of_framed h hs ha⟩

theorem requestPacket_eq_encode (cmd : UInt16) (seq : UInt32) (data : List UInt8) :
    requestPacket cmd seq data = Codec.encode cmd seq data := rfl

theorem framed_encode_iff (cmd : UInt16) (seq : UInt32) (data : List UInt8) :
    (Codec.encode cmd seq data).Framed ↔ kHeaderLength + data.length ≤ kMaxLength := by
  constructor
  · intro h
    exact h.length_le
  · intro h
    exact ⟨Codec.encode_length cmd seq (h.trans_lt (by decide)), h⟩

theorem quoteRequestsLength_eq (count : Int32) :
    ((quoteRequestsLength count).toNat : ℤ) = count.toInt * quoteRequestSize % 2 ^ 64 := by
  have hsize : (UInt64.ofNat quoteRequestSize).toNat = quoteRequestSize := by decide
  have hcount : ((UInt64.ofInt count.toInt).toNat : ℤ) = count.toInt % 2 ^ 64 := by
    rw [UInt64.ofInt, UInt64.toNat_ofNat']
    omega
  rw [quoteRequestsLength, UInt64.toNat_mul, hsize]
  push_cast
  rw [hcount]
  norm_num [Int.mul_emod]

theorem quoteRequestsLength_le_iff (count : Int32) :
    kHeaderLength + (quoteRequestsLength count).toNat ≤ kMaxLength ↔
      0 ≤ count.toInt ∧ kHeaderLength + count.toInt * quoteRequestSize ≤ kMaxLength := by
  have hlt := count.toInt_lt
  have hge := count.le_toInt
  have hsize : (quoteRequestSize : ℤ) = 48 := rfl
  have heq := quoteRequestsLength_eq count
  rw [hsize] at heq ⊢
  rcases lt_or_ge count.toInt 0 with hneg | hpos
  · -- a negative count becomes a length near `2 ^ 64`
    have hwrap : count.toInt * 48 % 2 ^ 64 = count.toInt * 48 + 2 ^ 64 := by
      rw [← Int.add_emod_right, Int.emod_eq_of_lt (by omega) (by omega)]
    rw [hwrap] at heq
    simp only [kHeaderLength, kMaxLength]
    omega
  · rw [Int.emod_eq_of_lt (by omega) (by omega)] at heq
    simp only [kHeaderLength, kMaxLength]
    omega

theorem quoteRequest_length {count : Int32} (cmd : UInt16) (seq : UInt32) (req : ℕ → UInt8)
    (h : kHeaderLength + (quoteRequestsLength count).toNat < 2 ^ 32) :
    (quoteRequest cmd seq req count).header.length.toNat = kHeaderLength + (quoteRequestsLength count).toNat := by
  have hdata : ((List.range (quoteRequestsLength count).toNat).map req).length = (quoteRequestsLength count).toNat := by
    rw [List.length_map, List.length_range]
  rw [← hdata] at h ⊢
  rw [quoteRequest, requestPacket_eq_encode]
  exact Codec.encode_length cmd seq h

theorem withinLimits_quoteRequest_iff (cmd : UInt16) (seq : UInt32) (req : ℕ → UInt8) (count : Int32) :
    WithinLimits (quoteRequest cmd seq req count) ↔
      0 ≤ count.toInt ∧ kHeaderLength + count.toInt * quoteRequestSize ≤ kMaxLength := by
  rw [withinLimits_iff_framed, quoteRequest, requestPacket_eq_encode, framed_encode_iff, List.length_map,
    List.length_range, quoteRequestsLength_le_iff]

/-- **The frames within the decoders' limits.**  A frame of `Encode` or `SendRequest` is accepted as it was meant
exactly when its body has at most 65524 bytes, and one of `SubscribeQuote` or `UnSubscribeQuote` exactly when the count
is not negative and its requests have no more bytes than that. -/
theorem encoders_withinLimits_iff (cmd : UInt16) (seq : UInt32) (data : List UInt8) (req : ℕ → UInt8) (count : Int32) :
    (WithinLimits (Codec.encode cmd seq data) ↔ kHeaderLength + data.length ≤ kMaxLength) ∧
    (WithinLimits (requestPacket cmd seq data) ↔ kHeaderLength + data.length ≤ kMaxLength) ∧
    (WithinLimits (subscribeQuote seq req count) ↔
      0 ≤ count.toInt ∧ kHeaderLength + count.toInt * quoteRequestSize ≤ kMaxLength) ∧
    (WithinLimits (unSubscribeQuote seq req count) ↔
      0 ≤ count.toInt ∧ kHeaderLength + count.toInt * quoteRequestSize ≤ kMaxLength) := by
  have hencode : WithinLimits (Codec.encode cmd seq data) ↔ kHeaderLength + data.length ≤ kMaxLength := by
    rw [withinLimits_iff_framed, framed_encode_iff]
  refine ⟨hencode, ?_, ?_, ?_⟩
  · rw [requestPacket_eq_encode]
    exact hencode
  · rw [subscribeQuote, withinLimits_quoteRequest_iff]
  · rw [unSubscribeQuote, withinLimits_quoteRequest_iff]

/-- 1366 subscriptions in one request make the server close the connection. -/
theorem not_withinLimits_subscriptions :
    ¬ WithinLimits (subscribeQuote 1 (fun _ => 0) 1366) ∧
      ∀ rest, Codec.frameVerdict ((subscribeQuote 1 (fun _ => 0) 1366).serialise ++ rest) = .reject := by
  have hcount : (quoteRequestsLength 1366).toNat = 65568 := by decide
  have hlength : (subscribeQuote 1 (fun _ => 0) 1366).header.length.toNat = kHeaderLength + 65568 := by
    rw [subscribeQuote, quoteRequest_length _ _ _ (by rw [hcount]; decide), hcount]
  constructor
  · intro h
    have hmax := h.range.2
    rw [hlength] at hmax
    exact absurd hmax (by decide)
  · intro rest
    rw [Codec.frameVerdict_reject_iff, Packet.lengthField_serialise, hlength, List.length_append,
      Packet.serialise_length, Nat.add_assoc]
    exact ⟨Nat.le_add_right _ _, by decide⟩

end Chater.ApiCli
