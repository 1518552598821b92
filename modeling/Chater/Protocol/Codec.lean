import Chater.Foundations.Framing
import Chater.Base.RingBuffer
import Chater.Protocol.Packet

/-! # The server's codec

`Codec::OnMessage`, `Encode` and `SendPacket` (`HPGateway/src/protocol/Codec.cpp`).

`iteration` is one pass of the decode loop over the receive buffer and `onMessageLoop` the loop with an
explicit bound on its passes, `none` when the bound is used up: the loop has no bound of its own, and
whether it needs one is a question about the input. The codec is the gateway's, built with a callback
set (`GatewayServer` binds `OnPacket`); a result lists the packets handed to it and the length for which
`ForceClose` was called.

`frames` is the same format as a decoder of byte strings. `iteration_spec` says that one pass on a
buffer is one verdict on the bytes it holds, and `onMessageLoop_of_walk` and `walk_of_onMessageLoop`
that the loop is a walk of that decoder. -/
namespace Chater.Protocol
open Base Framing PacketHeader
set_option autoImplicit false

/-- The largest length field `OnMessage` and `RecvPacket` accept. -/
def kMaxLength : ℕ := 64 * 1024

namespace Codec

/-! ## The loop -/

inductive Iteration
  | wait
  | invalidLength (len : ℕ)
  | deliver (packet : Packet) (buf : RingBuffer)
deriving DecidableEq

def iteration (buf : RingBuffer) : Option Iteration :=
  if kHeaderLength ≤ buf.readableBytes then
    let header := ofBytes (buf.peek kHeaderLength)
    let len := header.length.toNat
    if kMaxLength < len then some (.invalidLength len)
    else if len ≤ buf.readableBytes then
      let body := if kHeaderLength < len then (buf.peek len).drop kHeaderLength else []
      (buf.retrieve len).map fun buf' => .deliver ⟨header, body⟩ buf'
    else some .wait
  else some .wait

structure Result where
  buf : RingBuffer
  delivered : List Packet
  invalidLength : Option ℕ
deriving DecidableEq

def onMessageLoop : ℕ → RingBuffer → Option Result
  | 0, _ => none
  | fuel + 1, buf =>
    match iteration buf with
    | none => none
    | some .wait => some ⟨buf, [], none⟩
    | some (.invalidLength len) => some ⟨buf, [], some len⟩
    | some (.deliver packet buf') =>
      (onMessageLoop fuel buf').map fun r => { r with delivered := packet :: r.delivered }

/-- `OnMessage`. The bound is enough for every buffer on which the loop ends at all
(`onMessage_of_walk`), so `none` means that it does not. -/
def onMessage (buf : RingBuffer) : Option Result := onMessageLoop (buf.readableBytes + 1) buf

/-! ## Sending -/

/-- `Encode`; the length field is computed in `uint32_t`. -/
def encode (cmd : UInt16) (seq : UInt32) (data : List UInt8) : Packet where
  header := ⟨UInt32.ofNat kHeaderLength + UInt32.ofNat data.length, cmd, 0, seq⟩
  body := data

def sendPacket (p : Packet) : Option (List UInt8) :=
  if kHeaderLength ≤ p.totalLength.toNat then do
    let buf ← (RingBuffer.ofSize 1024).append p.header.toBytes
    let buf ← (if p.body.isEmpty then some buf else buf.append p.body)
    let (bytes, _) ← buf.retrieveAllAsString
    some bytes
  else none

theorem sendPacket_eq {p : Packet} (h : kHeaderLength ≤ p.totalLength.toNat) : sendPacket p = some p.serialise := by
  obtain ⟨b1, h1, hq1⟩ := (RingBuffer.ofSize_holds 1024).append p.header.toBytes
  have hlast : ∃ b2, (if p.body.isEmpty then some b1 else b1.append p.body) = some b2 ∧ b2.Holds p.serialise := by
    by_cases he : p.body = []
    · refine ⟨b1, by simp [he], ?_⟩
      simpa [Packet.serialise, he] using hq1
    · obtain ⟨b2, h2, hq2⟩ := hq1.append p.body
      exact ⟨b2, by simp [he, h2], hq2⟩
  obtain ⟨b2, h2, hq2⟩ := hlast
  obtain ⟨b3, h3, -⟩ := hq2.retrieveAsString hq2.readableBytes_eq.le
  rw [List.take_of_length_le hq2.readableBytes_eq.ge] at h3
  rw [sendPacket, if_pos h]
  simp only [h1, h2, h3, RingBuffer.retrieveAllAsString, Option.bind_eq_bind, Option.bind_some]

theorem encode_length {data : List UInt8} (cmd : UInt16) (seq : UInt32)
    (h : kHeaderLength + data.length < 2 ^ 32) :
    (encode cmd seq data).header.length.toNat = kHeaderLength + data.length := by
  have h12 : (UInt32.ofNat kHeaderLength).toNat = kHeaderLength := by decide
  have hd : (UInt32.ofNat data.length).toNat = data.length := by
    rw [UInt32.toNat_ofNat', Nat.mod_eq_of_lt (by omega)]
  simp only [encode, UInt32.toNat_add, h12, hd]
  exact Nat.mod_eq_of_lt h

/-! ## The format as a decoder of byte strings -/

def frameVerdict (q : List UInt8) : Verdict Packet :=
  if q.length < kHeaderLength then .more
  else if kMaxLength < lengthField q then .reject
  else if lengthField q ≤ q.length then
    .item ⟨ofBytes q, (q.take (lengthField q)).drop kHeaderLength⟩ (lengthField q)
  else .more

theorem frameVerdict_item_iff {q : List UInt8} {p : Packet} {n : ℕ} :
    frameVerdict q = .item p n ↔ kHeaderLength ≤ q.length ∧ lengthField q ≤ kMaxLength ∧
      lengthField q ≤ q.length ∧ p = ⟨ofBytes q, (q.take n).drop kHeaderLength⟩ ∧ n = lengthField q := by
  unfold frameVerdict
  split_ifs with h1 h2 h3
  · simp [h1]
  · simp [h2]
  · simp only [Verdict.item.injEq]
    constructor
    · rintro ⟨rfl, rfl⟩
      exact ⟨by omega, by omega, h3, rfl, rfl⟩
    · rintro ⟨-, -, -, hp, rfl⟩
      exact ⟨hp.symm, rfl⟩
  · simp [h3]

theorem frameVerdict_reject_iff {q : List UInt8} :
    frameVerdict q = .reject ↔ kHeaderLength ≤ q.length ∧ kMaxLength < lengthField q := by
  unfold frameVerdict
  split_ifs with h1 h2 h3
  · simp [h1]
  · simp [h2, Nat.le_of_not_lt h1]
  · simp [h2]
  · simp [h2]

theorem ofBytes_append {q : List UInt8} (h : kHeaderLength ≤ q.length) (ys : List UInt8) :
    ofBytes (q ++ ys) = ofBytes q := by
  have ht := ofBytes_take (q ++ ys) le_rfl
  rw [List.take_append_of_le_length h, ofBytes_take q le_rfl] at ht
  exact ht.symm

theorem lengthField_append_header {q : List UInt8} (h : kHeaderLength ≤ q.length) (ys : List UInt8) :
    lengthField (q ++ ys) = lengthField q :=
  lengthField_append (le_trans (by decide) h) ys

theorem frameVerdict_item_le (xs : List UInt8) (p : Packet) (n : ℕ) (h : frameVerdict xs = .item p n) :
    n ≤ xs.length := by
  obtain ⟨-, -, hle, -, rfl⟩ := frameVerdict_item_iff.mp h
  exact hle

theorem frameVerdict_item_append (xs ys : List UInt8) (p : Packet) (n : ℕ) (h : frameVerdict xs = .item p n) :
    frameVerdict (xs ++ ys) = .item p n := by
  obtain ⟨hh, hmax, hle, rfl, rfl⟩ := frameVerdict_item_iff.mp h
  refine frameVerdict_item_iff.mpr ⟨by rw [List.length_append]; omega, ?_, ?_, ?_, ?_⟩
  · rwa [lengthField_append_header hh]
  · rw [lengthField_append_header hh, List.length_append]
    omega
  · rw [ofBytes_append hh, List.take_append_of_le_length hle]
  · rw [lengthField_append_header hh]

theorem frameVerdict_reject_append (xs ys : List UInt8) (h : frameVerdict xs = .reject) :
    frameVerdict (xs ++ ys) = .reject := by
  obtain ⟨hh, hmax⟩ := frameVerdict_reject_iff.mp h
  refine frameVerdict_reject_iff.mpr ⟨by rw [List.length_append]; omega, ?_⟩
  rwa [lengthField_append_header hh]

def frames : Decoder UInt8 Packet where
  verdict := frameVerdict
  item_le := frameVerdict_item_le
  item_append := frameVerdict_item_append
  reject_append := frameVerdict_reject_append

theorem frames_verdict (q : List UInt8) : frames.verdict q = frameVerdict q := rfl

/-! ## The loop is a walk -/

def Reads (buf : RingBuffer) (q : List UInt8) : Verdict Packet → Prop
  | .more => iteration buf = some .wait
  | .reject => iteration buf = some (.invalidLength (lengthField q))
  | .item p n => ∃ buf', iteration buf = some (.deliver p buf') ∧ buf'.Holds (q.drop n)

theorem iteration_spec {buf : RingBuffer} {q : List UInt8} (h : buf.Holds q) : Reads buf q (frameVerdict q) := by
  have hr := h.readableBytes_eq
  unfold frameVerdict
  by_cases h12 : q.length < kHeaderLength
  · rw [if_pos h12]
    show iteration buf = some .wait
    rw [iteration, if_neg (by omega)]
  · have hpeek : ofBytes (buf.peek kHeaderLength) = ofBytes q := by
      rw [h.peek_eq (by omega), ofBytes_take q le_rfl]
    rw [if_neg h12]
    by_cases hmax : kMaxLength < lengthField q
    · rw [if_pos hmax]
      show iteration buf = some (.invalidLength (lengthField q))
      simp only [iteration, hpeek, ofBytes_length_toNat]
      rw [if_pos (by omega), if_pos hmax]
    · rw [if_neg hmax]
      by_cases hle : lengthField q ≤ q.length
      · rw [if_pos hle]
        obtain ⟨buf', hb', hq'⟩ := h.retrieve hle
        refine ⟨buf', ?_, hq'⟩
        simp only [iteration, hpeek, ofBytes_length_toNat]
        rw [if_pos (by omega), if_neg hmax, if_pos (by omega), hb', h.peek_eq hle, Option.map_some]
        congr 3
        split_ifs with hbody
        · rfl
        · rw [List.drop_eq_nil_of_le (by rw [List.length_take]; omega)]
      · rw [if_neg hle]
        show iteration buf = some .wait
        simp only [iteration, hpeek, ofBytes_length_toNat]
        rw [if_pos (by omega), if_neg hmax, if_neg (by omega)]

def stopLength (rest : List UInt8) : Option ℕ :=
  if frameVerdict rest = .reject then some (lengthField rest) else none

theorem onMessageLoop_of_stuck {buf : RingBuffer} {q : List UInt8} (h : buf.Holds q) (hs : Stuck frames q) (fuel : ℕ) :
    onMessageLoop (fuel + 1) buf = some ⟨buf, [], stopLength q⟩ := by
  have hspec := iteration_spec h
  rcases stuck_iff.mp hs with hv | hv
  · replace hv : frameVerdict q = .more := hv
    rw [hv] at hspec
    replace hspec : iteration buf = some .wait := hspec
    simp [onMessageLoop, hspec, stopLength, hv]
  · replace hv : frameVerdict q = .reject := hv
    rw [hv] at hspec
    replace hspec : iteration buf = some (.invalidLength (lengthField q)) := hspec
    simp [onMessageLoop, hspec, stopLength, hv]

theorem onMessageLoop_of_walk {buf : RingBuffer} {q rest : List UInt8} {items : List Packet} (h : buf.Holds q)
    (hw : Walk frames q items rest) (hs : Stuck frames rest) {fuel : ℕ} (hf : items.length < fuel) :
    ∃ buf', onMessageLoop fuel buf = some ⟨buf', items, stopLength rest⟩ ∧ buf'.Holds rest := by
  obtain ⟨fuel, rfl⟩ : ∃ k, fuel = k + 1 := ⟨fuel - 1, by omega⟩
  induction hw generalizing buf fuel with
  | nil q => exact ⟨buf, onMessageLoop_of_stuck h hs fuel, h⟩
  | @cons q rest p n items hv _ ih =>
    have hspec := iteration_spec h
    replace hv : frameVerdict q = .item p n := hv
    rw [hv] at hspec
    obtain ⟨buf1, hit, hq1⟩ := hspec
    rw [List.length_cons] at hf
    obtain ⟨fuel, rfl⟩ : ∃ k, fuel = k + 1 := ⟨fuel - 1, by omega⟩
    obtain ⟨buf', hloop, hq'⟩ := ih hq1 hs fuel (by omega)
    refine ⟨buf', ?_, hq'⟩
    rw [onMessageLoop, hit]
    simp only [hloop, Option.map_some]

theorem walk_of_onMessageLoop {fuel : ℕ} {buf : RingBuffer} {q : List UInt8} {r : Result} (h : buf.Holds q)
    (hr : onMessageLoop fuel buf = some r) :
    ∃ rest, Walk frames q r.delivered rest ∧ Stuck frames rest ∧ r.buf.Holds rest ∧
      r.invalidLength = stopLength rest := by
  induction fuel generalizing buf q r with
  | zero => cases hr
  | succ fuel ih =>
    cases hv : frameVerdict q with
    | more =>
      rw [onMessageLoop_of_stuck h (stuck_of_more hv)] at hr
      obtain rfl := Option.some.inj hr
      exact ⟨q, .nil q, stuck_of_more hv, h, rfl⟩
    | reject =>
      rw [onMessageLoop_of_stuck h (stuck_of_reject hv)] at hr
      obtain rfl := Option.some.inj hr
      exact ⟨q, .nil q, stuck_of_reject hv, h, rfl⟩
    | item p n =>
      have hspec := iteration_spec h
      rw [hv] at hspec
      obtain ⟨buf1, hit, hq1⟩ := hspec
      rw [onMessageLoop, hit] at hr
      obtain ⟨r1, hr1, rfl⟩ := Option.map_eq_some_iff.mp hr
      obtain ⟨rest, hw, hs, hb, hlen⟩ := ih hq1 hr1
      exact ⟨rest, .cons hv hw, hs, hb, hlen⟩

theorem onMessage_of_walk {buf : RingBuffer} {q rest : List UInt8} {items : List Packet} (h : buf.Holds q)
    (hw : Walk frames q items rest) (hs : Stuck frames rest) :
    ∃ buf', onMessage buf = some ⟨buf', items, stopLength rest⟩ ∧ buf'.Holds rest := by
  have hpos : ∀ a r, Walk frames q a r → ∀ x n, frames.verdict r = .item x n → 0 < n := by
    intro a r hr x n hv
    rcases Nat.eq_zero_or_pos n with rfl | hn
    · exact absurd hv (hw.no_empty hs hr)
    · exact hn
  have hlen := hw.length_add_le hpos
  apply onMessageLoop_of_walk h hw hs
  rw [h.readableBytes_eq]
  omega

end Codec
end Chater.Protocol
