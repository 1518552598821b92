import Chater.Protocol.Reassembly
import Mathlib.Data.List.GetD

/-!
# The two ways a packet is sent

`Codec::SendPacket` copies the header and the body of a `Packet` into a buffer and sends that.  `ReqLogin`,
`ReqLogout` and the heartbeat answer of `OnPacket` instead pass the address of the `Packet` object and its
`TotalLength()` to `ConnectionManager::SendToClient`, which sends that many bytes of memory from there.  The body is
not in the object: behind the header lie padding, the pointers of the vector, and whatever comes after.
-/

namespace Chater.Gateway

open Base Framing Protocol PacketHeader

set_option autoImplicit false

/-! ## A packet in memory -/

/-- What lies behind the header of a `Packet` object. -/
structure Surroundings where
  padding : Fin 4 → UInt8
  controlWords : Fin 24 → UInt8
  beyond : ℕ → UInt8

def Surroundings.byte (m : Surroundings) (i : ℕ) : UInt8 :=
  if h : i < 4 then m.padding ⟨i, h⟩
  else if h : i - 4 < 24 then m.controlWords ⟨i - 4, h⟩
  else m.beyond (i - 28)

/-- The byte at `&packet + i`. -/
def objectByte (p : Packet) (m : Surroundings) (i : ℕ) : UInt8 :=
  if i < kHeaderLength then p.header.toBytes.getD i 0 else m.byte (i - kHeaderLength)

/-- `SendToClient` to a connection that exists: what `Send(const void*, int)` makes a string of.  A length that is
negative as an `int` is too long for a `std::string`, and the constructor throws. -/
def sendToClient (data : ℕ → UInt8) (len : UInt32) : Option (List UInt8) :=
  if len.toNat < 2 ^ 31 then some ((List.range len.toNat).map data) else none

def kCmdLoginReq : UInt16 := 0x0001
def kCmdLogoutReq : UInt16 := 0x0003
def kCmdHeartbeatRsp : UInt16 := 0xF002

/-- `LoginRequest` is `account[32]` and `password[64]`. -/
def reqLogin (seq : UInt32) (req : Fin 96 → UInt8) (m : Surroundings) : Option (List UInt8) :=
  let packet := Codec.encode kCmdLoginReq seq (List.ofFn req)
  sendToClient (objectByte packet m) packet.totalLength

def reqLogout (seq : UInt32) (req : Fin 32 → UInt8) (m : Surroundings) : Option (List UInt8) :=
  let packet := Codec.encode kCmdLogoutReq seq (List.ofFn req)
  sendToClient (objectByte packet m) packet.totalLength

def heartbeatRsp (packet : Packet) : Packet := ⟨⟨UInt32.ofNat kHeaderLength, kCmdHeartbeatRsp, 0, packet.header.seq⟩, []⟩

/-- What `OnPacket` sends for a heartbeat. -/
def answerHeartbeat (packet : Packet) (m : Surroundings) : Option (List UInt8) :=
  sendToClient (objectByte (heartbeatRsp packet) m) (heartbeatRsp packet).totalLength

/-! ## The bytes sent -/

theorem objectBytes_eq (p : Packet) (m : Surroundings) (n : ℕ) :
    (List.range (kHeaderLength + n)).map (objectByte p m) = p.header.toBytes ++ (List.range n).map m.byte := by
  have hheader : (List.range kHeaderLength).map (objectByte p m) = p.header.toBytes := by
    apply List.ext_getElem
    · simp
    · intro i hi hi'
      have hlt : i < kHeaderLength := by simpa using hi
      rw [List.getElem_map, List.getElem_range, objectByte, if_pos hlt]
      exact List.getD_eq_getElem _ _ hi'
  have hbehind : ((List.range n).map (kHeaderLength + ·)).map (objectByte p m) = (List.range n).map m.byte := by
    rw [List.map_map]
    apply List.map_congr_left
    intro i _
    show objectByte p m (kHeaderLength + i) = m.byte i
    rw [objectByte, if_neg (by omega), Nat.add_sub_cancel_left]
  rw [List.range_add, List.map_append, hheader, hbehind]

/-- The packet sent by address puts on the wire what `SendPacket` sends, the header and the body, and a receiver with
an empty buffer gets the packet from it. -/
def SameOnWire (p : Packet) (m : Surroundings) : Prop :=
  ∃ bytes, sendToClient (objectByte p m) p.totalLength = some bytes ∧ Codec.sendPacket p = some bytes ∧
    bytes = p.serialise ∧
    ∀ buf : RingBuffer, buf.Holds bytes →
      ∃ buf', Codec.onMessage buf = some ⟨buf', [p], none⟩ ∧ buf'.Holds []

theorem onMessage_serialise {p : Packet} (h : p.Framed) {buf : RingBuffer} (hbuf : buf.Holds p.serialise) :
    ∃ buf', Codec.onMessage buf = some ⟨buf', [p], none⟩ ∧ buf'.Holds [] := by
  have hwalk : Walk Codec.frames p.serialise [p] [] := by
    simpa [wire] using walk_wire (List.forall_mem_singleton.mpr h) []
  exact Codec.onMessage_of_walk hbuf hwalk (stuck_of_more (by decide))

/-- The packet that goes out in place of `p`, with the bytes behind the header of the object as its body. -/
def byAddress (p : Packet) (m : Surroundings) : Packet := ⟨p.header, (List.range p.body.length).map m.byte⟩

theorem byAddress_framed {p : Packet} (h : p.Framed) (m : Surroundings) : (byAddress p m).Framed := by
  have hlength : (byAddress p m).body.length = p.body.length := by simp [byAddress]
  exact ⟨by rw [hlength]; exact h.length_eq, by rw [hlength]; exact h.length_le⟩

/-- The header says how many bytes follow, whichever they are. -/
theorem sendToClient_eq {p : Packet} (h : p.Framed) (m : Surroundings) :
    sendToClient (objectByte p m) p.totalLength = some (byAddress p m).serialise := by
  have hint : kMaxLength < 2 ^ 31 := by decide
  have hlt : p.totalLength.toNat < 2 ^ 31 := by
    rw [Packet.totalLength, h.length_eq]
    exact h.length_le.trans_lt hint
  rw [sendToClient, if_pos hlt, Packet.totalLength, h.length_eq, objectBytes_eq]
  rfl

theorem sameOnWire_of_empty {p : Packet} (hlength : p.header.length = UInt32.ofNat kHeaderLength) (hbody : p.body = [])
    (m : Surroundings) : SameOnWire p m := by
  have htotal : p.totalLength.toNat = kHeaderLength := by
    rw [Packet.totalLength, hlength]
    rfl
  have hframed : p.Framed := ⟨by rw [hlength, hbody]; rfl, by rw [hbody]; decide⟩
  have hself : byAddress p m = p := by
    rw [byAddress, hbody]
    exact congrArg (Packet.mk p.header) hbody.symm
  refine ⟨p.serialise, ?_, Codec.sendPacket_eq htotal.ge, rfl, fun buf => onMessage_serialise hframed⟩
  rw [sendToClient_eq hframed, hself]

theorem answerHeartbeat_sameOnWire (packet : Packet) (m : Surroundings) : SameOnWire (heartbeatRsp packet) m :=
  sameOnWire_of_empty rfl rfl m

/-- A packet with a body goes out right only if the first byte of padding is the first byte of the body. -/
theorem padding_of_serialise {p : Packet} {b : UInt8} {body : List UInt8} (hbody : p.body = b :: body)
    {m : Surroundings} (hsend : sendToClient (objectByte p m) p.totalLength = some p.serialise) : m.padding 0 = b := by
  unfold sendToClient at hsend
  split_ifs at hsend
  have hbytes := Option.some.inj hsend
  have hlength : p.totalLength.toNat = kHeaderLength + (body.length + 1) := by
    simpa [hbody] using congrArg List.length hbytes
  rw [hlength, objectBytes_eq, Packet.serialise, hbody] at hbytes
  have htail := List.append_cancel_left hbytes
  rw [List.range_succ_eq_map, List.map_cons] at htail
  exact (List.cons.inj htail).1

theorem padding_of_sameOnWire {p : Packet} {b : UInt8} {body : List UInt8} (hbody : p.body = b :: body)
    {m : Surroundings} (h : SameOnWire p m) : m.padding 0 = b := by
  obtain ⟨bytes, hsend, -, rfl, -⟩ := h
  exact padding_of_serialise hbody hsend

/-- Every login request goes out wrong with some padding. -/
theorem reqLogin_ne_sendPacket (seq : UInt32) (req : Fin 96 → UInt8) (m : Surroundings) :
    ∃ padding, reqLogin seq req { m with padding := padding } ≠
      Codec.sendPacket (Codec.encode kCmdLoginReq seq (List.ofFn req)) := by
  refine ⟨fun _ => req 0 + 1, fun heq => ?_⟩
  have hlength : kHeaderLength ≤ (Codec.encode kCmdLoginReq seq (List.ofFn req)).totalLength.toNat := by
    rw [Packet.totalLength, Codec.encode_length _ _ (by rw [List.length_ofFn]; decide)]
    omega
  rw [Codec.sendPacket_eq hlength] at heq
  exact absurd (padding_of_serialise (List.ofFn_succ (f := req)) heq) (by simp)

/-- **Both ways agree exactly on packets without a body.**  Whatever the vector's control words and the memory behind
the object are, the bytes are the same for all padding if and only if the body is empty. -/
theorem sameOnWire_iff (cmd : UInt16) (seq : UInt32) (data : List UInt8) (controlWords : Fin 24 → UInt8)
    (beyond : ℕ → UInt8) :
    (∀ padding, SameOnWire (Codec.encode cmd seq data) ⟨padding, controlWords, beyond⟩) ↔ data = [] := by
  constructor
  · intro h
    cases data with
    | nil => rfl
    | cons b body =>
      have hpad := padding_of_sameOnWire rfl (h fun _ => b + 1)
      exact absurd hpad (by simp)
  · rintro rfl padding
    exact sameOnWire_of_empty rfl rfl _

/-! ## A logout request -/

/-- The pointers to the begin, the end and the end of the storage of a vector of `size` bytes at the address `begin`. -/
def pointers (begin size : ℕ) (i : Fin 24) : UInt8 :=
  UInt8.ofNat ((if i.val < 8 then begin else begin + size) / 256 ^ (i.val % 8))

/-- A `Packet` whose body is such a vector, with nothing but zeros in the padding and after the object. -/
def bodyAt (begin size : ℕ) : Surroundings := ⟨fun _ => 0, pointers begin size, fun _ => 0⟩

def logoutOfA : Fin 32 → UInt8 := fun i => if i = 0 then 65 else 0

/-- The logout of account `A` goes out with the pointers of its vector and without the account. -/
theorem logout_loses_account :
    reqLogout 1 logoutOfA (bodyAt 0x55d2c0a01eb0 32) =
        some ((Codec.encode kCmdLogoutReq 1 (List.ofFn logoutOfA)).header.toBytes ++
          ([0, 0, 0, 0] ++ [0xb0, 0x1e, 0xa0, 0xc0, 0xd2, 0x55, 0, 0] ++ [0xd0, 0x1e, 0xa0, 0xc0, 0xd2, 0x55, 0, 0] ++
            [0xd0, 0x1e, 0xa0, 0xc0, 0xd2, 0x55, 0, 0] ++ [0, 0, 0, 0])) ∧
      ¬ SameOnWire (Codec.encode kCmdLogoutReq 1 (List.ofFn logoutOfA)) (bodyAt 0x55d2c0a01eb0 32) := by
  refine ⟨by decide, fun h => ?_⟩
  have hpad : (0 : UInt8) = 65 := padding_of_sameOnWire (List.ofFn_succ (f := logoutOfA)) h
  exact absurd hpad (by decide)

end Chater.Gateway
