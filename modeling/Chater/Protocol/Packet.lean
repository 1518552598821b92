import Chater.Foundations.LittleEndian
import Chater.Foundations.Memory

/-! # Packets

`PacketHeader` and `Packet` (`HPGateway/src/protocol/Packet.h`). The header struct is packed and is
copied to and from the wire as it lies in memory, so its bytes are the four little-endian fields of an
x86-64 host, in order. -/
namespace Chater.Protocol
open LittleEndian Memory
set_option autoImplicit false

structure PacketHeader where
  length : UInt32
  cmd : UInt16
  flag : UInt16
  seq : UInt32
deriving DecidableEq

namespace PacketHeader

def kHeaderLength : ℕ := 12

def toBytes (h : PacketHeader) : List UInt8 :=
  toLE 4 h.length.toNat ++ (toLE 2 h.cmd.toNat ++ (toLE 2 h.flag.toNat ++ toLE 4 h.seq.toNat))

/-- The header read through a `PacketHeader*` at the start of `bytes`. -/
def ofBytes (bytes : List UInt8) : PacketHeader where
  length := UInt32.ofNat (ofLE (slice bytes 0 4))
  cmd := UInt16.ofNat (ofLE (slice bytes 4 2))
  flag := UInt16.ofNat (ofLE (slice bytes 6 2))
  seq := UInt32.ofNat (ofLE (slice bytes 8 4))

@[simp] theorem toBytes_length (h : PacketHeader) : h.toBytes.length = kHeaderLength := by
  simp [toBytes, kHeaderLength]

theorem ofBytes_toBytes_append (h : PacketHeader) (rest : List UInt8) : ofBytes (h.toBytes ++ rest) = h := by
  have h32 : ∀ x : UInt32, UInt32.ofNat (ofLE (toLE 4 x.toNat)) = x := by
    intro x
    rw [ofLE_toLE_of_lt (by have := x.toNat_lt; omega), UInt32.ofNat_toNat]
  have h16 : ∀ x : UInt16, UInt16.ofNat (ofLE (toLE 2 x.toNat)) = x := by
    intro x
    rw [ofLE_toLE_of_lt (by have := x.toNat_lt; omega), UInt16.ofNat_toNat]
  have hlen : slice (h.toBytes ++ rest) 0 4 = toLE 4 h.length.toNat := by
    simpa [toBytes] using slice_middle [] (toLE 4 h.length.toNat)
      (toLE 2 h.cmd.toNat ++ (toLE 2 h.flag.toNat ++ (toLE 4 h.seq.toNat ++ rest)))
  have hcmd : slice (h.toBytes ++ rest) 4 2 = toLE 2 h.cmd.toNat := by
    simpa [toBytes] using slice_middle (toLE 4 h.length.toNat) (toLE 2 h.cmd.toNat)
      (toLE 2 h.flag.toNat ++ (toLE 4 h.seq.toNat ++ rest))
  have hflag : slice (h.toBytes ++ rest) 6 2 = toLE 2 h.flag.toNat := by
    simpa [toBytes] using slice_middle (toLE 4 h.length.toNat ++ toLE 2 h.cmd.toNat) (toLE 2 h.flag.toNat)
      (toLE 4 h.seq.toNat ++ rest)
  have hseq : slice (h.toBytes ++ rest) 8 4 = toLE 4 h.seq.toNat := by
    simpa [toBytes] using slice_middle (toLE 4 h.length.toNat ++ (toLE 2 h.cmd.toNat ++ toLE 2 h.flag.toNat))
      (toLE 4 h.seq.toNat) rest
  simp only [ofBytes, hlen, hcmd, hflag, hseq, h32, h16]

theorem toBytes_ofBytes {bytes : List UInt8} (h : kHeaderLength ≤ bytes.length) :
    (ofBytes bytes).toBytes = bytes.take kHeaderLength := by
  have hfield : ∀ i w, i + w ≤ kHeaderLength → toLE w (ofLE (slice bytes i w)) = slice bytes i w := by
    intro i w hw
    have e := toLE_ofLE (slice bytes i w)
    rwa [slice_length (by omega)] at e
  have hlt : ∀ i w, ofLE (slice bytes i w) < 256 ^ w := by
    intro i w
    have hl : (slice bytes i w).length ≤ w := List.length_take_le _ _
    exact (ofLE_lt _).trans_le (Nat.pow_le_pow_right (by decide) hl)
  have h32 : ∀ i, (UInt32.ofNat (ofLE (slice bytes i 4))).toNat = ofLE (slice bytes i 4) := by
    intro i
    rw [UInt32.toNat_ofNat']
    exact Nat.mod_eq_of_lt (hlt i 4)
  have h16 : ∀ i, (UInt16.ofNat (ofLE (slice bytes i 2))).toNat = ofLE (slice bytes i 2) := by
    intro i
    rw [UInt16.toNat_ofNat']
    exact Nat.mod_eq_of_lt (hlt i 2)
  simp only [toBytes, ofBytes, h32, h16]
  rw [hfield 0 4 (by decide), hfield 4 2 (by decide), hfield 6 2 (by decide), hfield 8 4 (by decide),
    slice_append_slice bytes 6 2 4, slice_append_slice bytes 4 2 6, slice_append_slice bytes 0 4 8]
  rfl

theorem ofBytes_take {n : ℕ} (bytes : List UInt8) (hn : kHeaderLength ≤ n) :
    ofBytes (bytes.take n) = ofBytes bytes := by
  have hs : ∀ i k, i + k ≤ kHeaderLength → slice (bytes.take n) i k = slice bytes i k := by
    intro i k hik
    unfold slice
    rw [List.drop_take, List.take_take, Nat.min_eq_left (by omega)]
  simp only [ofBytes, hs _ _ (by decide : 0 + 4 ≤ kHeaderLength), hs _ _ (by decide : 4 + 2 ≤ kHeaderLength),
    hs _ _ (by decide : 6 + 2 ≤ kHeaderLength), hs _ _ (by decide : 8 + 4 ≤ kHeaderLength)]

end PacketHeader

open PacketHeader

def lengthField (bytes : List UInt8) : ℕ := ofLE (bytes.take 4)

theorem lengthField_lt (bytes : List UInt8) : lengthField bytes < 2 ^ 32 := by
  have h := ofLE_lt (bytes.take 4)
  have hl : (bytes.take 4).length ≤ 4 := List.length_take_le _ _
  have hp : 256 ^ (bytes.take 4).length ≤ 256 ^ 4 := Nat.pow_le_pow_right (by decide) hl
  unfold lengthField
  omega

theorem ofBytes_length_toNat (bytes : List UInt8) : (ofBytes bytes).length.toNat = lengthField bytes := by
  have h := lengthField_lt bytes
  have e : slice bytes 0 4 = bytes.take 4 := rfl
  unfold lengthField at h ⊢
  rw [ofBytes, e, UInt32.toNat_ofNat', Nat.mod_eq_of_lt h]

theorem lengthField_append {bytes : List UInt8} (hb : 4 ≤ bytes.length) (rest : List UInt8) :
    lengthField (bytes ++ rest) = lengthField bytes := by
  rw [lengthField, List.take_append_of_le_length hb, lengthField]

structure Packet where
  header : PacketHeader
  body : List UInt8
deriving DecidableEq

namespace Packet

def totalLength (p : Packet) : UInt32 := p.header.length

def isValid (p : Packet) : Bool := decide (kHeaderLength ≤ p.header.length.toNat)

/-- The bytes of a packet on the wire: the header as it lies in memory, then the body. -/
def serialise (p : Packet) : List UInt8 := p.header.toBytes ++ p.body

@[simp] theorem serialise_length (p : Packet) : p.serialise.length = kHeaderLength + p.body.length := by
  rw [serialise, List.length_append, toBytes_length]

end Packet
end Chater.Protocol
