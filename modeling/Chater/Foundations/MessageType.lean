import Chater.Foundations.LittleEndian
import Mathlib.Tactic

/-!
# Messages with strings in them

What the code generated for a message type gives to its users.  A string field holds any bytes.  `serializeAsString`
writes whatever it is given, and `parseFromArray` reads it back when the strings are UTF-8 and refuses it when they are
not.  How the bytes look is left open; the plain encoding at the end is there so that such a pair exists, and is not the
one that any generated code uses.
-/

namespace Chater.Messages

open LittleEndian

set_option autoImplicit false

universe u

abbrev Bytes := List UInt8

def utf8 (s : String) : Bytes := s.toUTF8.data.toList

def IsUtf8 (bs : Bytes) : Prop := ByteArray.IsValidUTF8 ⟨bs.toArray⟩

instance : DecidablePred IsUtf8 := fun bs => inferInstanceAs (Decidable (ByteArray.IsValidUTF8 ⟨bs.toArray⟩))

theorem isUtf8_utf8 (s : String) : IsUtf8 (utf8 s) := by
  have hbytes : (⟨(utf8 s).toArray⟩ : ByteArray) = s.toByteArray := by
    simp [utf8, String.toUTF8]
  rw [IsUtf8, hbytes]
  exact s.isValidUTF8

/-- `texts` are the string fields of a message. -/
structure MessageType (A : Type u) (texts : A → List Bytes) where
  serializeAsString : A → Bytes
  parseFromArray : Bytes → Option A
  parse_serialize : ∀ a, parseFromArray (serializeAsString a) = if ∀ text ∈ texts a, IsUtf8 text then some a else none

variable {A : Type u} {texts : A → List Bytes}

theorem MessageType.parse_of_utf8 (type : MessageType A texts) {a : A} (h : ∀ text ∈ texts a, IsUtf8 text) :
    type.parseFromArray (type.serializeAsString a) = some a := by
  rw [type.parse_serialize, if_pos h]

/-! ## A plain encoding -/

/-- Every byte behind a 1, and a 0 at the end of each string. -/
def writeStrings (ss : List Bytes) : Bytes := ss.flatMap fun s => s.flatMap (fun b => [1, b]) ++ [0]

def readStrings : Bytes → Option (List Bytes)
  | [] => some []
  | [b] => if b = 0 then some [[]] else none
  | mark :: b :: rest =>
    if mark = 0 then (readStrings (b :: rest)).map ([] :: ·)
    else (readStrings rest).bind fun ss => ss.head?.map fun s => (b :: s) :: ss.tail

theorem readStrings_zero (rest : Bytes) : readStrings (0 :: rest) = (readStrings rest).map ([] :: ·) := by
  cases rest with
  | nil => rfl
  | cons b rest => rw [readStrings, if_pos rfl]

theorem readStrings_writeStrings (ss : List Bytes) : readStrings (writeStrings ss) = some ss := by
  induction ss with
  | nil => rfl
  | cons s ss ih =>
    rw [writeStrings, List.flatMap_cons]
    induction s with
    | nil =>
      change readStrings (0 :: writeStrings ss) = some ([] :: ss)
      rw [readStrings_zero, ih, Option.map_some]
    | cons b s ihs =>
      change readStrings (1 :: b :: _) = some ((b :: s) :: ss)
      rw [readStrings, if_neg (by decide)]
      change ((readStrings (s.flatMap (fun b => [1, b]) ++ [0] ++ writeStrings ss)).bind _) = _
      rw [writeStrings, ihs]
      rfl

def number (n : UInt64) : Bytes := toLE 8 n.toNat

def ofNumber (bs : Bytes) : UInt64 := UInt64.ofNat (ofLE bs)

@[simp] theorem ofNumber_number (n : UInt64) : ofNumber (number n) = n := by
  rw [ofNumber, number, ofLE_toLE_of_lt n.toNat_lt, UInt64.ofNat_toNat]

/-- The type of messages that are written as a list of strings. -/
def MessageType.plain (toStrings : A → List Bytes) (ofStrings : List Bytes → Option A)
    (h : ∀ a, ofStrings (toStrings a) = some a) : MessageType A texts where
  serializeAsString a := writeStrings (toStrings a)
  parseFromArray bs := ((readStrings bs).bind ofStrings).filter fun a => decide (∀ text ∈ texts a, IsUtf8 text)
  parse_serialize a := by
    rw [readStrings_writeStrings, Option.bind_some, h, Option.filter_some]
    simp only [decide_eq_true_eq]

end Chater.Messages
