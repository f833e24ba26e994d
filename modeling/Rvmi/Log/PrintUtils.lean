import Mathlib.Data.Nat.Digits.Lemmas
import Rvmi.Foundation.Numerals
import Rvmi.Foundation.Json

/-!
# `PrintUtils.hpp`

The hexadecimal form in which every value of a log is printed. It can be read
back whatever the field width is, and it needs no escape inside a JSON string.
The bytes of a vector register are printed as one number, the way a scalar
register of that length would be.
-/

namespace Rvmi.Log

open Rvmi.Foundation

def printRegNumber (i : Nat) : Text := setw 2 (decDigits i)

/-- `std::hex << std::setw(Width) << std::setfill('0') << V` behind `0x`. -/
def tohs (v : UInt64) (width : Nat := 16) : Text :=
  "0x".toList ++ setw width (hexDigits v.toNat)

/-- `unsigned char Byte = *CurIt`, as a number. -/
def unsignedByte (byte : Int8) : Nat := byte.toUInt8.toNat

/-- The overload of `tohs` for `std::vector<char>`: the last byte is printed first. -/
def tohsVector (v : List Int8) : Text :=
  v.reverse.foldl (fun os curIt => os ++ setw 2 (hexDigits (unsignedByte curIt))) "0x".toList

theorem readHex_tohs (v : UInt64) (width : Nat) : readHex (tohs v width) = some v.toNat :=
  readHex_hexNumeral width v.toNat

theorem tohs_injective : Function.Injective fun v : UInt64 => tohs v := by
  intro a b h
  have hread := congrArg readHex h
  rw [readHex_tohs, readHex_tohs] at hread
  exact UInt64.toNat_inj.mp (Option.some.inj hread)

theorem length_tohs (v : UInt64) : (tohs v).length = 18 := by
  have hdigits : (setw 16 (hexDigits v.toNat)).length = 16 :=
    length_setw_hexDigits (by omega) v.toNat_lt
  unfold tohs
  rw [List.length_append, hdigits]
  rfl

theorem isPlain_of_isHexChar {c : Char} (h : isHexChar c = true) : Json.isPlain c = true := by
  unfold isHexChar at h
  have hall : ("0123456789abcdefx".toList.all Json.isPlain) = true := by decide
  exact List.all_eq_true.mp hall c (List.contains_iff_mem.mp h)

theorem isPlain_of_isDigit {c : Char} (h : c.isDigit = true) : Json.isPlain c = true := by
  have hlow : '0' ≤ c := by
    unfold Char.isDigit at h
    exact of_decide_eq_true (Bool.and_eq_true_iff.mp h).1
  have hspace : ¬ c < ' ' := fun hlt =>
    Char.not_lt.mpr hlow (Char.lt_trans hlt (by decide))
  refine decide_eq_true ⟨?_, ?_, hspace⟩
  · rintro rfl
    cases h
  · rintro rfl
    cases h

theorem plain_tohs (v : UInt64) (width : Nat) : Json.Plain (tohs v width) := by
  intro c hc
  exact isPlain_of_isHexChar (isHexChar_hexNumeral width v.toNat c hc)

/-! ## Vector registers -/

theorem unsignedByte_lt (byte : Int8) : unsignedByte byte < 256 := byte.toUInt8.toNat_lt

theorem unsignedByte_injective : Function.Injective unsignedByte := by
  intro byte byte' h
  have hbits : byte.toUInt8 = byte'.toUInt8 := UInt8.toNat_inj.mp h
  rw [← Int8.toInt8_toUInt8 byte, hbits, Int8.toInt8_toUInt8]

/-- The digits behind the `0x`. -/
def byteDigits (v : List Int8) : Text :=
  v.reverse.flatMap fun byte => setw 2 (hexDigits (unsignedByte byte))

/-- The value of a register whose first byte is the lowest. -/
def littleEndian (v : List Int8) : Nat := Nat.ofDigits 256 (v.map unsignedByte)

theorem littleEndian_eq_sum (v : List Int8) :
    littleEndian v = ((v.map unsignedByte).mapIdx fun i byte => byte * 256 ^ i).sum :=
  Nat.ofDigits_eq_sum_mapIdx 256 (v.map unsignedByte)

theorem forall_mem_map_unsignedByte (v : List Int8) : ∀ byte ∈ v.map unsignedByte, byte < 256 := by
  intro byte hbyte
  obtain ⟨c, _, rfl⟩ := List.mem_map.mp hbyte
  exact unsignedByte_lt c

theorem littleEndian_lt (v : List Int8) : littleEndian v < 256 ^ v.length := by
  have hlt := Nat.ofDigits_lt_base_pow_length (by omega : 1 < 256) (forall_mem_map_unsignedByte v)
  rw [List.length_map] at hlt
  exact hlt

theorem littleEndian_inj {v v' : List Int8} (hlength : v.length = v'.length)
    (h : littleEndian v = littleEndian v') : v = v' := by
  have hlengths : (v.map unsignedByte).length = (v'.map unsignedByte).length := by
    rw [List.length_map, List.length_map, hlength]
  have hbytes : v.map unsignedByte = v'.map unsignedByte :=
    Nat.ofDigits_inj_of_len_eq (by omega) hlengths (forall_mem_map_unsignedByte v)
      (forall_mem_map_unsignedByte v') h
  exact List.map_injective_iff.mpr unsignedByte_injective hbytes

theorem tohsVector_eq (v : List Int8) : tohsVector v = "0x".toList ++ byteDigits v := by
  unfold tohsVector byteDigits
  rw [List.foldl_append_eq_append]
  rfl

theorem byteDigits_cons (byte : Int8) (v : List Int8) :
    byteDigits (byte :: v) = byteDigits v ++ setw 2 (hexDigits (unsignedByte byte)) := by
  unfold byteDigits
  rw [List.reverse_cons, List.flatMap_append, List.flatMap_singleton]

theorem length_byteField (byte : Int8) : (setw 2 (hexDigits (unsignedByte byte))).length = 2 :=
  length_setw_hexDigits (by omega) (unsignedByte_lt byte)

theorem length_byteDigits (v : List Int8) : (byteDigits v).length = 2 * v.length := by
  induction v with
  | nil => rfl
  | cons byte v ih =>
      rw [byteDigits_cons, List.length_append, ih, length_byteField, List.length_cons]
      omega

theorem length_tohsVector (v : List Int8) : (tohsVector v).length = 2 + 2 * v.length := by
  rw [tohsVector_eq, List.length_append, length_byteDigits]
  rfl

/-- The bytes are printed from the last to the first, so a byte counts 256 times as
much as the one before it. -/
theorem hexFold_byteDigits (v : List Int8) : hexFold 0 (byteDigits v) = some (littleEndian v) := by
  induction v with
  | nil => rfl
  | cons byte v ih =>
      have hbyte := hexFold_shift (hexFold_setw 2 (unsignedByte byte)) (littleEndian v)
      rw [length_byteField] at hbyte
      have hvalue : littleEndian (byte :: v) = 16 ^ 2 * littleEndian v + unsignedByte byte := by
        unfold littleEndian
        rw [List.map_cons, Nat.ofDigits_cons]
        omega
      rw [byteDigits_cons, hexFold_append, ih, hvalue]
      exact hbyte

/-- Eight bytes are printed like the 64-bit value they hold. -/
theorem tohsVector_eq_tohs {v : List Int8} (hlength : v.length = 8) :
    tohsVector v = tohs (UInt64.ofNat (littleEndian v)) 16 := by
  have hlt := littleEndian_lt v
  rw [hlength] at hlt
  have hvalue : (UInt64.ofNat (littleEndian v)).toNat = littleEndian v := by
    rw [UInt64.toNat_ofNat']
    exact Nat.mod_eq_of_lt hlt
  have hdigits : byteDigits v = setw 16 (hexDigits (littleEndian v)) := by
    apply hexFold_inj
    · rw [length_byteDigits, hlength]
      exact (length_setw_hexDigits (by omega) hlt).symm
    · exact hexFold_byteDigits v
    · exact hexFold_setw 16 (littleEndian v)
  unfold tohs
  rw [tohsVector_eq, hdigits, hvalue]

/-- Vectors of one length are printed alike when they are the same. -/
theorem tohsVector_inj {v v' : List Int8} (hlength : v.length = v'.length)
    (h : tohsVector v = tohsVector v') : v = v' := by
  rw [tohsVector_eq, tohsVector_eq] at h
  have hvalue : some (littleEndian v) = some (littleEndian v') := by
    rw [← hexFold_byteDigits, ← hexFold_byteDigits, List.append_cancel_left h]
  exact littleEndian_inj hlength (Option.some.inj hvalue)

/-- A vector register is printed as its little-endian value, two digits for each byte,
and eight bytes as `tohs` prints a scalar register. -/
theorem tohsVector_littleEndian (v : List Int8) :
    ∃ digits, tohsVector v = "0x".toList ++ digits ∧ digits.length = 2 * v.length ∧
      (∀ c ∈ digits, c ∈ "0123456789abcdef".toList) ∧
      hexFold 0 digits =
        some ((v.map unsignedByte).mapIdx fun i byte => byte * 256 ^ i).sum ∧
      (v.length = 8 → tohsVector v =
        tohs (UInt64.ofNat ((v.map unsignedByte).mapIdx fun i byte => byte * 256 ^ i).sum) 16) := by
  rw [← littleEndian_eq_sum]
  refine ⟨byteDigits v, tohsVector_eq v, length_byteDigits v, ?_, hexFold_byteDigits v, ?_⟩
  · exact mem_of_hexFold (hexFold_byteDigits v)
  · exact tohsVector_eq_tohs

end Rvmi.Log
