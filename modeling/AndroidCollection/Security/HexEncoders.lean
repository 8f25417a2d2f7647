import AndroidCollection.Ble.HexText
import AndroidCollection.Md5.Basic
import AndroidCollection.Security.SignKey

/-!
# Four ways to write bytes in hexadecimal

Three Java classes and the native MD5 each write bytes with two digits, by a table or by
`Integer.toHexString` with a zero put before a single digit. One of them changes the text
to uppercase letters in the end. But for the case of the letters all of them write the
same digits for each byte, so each text determines the bytes, whichever of them wrote it.
-/

namespace AndroidCollection.Security

open Java

/-! ## `DeviceIdUtil` -/

/-- `String.toUpperCase` of a text in ASCII. -/
def toUpperCase (text : JString) : JString :=
  text.map fun unit => if 0x61 ≤ unit ∧ unit ≤ 0x7A then unit - 0x20 else unit

/-- What the loop of `bytesToHex` appends for a byte. -/
def appendHex (sb : JString) (byte : UInt8) : JString :=
  let stmp := toHexString (byte.toInt8.toInt32 &&& 0xFF)
  if stmp.length = 1 then sb ++ [0x30] ++ stmp else sb ++ stmp

def bytesToHex (data : List UInt8) : JString :=
  toUpperCase (data.foldl appendHex [])

/-! ## All encoders -/

inductive HexEncoder where
  | byteArrayToHexString
  | bytesToHex
  | byte2hex
  | bytesToHexString

def HexEncoder.encode : HexEncoder → List UInt8 → JString
  | .byteArrayToHexString, bytes => Security.byteArrayToHexString bytes
  | .bytesToHex, bytes => Security.bytesToHex bytes
  | .byte2hex, bytes => Ble.byte2hex bytes
  | .bytesToHexString, bytes => ascii (Md5.MD5.bytesToHexString bytes)

def lowercase (text : JString) : JString :=
  text.map fun unit => if 0x41 ≤ unit ∧ unit ≤ 0x5A then unit + 0x20 else unit

/-! ## The digits of a byte -/

def lowerDigits (byte : UInt8) : JString :=
  ascii [Nat.digitChar (byte.toNat / 16), Nat.digitChar (byte.toNat % 16)]

theorem lowercase_append (first second : JString) :
    lowercase (first ++ second) = lowercase first ++ lowercase second :=
  List.map_append

theorem lowercase_flatMap {digits : UInt8 → JString}
    (same : ∀ byte, lowercase (digits byte) = lowerDigits byte) (bytes : List UInt8) :
    lowercase (bytes.flatMap digits) = bytes.flatMap lowerDigits := by
  induction bytes with
  | nil => rfl
  | cons byte bytes ih =>
      rw [List.flatMap_cons, List.flatMap_cons, lowercase_append, same, ih]

theorem lowercase_byteToHexString : ∀ byte, lowercase (byteToHexString byte) = lowerDigits byte :=
  forall_byte (by decide +kernel)

theorem lowercase_twoDigits : ∀ byte, lowercase (Ble.twoDigits byte) = lowerDigits byte :=
  forall_byte (by decide +kernel)

theorem lowercase_toUpperCase (text : JString) :
    lowercase (toUpperCase text) = lowercase text := by
  rw [lowercase, toUpperCase, List.map_map]
  apply List.map_congr_left
  intro unit _
  simp only [Function.comp_apply, UInt16.le_iff_toNat_le, UInt16.reduceToNat]
  by_cases small : 97 ≤ unit.toNat ∧ unit.toNat ≤ 122
  · have lowered : (unit - 0x20).toNat = unit.toNat - 32 := by
      rw [UInt16.toNat_sub_of_le]
      · rfl
      · rw [UInt16.le_iff_toNat_le]
        exact (Nat.le_succ_of_le (by decide)).trans small.1
    rw [if_pos small, lowered, if_pos (by omega), if_neg (by omega), UInt16.sub_add_cancel]
  · rw [if_neg small]

/-! ## The digits of all bytes -/

theorem foldl_appendHex (data : List UInt8) (sb : JString) :
    data.foldl appendHex sb = sb ++ data.flatMap Ble.twoDigits := by
  induction data generalizing sb with
  | nil => simp
  | cons byte data ih =>
      rw [List.foldl_cons, ih, List.flatMap_cons, ← List.append_assoc, appendHex, Ble.twoDigits]
      split <;> simp

/-- Each encoder writes the same digits, but for the case of their letters. -/
theorem lowercase_encode (encoder : HexEncoder) (bytes : List UInt8) :
    lowercase (encoder.encode bytes) = bytes.flatMap lowerDigits := by
  cases encoder with
  | byteArrayToHexString => exact lowercase_flatMap lowercase_byteToHexString bytes
  | bytesToHex =>
      rw [HexEncoder.encode, bytesToHex, lowercase_toUpperCase, foldl_appendHex, List.nil_append]
      exact lowercase_flatMap lowercase_twoDigits bytes
  | byte2hex =>
      rw [HexEncoder.encode, Ble.byte2hex_eq_flatMap]
      exact lowercase_flatMap lowercase_twoDigits bytes
  | bytesToHexString =>
      have written : lowercase (ascii (Md5.MD5.bytesToHexString bytes)) =
          lowercase (bytes.flatMap fun byte => ascii [Md5.HEX.getD (byte.toNat / 16) '0',
            Md5.HEX.getD (byte.toNat % 16) '0']) := by
        rw [Md5.MD5.bytesToHexString, ascii, List.map_flatMap]
        rfl
      rw [HexEncoder.encode, written]
      exact lowercase_flatMap (forall_byte (by decide +kernel)) bytes

theorem lowerDigits_append_inj {left right : UInt8} {leftRest rightRest : JString}
    (same : lowerDigits left ++ leftRest = lowerDigits right ++ rightRest) :
    left = right ∧ leftRest = rightRest := by
  have small : left.toNat < 256 := left.toNat_lt
  have bound : right.toNat < 256 := right.toNat_lt
  rcases List.append_inj same rfl with ⟨digits, rests⟩
  have high := hexDigits_injective (left.toNat / 16) (by omega) (right.toNat / 16) (by omega)
    (congrArg (List.take 1) digits)
  have low := hexDigits_injective (left.toNat % 16) (by omega) (right.toNat % 16) (by omega)
    (congrArg (List.drop 1) digits)
  refine ⟨?_, rests⟩
  rw [← UInt8.toNat_inj]
  omega

theorem flatMap_lowerDigits_injective :
    Function.Injective fun bytes : List UInt8 => bytes.flatMap lowerDigits := by
  intro left right same
  dsimp only at same
  induction left generalizing right with
  | nil =>
      cases right with
      | nil => rfl
      | cons byte right => cases same
  | cons byte left ih =>
      cases right with
      | nil => cases same
      | cons other right =>
          rcases lowerDigits_append_inj same with ⟨rfl, rest⟩
          rw [ih rest]

/-- The texts of all encoders are twice as long as the bytes, are the same up to the case of the
letters, and differ for different bytes. -/
theorem hexEncoders_agree (first second : HexEncoder) (left right : List UInt8) :
    (first.encode left).length = 2 * left.length ∧
      lowercase (first.encode left) = lowercase (second.encode left) ∧
      (left ≠ right → lowercase (first.encode left) ≠ lowercase (second.encode right)) := by
  refine ⟨?_, ?_, ?_⟩
  · have same := congrArg List.length (lowercase_encode first left)
    rw [lowercase, List.length_map] at same
    rw [same]
    simp [lowerDigits, ascii, Nat.mul_comm]
  · rw [lowercase_encode, lowercase_encode]
  · intro differ
    rw [lowercase_encode, lowercase_encode]
    exact fun same => differ (flatMap_lowerDigits_injective same)

end AndroidCollection.Security
