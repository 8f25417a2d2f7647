import AndroidCollection.Java.Integer
import AndroidCollection.Lib.RegexClass
import Mathlib.Data.List.Basic

/-!
# IPv4 addresses as text

`IpV4Utils` describes a dotted quad three times: `ipV4Validate` matches the
trimmed text against a regular expression, `trans2IpStr` prints an `int` with
shifts and masks, and `getIpV4Value` splits the text as it is and parses the
parts through signed bytes, with four zero bytes when anything is thrown.
Comparing, classifying and the constructor with a mask rely on the value alone.
`\d` is the ASCII class which the pattern language documents.
-/

namespace AndroidCollection.Net

open Java RegexClass

def dot : UInt16 :=
  0x2E

/-! ## Matching -/

def digitClass (low high : ℕ) : RegularExpression UInt16 :=
  oneOf ((List.range' low (high + 1 - low)).map digitUnit)

/-- The pattern's `\d|[1-9]\d|1\d{2}|2[0-4]\d|25[0-5]`. -/
def OCTET_REGEX : RegularExpression UInt16 :=
  digitClass 0 9 + digitClass 1 9 * digitClass 0 9 + .char (digitUnit 1) * digitClass 0 9 ^ 2 +
    .char (digitUnit 2) * (digitClass 0 4 * digitClass 0 9) +
    .char (digitUnit 2) * (.char (digitUnit 5) * digitClass 0 5)

def IPV4_REGEX : RegularExpression UInt16 :=
  OCTET_REGEX * (.char dot * OCTET_REGEX) ^ 3

/-- `Pattern.matches` of the trimmed address; `null` is not valid. -/
def ipV4Validate (ipv4 : Option JString) : Bool :=
  match ipv4 with
  | none => false
  | some addr => IPV4_REGEX.rmatch (trim addr)

/-! ## Printing -/

def trans2IpStr (ipValue : Int32) : JString :=
  intToString ((ipValue >>> 24) &&& 0xff) ++ dot :: intToString ((ipValue >>> 16) &&& 0xff) ++
    dot :: intToString ((ipValue >>> 8) &&& 0xff) ++ dot :: intToString (ipValue &&& 0xff)

/-! ## Reading -/

/-- `text.split("\\.")`: trailing empty parts are removed, and a text without a dot is one part. -/
def split (text : JString) : List JString :=
  if dot ∈ text then (text.splitOn dot).rdropWhile (· = []) else [text]

/-- `(byte) (Integer.parseInt(part) & 0xff)`. -/
def partByte (part : JString) : Option UInt8 :=
  (parseInt part).map fun value : Int32 => (value &&& 0xff).toInt8.toUInt8

/-- The `NullPointerException` of `null` and every `NumberFormatException` end in four zeros. -/
def getIpV4Bytes (ipOrMask : Option JString) : List UInt8 :=
  match ipOrMask.bind fun text => (split text).mapM partByte with
  | some addr => addr
  | none => [0, 0, 0, 0]

/-- A `byte` as an operand of `int` arithmetic. -/
def widen (byte : UInt8) : Int32 :=
  byte.toInt8.toInt32

def getIpV4Value (ipOrMask : Option JString) : Except Throwable Int32 :=
  match getIpV4Bytes ipOrMask with
  | first :: second :: third :: fourth :: _ =>
      let address1 : Int32 := widen fourth &&& 0xFF
      let address1 : Int32 := address1 ||| (widen third <<< (8 : Int32)) &&& (0xFF00 : Int32)
      let address1 : Int32 := address1 ||| (widen second <<< (16 : Int32)) &&& (0xFF0000 : Int32)
      .ok (address1 ||| (widen first <<< (24 : Int32)) &&& (0xFF000000 : Int32))
  | _ => .error .arrayIndexOutOfBoundsException

def checkSameSegment (ip1 ip2 : Option JString) (mask : Int32) : Except Throwable Bool :=
  if !ipV4Validate ip1 then
    .ok false
  else if !ipV4Validate ip2 then
    .ok false
  else do
    let ipValue1 ← getIpV4Value ip1
    let ipValue2 ← getIpV4Value ip2
    pure (decide (mask &&& ipValue1 = mask &&& ipValue2))

def compareIpV4s (ip1 ip2 : Option JString) : Except Throwable ℤ := do
  let ipValue1 ← getIpV4Value ip1
  let ipValue2 ← getIpV4Value ip2
  if ipValue1 > ipValue2 then
    pure (-1)
  else if ipValue1 ≤ ipValue2 then
    pure 1
  else
    pure 0

/-! ## Classes -/

def IP_A_TYPE : ℤ := 1

def IP_B_TYPE : ℤ := 2

def IP_C_TYPE : ℤ := 3

def IP_OTHER_TYPE : ℤ := 4

structure StaticFields where
  IpATypeRange : Int32 × Int32
  IpBTypeRange : Int32 × Int32
  IpCTypeRange : Int32 × Int32
  DefaultIpAMask : Int32
  DefaultIpBMask : Int32
  DefaultIpCMask : Int32

/-- The static initializer reads its constants with the reader of the class. -/
def staticInit : Except Throwable StaticFields := do
  let lowA ← getIpV4Value (some (ascii ['1', '.', '0', '.', '0', '.', '1']))
  let highA ← getIpV4Value (some (ascii
    ['1', '2', '6', '.', '2', '5', '5', '.', '2', '5', '5', '.', '2', '5', '4']))
  let lowB ← getIpV4Value (some (ascii ['1', '2', '8', '.', '0', '.', '0', '.', '1']))
  let highB ← getIpV4Value (some (ascii
    ['1', '9', '1', '.', '2', '5', '5', '.', '2', '5', '5', '.', '2', '5', '4']))
  let lowC ← getIpV4Value (some (ascii ['1', '9', '2', '.', '1', '6', '8', '.', '0', '.', '0']))
  let highC ← getIpV4Value (some (ascii
    ['1', '9', '2', '.', '1', '6', '8', '.', '2', '5', '5', '.', '2', '5', '5']))
  let maskA ← getIpV4Value (some (ascii ['2', '5', '5', '.', '0', '.', '0', '.', '0']))
  let maskB ← getIpV4Value (some (ascii ['2', '5', '5', '.', '2', '5', '5', '.', '0', '.', '0']))
  let maskC ← getIpV4Value (some (ascii
    ['2', '5', '5', '.', '2', '5', '5', '.', '2', '5', '5', '.', '0']))
  pure
    { IpATypeRange := (lowA, highA)
      IpBTypeRange := (lowB, highB)
      IpCTypeRange := (lowC, highC)
      DefaultIpAMask := maskA
      DefaultIpBMask := maskB
      DefaultIpCMask := maskC }

def checkIpV4Type (ipV4 : Option JString) : Except Throwable ℤ := do
  let fields ← staticInit
  let inValue ← getIpV4Value ipV4
  if inValue ≥ fields.IpCTypeRange.1 ∧ inValue ≤ fields.IpCTypeRange.2 then
    pure IP_C_TYPE
  else if inValue ≥ fields.IpBTypeRange.1 ∧ inValue ≤ fields.IpBTypeRange.2 then
    pure IP_B_TYPE
  else if inValue ≥ fields.IpATypeRange.1 ∧ inValue ≤ fields.IpATypeRange.2 then
    pure IP_A_TYPE
  else
    pure IP_OTHER_TYPE

def getDefaultMaskValue (anyIpV4 : Option JString) : Except Throwable Int32 := do
  let fields ← staticInit
  let checkIpType ← checkIpV4Type anyIpV4
  if checkIpType = IP_C_TYPE then
    pure fields.DefaultIpCMask
  else if checkIpType = IP_B_TYPE then
    pure fields.DefaultIpBMask
  else if checkIpType = IP_A_TYPE then
    pure fields.DefaultIpAMask
  else
    pure fields.DefaultIpCMask

def getDefaultMaskStr (anyIp : Option JString) : Except Throwable JString := do
  let maskValue ← getDefaultMaskValue anyIp
  pure (trans2IpStr maskValue)

def checkSameSegmentByDefault (ip1 ip2 : Option JString) : Except Throwable Bool := do
  let mask ← getDefaultMaskValue ip1
  checkSameSegment ip1 ip2 mask

/-! ## Instances -/

/-- An instance; no constructor leaves a zero mask in it. -/
structure IpV4Utils where
  mask : Int32
  nonzero : mask ≠ 0

inductive ConstructorThrown where
  | unknownError
  | exception (thrown : Throwable)
deriving DecidableEq

/-- The constructor with a mask. -/
def newIpV4Utils (masks : Option JString) : Except ConstructorThrown IpV4Utils :=
  match getIpV4Value masks with
  | .error thrown => .error (.exception thrown)
  | .ok mask => if zero : mask = 0 then .error .unknownError else .ok ⟨mask, zero⟩

end AndroidCollection.Net
