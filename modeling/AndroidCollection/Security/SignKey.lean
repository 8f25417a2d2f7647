import AndroidCollection.Java.Integer
import AndroidCollection.Lib.Rfc1321
import Mathlib.Data.List.Forall2

/-!
# The fingerprint of a signature

`getSignKeyMD5` is to give the MD5 strings of the signatures of a package. The bytes of
a signature are turned into a text by `String.valueOf`, which has no variant for bytes:
it takes the array for any other object, and writes the name of its class and its
identity hash code. What is hashed depends on where an array happens to be, not on what
it holds. `toByteArray` makes a new array each time.

The digest and the charset of `md5` are on every platform, so that it does not return
the text itself, as it does when there is an exception.
-/

namespace AndroidCollection.Security

open Java

/-! ## `MD5Util` -/

def hexDigits : List JString :=
  [['0'], ['1'], ['2'], ['3'], ['4'], ['5'], ['6'], ['7'], ['8'], ['9'], ['a'], ['b'], ['c'], ['d'],
    ['e'], ['f']].map ascii

def byteToHexString (b : UInt8) : JString :=
  let n := byteToInt b
  let n := if n < 0 then n + 256 else n
  hexDigits.getD (n / 16).toNat [] ++ hexDigits.getD (n % 16).toNat []

def byteArrayToHexString (bytes : List UInt8) : JString :=
  bytes.flatMap byteToHexString

/-- `md5(origin)`, in UTF-8. -/
def md5 (origin : JString) : JString :=
  byteArrayToHexString (Rfc1321.md5 (utf8Bytes origin))

/-! ## `PackageUtil` -/

/-- An array which `toByteArray` returns: its bytes, and its identity hash code. -/
structure SignatureArray where
  bytes : List UInt8
  hashCode : Int32

/-- `String.valueOf` of an array of bytes. -/
def SignatureArray.valueOf (array : SignatureArray) : JString :=
  ascii ['[', 'B', '@'] ++ toHexString array.hashCode

/-- The MD5 strings of all the signatures; nothing when an array or an element is null. -/
def containSign (signatures : Option (List (Option SignatureArray))) : Option (List JString) :=
  signatures.bind fun signatures =>
    signatures.mapM fun signature => signature.map fun array => md5 array.valueOf

/-- What the package manager answers. -/
inductive PackageAnswer where
  | raises
  | none
  | info (signatures : Option (List (Option SignatureArray)))

/-- A null result, also after an exception, is `none`. -/
def getSignKeyMD5 (context : Bool) (packageName : Option JString)
    (getPackageInfo : JString → PackageAnswer) : Option (List JString) :=
  match context, packageName with
  | true, some (unit :: units) =>
      match getPackageInfo (unit :: units) with
      | .raises => none
      | .none => none
      | .info signatures => containSign signatures
  | _, _ => none

/-! ## Two runs -/

/-- A run of `getSignKeyMD5` on a package with these signatures. -/
structure Run where
  packageName : JString
  nonempty : packageName ≠ []
  getPackageInfo : JString → PackageAnswer
  signatures : List SignatureArray
  found : getPackageInfo packageName = .info (some (signatures.map some))

def Run.result (run : Run) : Option (List JString) :=
  getSignKeyMD5 true (some run.packageName) run.getPackageInfo

/-- Equal signatures have equal MD5 strings, and for different ones different texts are hashed. -/
def DependsOnBytes (first second : Run) : Prop :=
  (first.signatures.map SignatureArray.bytes = second.signatures.map SignatureArray.bytes →
      first.result = second.result) ∧
    ∀ left ∈ first.signatures ++ second.signatures,
      ∀ right ∈ first.signatures ++ second.signatures,
        left.bytes ≠ right.bytes → left.valueOf ≠ right.valueOf

/-- The texts of the two arrays are different messages with one digest. -/
def Collide (left right : SignatureArray) : Prop :=
  left.hashCode ≠ right.hashCode ∧
    Rfc1321.md5 (utf8Bytes left.valueOf) = Rfc1321.md5 (utf8Bytes right.valueOf)

/-- The identities of the arrays are as the bytes, but for collisions of the digest. -/
def IdentifiedByBytes (first second : Run) : Prop :=
  (first.signatures.map SignatureArray.bytes = second.signatures.map SignatureArray.bytes →
      List.Forall₂ (fun left right => left.hashCode = right.hashCode ∨ Collide left right)
        first.signatures second.signatures) ∧
    ∀ left ∈ first.signatures ++ second.signatures,
      ∀ right ∈ first.signatures ++ second.signatures,
        left.bytes ≠ right.bytes → left.hashCode ≠ right.hashCode

/-! ## Texts -/

theorem valueOf_eq_iff (left right : SignatureArray) :
    left.valueOf = right.valueOf ↔ left.hashCode = right.hashCode := by
  rw [SignatureArray.valueOf, SignatureArray.valueOf, List.append_cancel_left_eq,
    toHexString_injective.eq_iff]

theorem hexDigits_getD_injective : ∀ first < 16, ∀ second < 16,
    hexDigits.getD first [] = hexDigits.getD second [] → first = second := by
  decide

theorem byteToHexString_eq (b : UInt8) :
    byteToHexString b =
      hexDigits.getD (b.toNat / 16) [] ++ hexDigits.getD (b.toNat % 16) [] := by
  have unsigned : (if byteToInt b < 0 then byteToInt b + 256 else byteToInt b) = b.toNat := by
    have bound : b.toNat < 256 := b.toNat_lt
    rw [byteToInt_eq]
    split <;> split <;> omega
  rw [byteToHexString]
  simp only [unsigned]
  rfl

theorem length_hexDigits_getD : ∀ digit < 16, (hexDigits.getD digit []).length = 1 := by
  decide

/-- A byte can be told from its two digits. -/
theorem byteToHexString_append_inj {left right : UInt8} {leftRest rightRest : JString}
    (same : byteToHexString left ++ leftRest = byteToHexString right ++ rightRest) :
    left = right ∧ leftRest = rightRest := by
  have leftByte : left.toNat < 256 := left.toNat_lt
  have rightByte : right.toNat < 256 := right.toNat_lt
  rw [byteToHexString_eq, byteToHexString_eq, List.append_assoc, List.append_assoc] at same
  rcases List.append_inj same (by rw [length_hexDigits_getD _ (by omega),
    length_hexDigits_getD _ (by omega)]) with ⟨high, rest⟩
  rcases List.append_inj rest (by rw [length_hexDigits_getD _ (by omega),
    length_hexDigits_getD _ (by omega)]) with ⟨low, rests⟩
  refine ⟨?_, rests⟩
  have highs := hexDigits_getD_injective _ (by omega) _ (by omega) high
  have lows := hexDigits_getD_injective _ (by omega) _ (by omega) low
  rw [← UInt8.toNat_inj]
  omega

theorem byteToHexString_ne_nil (b : UInt8) : byteToHexString b ≠ [] := by
  have bound : b.toNat < 256 := b.toNat_lt
  intro empty
  have length := length_hexDigits_getD (b.toNat / 16) (by omega)
  rw [byteToHexString_eq] at empty
  rw [(List.append_eq_nil_iff.1 empty).1] at length
  cases length

theorem byteArrayToHexString_injective : Function.Injective byteArrayToHexString := by
  intro left right same
  induction left generalizing right with
  | nil =>
      cases right with
      | nil => rfl
      | cons byte right =>
          exact absurd (List.append_eq_nil_iff.1 same.symm).1 (byteToHexString_ne_nil byte)
  | cons byte left ih =>
      cases right with
      | nil => exact absurd (List.append_eq_nil_iff.1 same).1 (byteToHexString_ne_nil byte)
      | cons other right =>
          rcases byteToHexString_append_inj same with ⟨rfl, rest⟩
          rw [ih rest]

theorem md5_valueOf_eq_iff (left right : SignatureArray) :
    md5 left.valueOf = md5 right.valueOf ↔
      left.hashCode = right.hashCode ∨ Collide left right := by
  rw [md5, md5, byteArrayToHexString_injective.eq_iff, Collide]
  constructor
  · intro same
    by_cases identical : left.hashCode = right.hashCode
    · exact Or.inl identical
    · exact Or.inr ⟨identical, same⟩
  · rintro (identical | ⟨_, same⟩)
    · rw [(valueOf_eq_iff left right).2 identical]
    · exact same

/-! ## Runs -/

theorem containSign_map_some (signatures : List SignatureArray) :
    containSign (some (signatures.map some)) =
      some (signatures.map fun array => md5 array.valueOf) := by
  simp only [containSign, Option.bind_some]
  induction signatures with
  | nil => rfl
  | cons array signatures ih =>
      rw [List.map_cons, List.mapM_cons, ih]
      rfl

theorem Run.result_eq (run : Run) :
    run.result = some (run.signatures.map fun array => md5 array.valueOf) := by
  rcases run with ⟨_ | ⟨unit, units⟩, nonempty, getPackageInfo, signatures, found⟩
  · exact absurd rfl nonempty
  · simp only [Run.result, getSignKeyMD5, found, containSign_map_some]

theorem Run.result_eq_iff (first second : Run) :
    first.result = second.result ↔
      List.Forall₂ (fun left right => left.hashCode = right.hashCode ∨ Collide left right)
        first.signatures second.signatures := by
  rw [Run.result_eq, Run.result_eq, Option.some.injEq, ← List.forall₂_eq_eq_eq,
    List.forall₂_map_left_iff, List.forall₂_map_right_iff]
  simp only [md5_valueOf_eq_iff]

/-- Two runs depend on the signatures only if the identities of the arrays do. -/
theorem dependsOnBytes_iff (first second : Run) :
    DependsOnBytes first second ↔ IdentifiedByBytes first second := by
  simp only [DependsOnBytes, IdentifiedByBytes, Run.result_eq_iff, ne_eq, valueOf_eq_iff]

/-- A run on a package with one signature of one byte. -/
def singleRun (hashCode : Int32) : Run where
  packageName := [0x61]
  nonempty := by decide
  getPackageInfo := fun _ => .info (some [some ⟨[7], hashCode⟩])
  signatures := [⟨[7], hashCode⟩]
  found := rfl

/-- The array has another identity in the second run. -/
theorem not_dependsOnBytes_identity : ¬∀ first second : Run, DependsOnBytes first second := by
  intro depends
  have same := (depends (singleRun 1) (singleRun 2)).1 rfl
  rw [Run.result_eq, Run.result_eq] at same
  exact absurd same (by decide +kernel)

end AndroidCollection.Security
