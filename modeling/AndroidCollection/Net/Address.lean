import AndroidCollection.Net.DottedQuad

/-!
# Unsigned addresses

An address is a number below 2^32; `getIpV4Value` holds it in an `int`, whose
order begins at 128.0.0.0. From a text which is no dotted quad an address is
read as well: zero if some part is no number, and otherwise the address of the
first four numbers modulo 256. With fewer than four numbers the reader throws.
-/

namespace AndroidCollection.Net

open Java

def address (a b c d : ℕ) : ℕ :=
  ((a * 256 + b) * 256 + c) * 256 + d

/-- The text is a dotted quad and its address is `value`. -/
def IsAddress (ip : Option JString) (value : ℕ) : Prop :=
  ∃ a b c d : UInt8, ip = some (quadText a b c d) ∧
    value = address a.toNat b.toNat c.toNat d.toNat

def lastOctet (number : Int32) : ℕ :=
  (number.toInt % 256).toNat

/-- The address which is read from any text, `none` if the reader throws. -/
def readAddress (ip : Option JString) : Option ℕ :=
  match ip.bind fun text => (split text).mapM parseInt with
  | none => some 0
  | some (a :: b :: c :: d :: _) =>
      some (address (lastOctet a) (lastOctet b) (lastOctet c) (lastOctet d))
  | some _ => none

/-- The place of an address in the order of the `int` values. -/
def rank (value : ℕ) : ℕ :=
  (value + 2147483648) % 4294967296

theorem quadValue_eq_ofNat (a b c d : UInt8) :
    quadValue a b c d = Int32.ofNat (address a.toNat b.toNat c.toNat d.toNat) := by
  have first := a.toNat_lt
  have second := b.toNat_lt
  have third := c.toNat_lt
  have fourth := d.toNat_lt
  rw [← Int32.toBitVec_inj]
  apply BitVec.eq_of_toNat_eq
  change (a.toBitVec ++ b.toBitVec ++ c.toBitVec ++ d.toBitVec).toNat =
    (BitVec.ofNat 32 (address a.toNat b.toNat c.toNat d.toNat)).toNat
  rw [BitVec.toNat_ofNat, address]
  simp only [BitVec.toNat_append, UInt8.toNat_toBitVec]
  rw [← Nat.shiftLeft_add_eq_or_of_lt fourth, ← Nat.shiftLeft_add_eq_or_of_lt third,
    ← Nat.shiftLeft_add_eq_or_of_lt second]
  simp only [Nat.shiftLeft_eq]
  omega

theorem address_lt (a b c d : UInt8) :
    address a.toNat b.toNat c.toNat d.toNat < 4294967296 := by
  have first := a.toNat_lt
  have second := b.toNat_lt
  have third := c.toNat_lt
  have fourth := d.toNat_lt
  rw [address]
  omega

theorem toInt_ofNat {value : ℕ} (bounded : value < 4294967296) :
    (Int32.ofNat value).toInt =
      if value < 2147483648 then (value : ℤ) else value - 4294967296 := by
  change (BitVec.ofNat 32 value).toInt = _
  rw [BitVec.toInt_eq_toNat_cond, BitVec.toNat_ofNat]
  split <;> split <;> omega

/-- The order of the values is that of the ranks. -/
theorem ofNat_le_iff {v w : ℕ} (boundedLeft : v < 4294967296) (boundedRight : w < 4294967296) :
    Int32.ofNat v ≤ Int32.ofNat w ↔ rank v ≤ rank w := by
  rw [Int32.le_iff_toInt_le, toInt_ofNat boundedLeft, toInt_ofNat boundedRight, rank, rank]
  split <;> split <;> omega

theorem ofNat_inj {v w : ℕ} (boundedLeft : v < 4294967296) (boundedRight : w < 4294967296) :
    Int32.ofNat v = Int32.ofNat w ↔ v = w := by
  constructor
  · intro same
    have values := congrArg Int32.toInt same
    rw [toInt_ofNat boundedLeft, toInt_ofNat boundedRight] at values
    split at values <;> split at values <;> omega
  · rintro rfl
    rfl

/-! ## Reading any text -/

theorem lastOctet_eq (number : Int32) : lastOctet number = number.toBitVec.toNat % 256 := by
  have bounded := number.toBitVec.isLt
  rw [lastOctet, ← Int32.toInt_toBitVec, BitVec.toInt_eq_toNat_cond]
  split <;> omega

theorem lastOctet_lt (number : Int32) : lastOctet number < 256 := by
  rw [lastOctet_eq]
  exact Nat.mod_lt _ (by decide)

theorem partByte_eq (part : JString) :
    partByte part = (parseInt part).map fun number => UInt8.ofNat (lastOctet number) := by
  rw [partByte]
  congr 1
  funext number
  rw [← UInt8.toNat_inj, UInt8.toNat_ofNat', Nat.mod_eq_of_lt (lastOctet_lt number), lastOctet_eq]
  change ((number.toBitVec &&& 0xFF#32).signExtend 8).toNat = _
  rw [BitVec.signExtend_eq_setWidth_of_le _ (by decide), BitVec.toNat_setWidth, BitVec.toNat_and]
  change (number.toBitVec.toNat &&& (2 ^ 8 - 1)) % 2 ^ 8 = _
  rw [Nat.and_two_pow_sub_one_eq_mod, Nat.mod_mod]

theorem mapM_map_some {α β γ : Type} (f : α → Option β) (g : β → γ) (items : List α) :
    (items.mapM fun item => (f item).map g) = (items.mapM f).map (List.map g) := by
  induction items with
  | nil => rfl
  | cons item items ih =>
      rw [List.mapM_cons, List.mapM_cons, ih]
      cases f item with
      | none => rfl
      | some value => cases items.mapM f <;> rfl

theorem getIpV4Bytes_eq (ip : Option JString) :
    getIpV4Bytes ip =
      ((ip.bind fun text => (split text).mapM parseInt).map
        (List.map fun number => UInt8.ofNat (lastOctet number))).getD [0, 0, 0, 0] := by
  have parts : ∀ text, (split text).mapM partByte =
      ((split text).mapM parseInt).map (List.map fun number => UInt8.ofNat (lastOctet number)) := by
    intro text
    rw [← mapM_map_some]
    congr 1
    funext part
    exact partByte_eq part
  rw [getIpV4Bytes]
  cases ip with
  | none => rfl
  | some text =>
      rw [Option.bind_some, Option.bind_some, parts]
      cases (split text).mapM parseInt <;> rfl

/-- What the reader does with any text. -/
theorem getIpV4Value_eq (ip : Option JString) :
    getIpV4Value ip =
      match readAddress ip with
      | some value => .ok (Int32.ofNat value)
      | none => .error .arrayIndexOutOfBoundsException := by
  have octet (number : Int32) : (UInt8.ofNat (lastOctet number)).toNat = lastOctet number := by
    rw [UInt8.toNat_ofNat', Nat.mod_eq_of_lt (lastOctet_lt number)]
  have bytes := getIpV4Bytes_eq ip
  rw [readAddress]
  match read : ip.bind fun text => (split text).mapM parseInt with
  | none =>
      rw [read] at bytes
      rw [getIpV4Value_of_bytes bytes]
      rfl
  | some (a :: b :: c :: d :: rest) =>
      rw [read] at bytes
      rw [getIpV4Value_of_bytes bytes, quadValue_eq_ofNat, octet, octet, octet, octet]
  | some [] | some [_] | some [_, _] | some [_, _, _] =>
      rw [read] at bytes
      rw [getIpV4Value, bytes]
      rfl

theorem readAddress_lt {ip : Option JString} {value : ℕ} (read : readAddress ip = some value) :
    value < 4294967296 := by
  rw [readAddress] at read
  split at read
  · cases read
    decide
  · rename_i a b c d _ _
    have first := lastOctet_lt a
    have second := lastOctet_lt b
    have third := lastOctet_lt c
    have fourth := lastOctet_lt d
    cases read
    rw [address]
    omega
  · cases read

theorem getIpV4Value_of_readAddress {ip : Option JString} {value : ℕ}
    (read : readAddress ip = some value) : getIpV4Value ip = .ok (Int32.ofNat value) := by
  rw [getIpV4Value_eq, read]

theorem readAddress_of_getIpV4Value {ip : Option JString} {value : ℕ}
    (bounded : value < 4294967296) (read : getIpV4Value ip = .ok (Int32.ofNat value)) :
    readAddress ip = some value := by
  rw [getIpV4Value_eq] at read
  cases found : readAddress ip with
  | none =>
      rw [found] at read
      cases read
  | some other =>
      rw [found] at read
      have same := (ofNat_inj (readAddress_lt found) bounded).mp (Except.ok.inj read)
      rw [same]

/-! ## Dotted quads -/

section Quads

variable {ip : Option JString} {value other : ℕ}

/-- A dotted quad is read as its own address. -/
theorem IsAddress.read (isAddress : IsAddress ip value) : readAddress ip = some value := by
  rcases isAddress with ⟨a, b, c, d, rfl, rfl⟩
  have octet (byte : UInt8) : lastOctet (Int32.ofNat byte.toNat) = byte.toNat := by
    have bounded := byte.toNat_lt
    rw [lastOctet, Int32.toInt_ofNat_of_lt (by omega)]
    omega
  have number (byte : UInt8) : parseInt (decimal byte.toNat) = some (Int32.ofNat byte.toNat) :=
    parseInt_decimal (Nat.lt_trans byte.toNat_lt (by decide))
  simp only [readAddress, Option.bind_some, split_quadText, List.mapM_cons, List.mapM_nil, number,
    Option.pure_def, Option.bind_eq_bind, octet]

theorem IsAddress.lt (isAddress : IsAddress ip value) : value < 4294967296 :=
  readAddress_lt isAddress.read

theorem IsAddress.unique (isAddress : IsAddress ip value) (isOther : IsAddress ip other) :
    value = other :=
  Option.some.inj (isAddress.read.symm.trans isOther.read)

theorem isAddress_quadText (a b c d : UInt8) :
    IsAddress (some (quadText a b c d)) (address a.toNat b.toNat c.toNat d.toNat) :=
  ⟨a, b, c, d, rfl, rfl⟩

end Quads

end AndroidCollection.Net
