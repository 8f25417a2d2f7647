import AndroidCollection.Net.Address

/-!
# The mask of an instance

The constructor with a mask promises an `UnknownError` for every malformed text
and looks only whether the value is zero. Malformed texts are read as zero if
some part is no number, or if the first four numbers are multiples of 256; from
other malformed texts with four parts or more a mask is taken, and fewer parts
make the reader throw.
-/

namespace AndroidCollection.Net

open Java

variable {masks : Option JString} {v : ℕ}

/-- What the comment of the constructor says about how it ends. -/
def AsDocumented (masks : Option JString) : Except ConstructorThrown IpV4Utils → Prop
  | .ok created => ∃ v, IsAddress masks v ∧ v ≠ 0 ∧ created.mask = Int32.ofNat v
  | .error .unknownError => ¬∃ v, IsAddress masks v ∧ v ≠ 0
  | .error (.exception _) => False

/-- The texts which are read as zero. -/
inductive ReadsZero : Option JString → Prop where
  | null : ReadsZero none
  | noNumber {text part : JString} :
      part ∈ split text → parseInt part = none → ReadsZero (some text)
  | multiples {text : JString} {a b c d : Int32} {rest : List Int32} :
      (split text).mapM parseInt = some (a :: b :: c :: d :: rest) → 256 ∣ a.toInt →
        256 ∣ b.toInt → 256 ∣ c.toInt → 256 ∣ d.toInt → ReadsZero (some text)

theorem exists_of_mapM_eq_none {α β : Type} {f : α → Option β} {items : List α}
    (fails : items.mapM f = none) : ∃ item ∈ items, f item = none := by
  induction items with
  | nil => cases fails
  | cons first items ih =>
      rw [List.mapM_cons] at fails
      cases image : f first with
      | none => exact ⟨first, List.mem_cons_self, image⟩
      | some value =>
          rw [image] at fails
          cases images : items.mapM f with
          | none =>
              rcases ih images with ⟨item, itemMem, noImage⟩
              exact ⟨item, List.mem_cons_of_mem _ itemMem, noImage⟩
          | some values =>
              rw [images] at fails
              cases fails

theorem lastOctet_eq_zero_iff (number : Int32) : lastOctet number = 0 ↔ 256 ∣ number.toInt := by
  rw [lastOctet]
  omega

theorem readsZero_iff : ReadsZero masks ↔ readAddress masks = some 0 := by
  constructor
  · rintro (_ | ⟨partMem, fails⟩ | ⟨numbers, first, second, third, fourth⟩)
    · rfl
    · rw [readAddress, Option.bind_some, mapM_eq_none partMem fails]
    · rw [← lastOctet_eq_zero_iff] at first second third fourth
      rw [readAddress, Option.bind_some, numbers]
      dsimp only
      rw [first, second, third, fourth]
      rfl
  · intro zero
    cases masks with
    | none => exact .null
    | some text =>
        rw [readAddress, Option.bind_some] at zero
        split at zero
        · next fails =>
            rcases exists_of_mapM_eq_none fails with ⟨part, partMem, noNumber⟩
            exact .noNumber partMem noNumber
        · next a b c d rest numbers =>
            have sum := Option.some.inj zero
            rw [address] at sum
            refine .multiples numbers ?_ ?_ ?_ ?_ <;> rw [← lastOctet_eq_zero_iff] <;> omega
        · cases zero

theorem newIpV4Utils_of_zero (read : readAddress masks = some 0) :
    newIpV4Utils masks = .error .unknownError := by
  rw [newIpV4Utils, getIpV4Value_of_readAddress read]
  rfl

theorem newIpV4Utils_of_ne_zero (read : readAddress masks = some v) (nonzero : v ≠ 0) :
    ∃ created, newIpV4Utils masks = .ok created ∧ created.mask = Int32.ofNat v := by
  have isNonzero : Int32.ofNat v ≠ 0 := fun zero =>
    nonzero ((ofNat_inj (readAddress_lt read) (by decide)).mp zero)
  refine ⟨⟨Int32.ofNat v, isNonzero⟩, ?_, rfl⟩
  rw [newIpV4Utils, getIpV4Value_of_readAddress read]
  exact dif_neg isNonzero

/-- The constructor ends as documented exactly for dotted quads and for what is read as zero. -/
theorem newIpV4Utils_documented_iff (masks : Option JString) :
    AsDocumented masks (newIpV4Utils masks) ↔
      (∃ v, IsAddress masks v) ∨ ReadsZero masks := by
  rw [readsZero_iff]
  match read : readAddress masks with
  | none =>
      have noQuad : ¬∃ v, IsAddress masks v := by
        rintro ⟨v, isAddress⟩
        rw [isAddress.read] at read
        cases read
      rw [newIpV4Utils, getIpV4Value_eq, read]
      refine iff_of_false id ?_
      rintro (quad | zero)
      · exact noQuad quad
      · cases zero
  | some 0 =>
      rw [newIpV4Utils_of_zero read]
      refine iff_of_true ?_ (Or.inr rfl)
      rintro ⟨v, isAddress, nonzero⟩
      rw [isAddress.read] at read
      exact nonzero (Option.some.inj read)
  | some (v + 1) =>
      rcases newIpV4Utils_of_ne_zero read (Nat.succ_ne_zero v) with ⟨created, made, mask⟩
      rw [made]
      constructor
      · rintro ⟨w, isAddress, -, -⟩
        exact Or.inl ⟨w, isAddress⟩
      · rintro (⟨w, isAddress⟩ | zero)
        · rw [isAddress.read] at read
          cases read
          exact ⟨v + 1, isAddress, Nat.succ_ne_zero v, mask⟩
        · cases zero

/-- Three parts raise another exception, and an octet out of range is truncated to a mask. -/
theorem newIpV4Utils_not_documented :
    ¬AsDocumented (some (ascii ['1', '.', '2', '.', '3']))
        (newIpV4Utils (some (ascii ['1', '.', '2', '.', '3']))) ∧
      ¬AsDocumented (some (ascii ['2', '5', '7', '.', '0', '.', '0', '.', '0']))
        (newIpV4Utils (some (ascii ['2', '5', '7', '.', '0', '.', '0', '.', '0']))) := by
  constructor
  · have thrown : getIpV4Value (some (ascii ['1', '.', '2', '.', '3'])) =
        .error .arrayIndexOutOfBoundsException := by decide
    rw [newIpV4Utils, thrown]
    exact id
  · have read : getIpV4Value (some (ascii ['2', '5', '7', '.', '0', '.', '0', '.', '0'])) =
        .ok (quadValue 1 0 0 0) := by decide
    rw [newIpV4Utils, read]
    change ¬∃ v, IsAddress _ v ∧ v ≠ 0 ∧ quadValue 1 0 0 0 = Int32.ofNat v
    rintro ⟨v, ⟨a, b, c, d, same, rfl⟩, -, -⟩
    rw [same, getIpV4Value_quadText, Except.ok.injEq, quadValue_inj] at read
    rcases read with ⟨rfl, rfl, rfl, rfl⟩
    exact absurd (Option.some.inj same) (by decide)

end AndroidCollection.Net
