import AndroidCollection.Net.Address

/-!
# The order of two addresses

`compareIpV4s` documents the sign of its result, and what it is for texts which
are no addresses. It answers -1 where the first value is the greater one, never
0, and compares in the order of the `int` values. So its answer is the
documented one for two addresses only if exactly one of them is 128.0.0.0 or
above, where the order of the values is reversed as well.
-/

namespace AndroidCollection.Net

open Java

variable {ip1 ip2 ip3 : Option JString} {v w : ℕ} {result : ℤ}

/-- The result which the comment of `compareIpV4s` describes. -/
inductive Documented (ip1 ip2 : Option JString) : ℤ → Prop where
  | greater {v w : ℕ} : IsAddress ip1 v → IsAddress ip2 w → w < v → Documented ip1 ip2 1
  | less {v w : ℕ} : IsAddress ip1 v → IsAddress ip2 w → v < w → Documented ip1 ip2 (-1)
  | equal {v : ℕ} : IsAddress ip1 v → IsAddress ip2 v → Documented ip1 ip2 0
  | firstOnly : (∃ v, IsAddress ip1 v) → (¬∃ w, IsAddress ip2 w) → Documented ip1 ip2 1
  | secondOnly : (¬∃ v, IsAddress ip1 v) → (∃ w, IsAddress ip2 w) → Documented ip1 ip2 (-1)
  | neither : (¬∃ v, IsAddress ip1 v) → (¬∃ w, IsAddress ip2 w) → Documented ip1 ip2 0

/-- The pairs which are compared as documented: of two addresses exactly one is in the upper half;
beside one address, what is read from the other text happens to lie on the right side of it. -/
inductive ComparedRightly (ip1 ip2 : Option JString) : Prop where
  | both {v w : ℕ} : IsAddress ip1 v → IsAddress ip2 w →
      v < 2147483648 ∧ 2147483648 ≤ w ∨ w < 2147483648 ∧ 2147483648 ≤ v → ComparedRightly ip1 ip2
  | firstOnly {v w : ℕ} : IsAddress ip1 v → (¬∃ address, IsAddress ip2 address) →
      readAddress ip2 = some w → rank v ≤ rank w → ComparedRightly ip1 ip2
  | secondOnly {v w : ℕ} : (¬∃ address, IsAddress ip1 address) → IsAddress ip2 w →
      readAddress ip1 = some v → rank w < rank v → ComparedRightly ip1 ip2

/-! ## The code -/

theorem compareIpV4s_of_le (read1 : readAddress ip1 = some v) (read2 : readAddress ip2 = some w)
    (below : rank v ≤ rank w) : compareIpV4s ip1 ip2 = .ok 1 := by
  have order := (ofNat_le_iff (readAddress_lt read1) (readAddress_lt read2)).mpr below
  have notAbove : ¬Int32.ofNat v > Int32.ofNat w := Int32.not_lt.mpr order
  rw [compareIpV4s, getIpV4Value_of_readAddress read1, getIpV4Value_of_readAddress read2, ok_bind,
    ok_bind, if_neg notAbove, if_pos order]
  rfl

theorem compareIpV4s_of_lt (read1 : readAddress ip1 = some v) (read2 : readAddress ip2 = some w)
    (above : rank w < rank v) : compareIpV4s ip1 ip2 = .ok (-1) := by
  have order := mt (ofNat_le_iff (readAddress_lt read1) (readAddress_lt read2)).mp above.not_ge
  rw [compareIpV4s, getIpV4Value_of_readAddress read1, getIpV4Value_of_readAddress read2, ok_bind,
    ok_bind, if_pos (Int32.not_le.mp order)]
  rfl

/-- An answer is given exactly if both texts are read. -/
theorem compareIpV4s_eq_ok_iff :
    compareIpV4s ip1 ip2 = .ok result ↔
      ∃ v w, readAddress ip1 = some v ∧ readAddress ip2 = some w ∧
        (rank v ≤ rank w ∧ result = 1 ∨ rank w < rank v ∧ result = -1) := by
  constructor
  · intro compared
    cases read1 : readAddress ip1 with
    | none =>
        rw [compareIpV4s, getIpV4Value_eq, read1] at compared
        cases compared
    | some v =>
        cases read2 : readAddress ip2 with
        | none =>
            rw [compareIpV4s, getIpV4Value_of_readAddress read1, ok_bind, getIpV4Value_eq,
              read2] at compared
            cases compared
        | some w =>
            refine ⟨v, w, rfl, rfl, ?_⟩
            rcases le_or_gt (rank v) (rank w) with below | above
            · rw [compareIpV4s_of_le read1 read2 below] at compared
              exact Or.inl ⟨below, (Except.ok.inj compared).symm⟩
            · rw [compareIpV4s_of_lt read1 read2 above] at compared
              exact Or.inr ⟨above, (Except.ok.inj compared).symm⟩
  · rintro ⟨v, w, read1, read2, ⟨below, rfl⟩ | ⟨above, rfl⟩⟩
    · exact compareIpV4s_of_le read1 read2 below
    · exact compareIpV4s_of_lt read1 read2 above

/-! ## The documented result -/

theorem documented_both (first : IsAddress ip1 v) (second : IsAddress ip2 w) :
    Documented ip1 ip2 result ↔ result = if w < v then 1 else if v < w then -1 else 0 := by
  constructor
  · intro documented
    cases documented with
    | greater isFirst isSecond above =>
        rw [first.unique isFirst, second.unique isSecond, if_pos above]
    | less isFirst isSecond below =>
        rw [first.unique isFirst, second.unique isSecond, if_neg below.asymm, if_pos below]
    | equal isFirst isSecond =>
        rw [first.unique isFirst, second.unique isSecond, if_neg (lt_irrefl _),
          if_neg (lt_irrefl _)]
    | firstOnly _ noSecond => exact absurd ⟨w, second⟩ noSecond
    | secondOnly noFirst _ => exact absurd ⟨v, first⟩ noFirst
    | neither noFirst _ => exact absurd ⟨v, first⟩ noFirst
  · rintro rfl
    rcases lt_trichotomy v w with below | rfl | above
    · rw [if_neg below.asymm, if_pos below]
      exact .less first second below
    · rw [if_neg (lt_irrefl _), if_neg (lt_irrefl _)]
      exact .equal first second
    · rw [if_pos above]
      exact .greater first second above

theorem documented_firstOnly (first : IsAddress ip1 v) (noSecond : ¬∃ w, IsAddress ip2 w) :
    Documented ip1 ip2 result ↔ result = 1 := by
  constructor
  · intro documented
    cases documented with
    | greater _ isSecond _ => rfl
    | less _ isSecond _ => exact absurd ⟨_, isSecond⟩ noSecond
    | equal _ isSecond => exact absurd ⟨_, isSecond⟩ noSecond
    | firstOnly _ _ => rfl
    | secondOnly noFirst _ => exact absurd ⟨v, first⟩ noFirst
    | neither noFirst _ => exact absurd ⟨v, first⟩ noFirst
  · rintro rfl
    exact .firstOnly ⟨v, first⟩ noSecond

theorem documented_secondOnly (noFirst : ¬∃ v, IsAddress ip1 v) (second : IsAddress ip2 w) :
    Documented ip1 ip2 result ↔ result = -1 := by
  constructor
  · intro documented
    cases documented with
    | greater isFirst _ _ => exact absurd ⟨_, isFirst⟩ noFirst
    | less _ _ _ => rfl
    | equal isFirst _ => exact absurd ⟨_, isFirst⟩ noFirst
    | firstOnly isFirst _ => exact absurd isFirst noFirst
    | secondOnly _ _ => rfl
    | neither _ noSecond => exact absurd ⟨w, second⟩ noSecond
  · rintro rfl
    exact .secondOnly noFirst ⟨w, second⟩

theorem documented_neither (noFirst : ¬∃ v, IsAddress ip1 v) (noSecond : ¬∃ w, IsAddress ip2 w) :
    Documented ip1 ip2 result ↔ result = 0 := by
  constructor
  · intro documented
    cases documented with
    | greater isFirst _ _ => exact absurd ⟨_, isFirst⟩ noFirst
    | less isFirst _ _ => exact absurd ⟨_, isFirst⟩ noFirst
    | equal isFirst _ => exact absurd ⟨_, isFirst⟩ noFirst
    | firstOnly isFirst _ => exact absurd isFirst noFirst
    | secondOnly _ isSecond => exact absurd isSecond noSecond
    | neither _ _ => rfl
  · rintro rfl
    exact .neither noFirst noSecond

/-! ## Where they agree -/

theorem comparedRightly_both (first : IsAddress ip1 v) (second : IsAddress ip2 w) :
    ComparedRightly ip1 ip2 ↔
      v < 2147483648 ∧ 2147483648 ≤ w ∨ w < 2147483648 ∧ 2147483648 ≤ v := by
  constructor
  · rintro (⟨isFirst, isSecond, halves⟩ | ⟨_, noSecond, _, _⟩ | ⟨noFirst, _, _, _⟩)
    · rwa [first.unique isFirst, second.unique isSecond]
    · exact absurd ⟨w, second⟩ noSecond
    · exact absurd ⟨v, first⟩ noFirst
  · exact fun halves => .both first second halves

theorem documented_iff_both (first : IsAddress ip1 v) (second : IsAddress ip2 w) :
    (∃ result, compareIpV4s ip1 ip2 = .ok result ∧ Documented ip1 ip2 result) ↔
      ComparedRightly ip1 ip2 := by
  have boundedLeft := first.lt
  have boundedRight := second.lt
  rw [comparedRightly_both first second]
  simp only [documented_both first second]
  rcases le_or_gt (rank v) (rank w) with below | above
  · rw [compareIpV4s_of_le first.read second.read below]
    simp only [Except.ok.injEq, exists_eq_left']
    rw [rank, rank] at below
    have halves : v < 2147483648 ∧ 2147483648 ≤ w ∨ w < 2147483648 ∧ 2147483648 ≤ v ↔ w < v := by
      omega
    rw [halves]
    constructor
    · intro agree
      by_contra notGreater
      rw [if_neg notGreater] at agree
      split at agree <;> cases agree
    · intro greater
      rw [if_pos greater]
  · rw [compareIpV4s_of_lt first.read second.read above]
    simp only [Except.ok.injEq, exists_eq_left']
    rw [rank, rank] at above
    have halves : v < 2147483648 ∧ 2147483648 ≤ w ∨ w < 2147483648 ∧ 2147483648 ≤ v ↔ v < w := by
      omega
    rw [halves]
    constructor
    · intro agree
      by_contra notLess
      rw [if_neg notLess] at agree
      split at agree <;> cases agree
    · intro less
      rw [if_neg less.asymm, if_pos less]

theorem documented_iff_firstOnly (first : IsAddress ip1 v) (noSecond : ¬∃ w, IsAddress ip2 w) :
    (∃ result, compareIpV4s ip1 ip2 = .ok result ∧ Documented ip1 ip2 result) ↔
      ComparedRightly ip1 ip2 := by
  simp only [documented_firstOnly first noSecond]
  constructor
  · rintro ⟨result, compared, rfl⟩
    rcases compareIpV4s_eq_ok_iff.mp compared with ⟨v', w, read1, read2, ⟨below, _⟩ | ⟨_, wrong⟩⟩
    · rw [first.read] at read1
      cases read1
      exact .firstOnly first noSecond read2 below
    · cases wrong
  · rintro (⟨_, isSecond, _⟩ | ⟨isFirst, _, read, below⟩ | ⟨noFirst, _, _, _⟩)
    · exact absurd ⟨_, isSecond⟩ noSecond
    · exact ⟨1, compareIpV4s_of_le isFirst.read read below, rfl⟩
    · exact absurd ⟨v, first⟩ noFirst

theorem documented_iff_secondOnly (noFirst : ¬∃ v, IsAddress ip1 v) (second : IsAddress ip2 w) :
    (∃ result, compareIpV4s ip1 ip2 = .ok result ∧ Documented ip1 ip2 result) ↔
      ComparedRightly ip1 ip2 := by
  simp only [documented_secondOnly noFirst second]
  constructor
  · rintro ⟨result, compared, rfl⟩
    rcases compareIpV4s_eq_ok_iff.mp compared with ⟨v, w', read1, read2, ⟨_, wrong⟩ | ⟨above, _⟩⟩
    · cases wrong
    · rw [second.read] at read2
      cases read2
      exact .secondOnly noFirst second read1 above
  · rintro (⟨isFirst, _, _⟩ | ⟨isFirst, _, _, _⟩ | ⟨_, isSecond, read, above⟩)
    · exact absurd ⟨_, isFirst⟩ noFirst
    · exact absurd ⟨_, isFirst⟩ noFirst
    · exact ⟨-1, compareIpV4s_of_lt read isSecond.read above, rfl⟩

/-- The result is the documented one exactly for the pairs described. -/
theorem documented_iff_comparedRightly (ip1 ip2 : Option JString) :
    (∃ result, compareIpV4s ip1 ip2 = .ok result ∧ Documented ip1 ip2 result) ↔
      ComparedRightly ip1 ip2 := by
  by_cases first : ∃ v, IsAddress ip1 v
  · rcases first with ⟨v, first⟩
    by_cases second : ∃ w, IsAddress ip2 w
    · rcases second with ⟨w, second⟩
      exact documented_iff_both first second
    · exact documented_iff_firstOnly first second
  · by_cases second : ∃ w, IsAddress ip2 w
    · rcases second with ⟨w, second⟩
      exact documented_iff_secondOnly first second
    · simp only [documented_neither first second]
      refine iff_of_false ?_ ?_
      · rintro ⟨result, compared, rfl⟩
        rcases compareIpV4s_eq_ok_iff.mp compared with ⟨v, w, _, _, ⟨_, wrong⟩ | ⟨_, wrong⟩⟩
        · cases wrong
        · cases wrong
      · rintro (⟨isFirst, _, _⟩ | ⟨isFirst, _, _, _⟩ | ⟨_, isSecond, _, _⟩)
        · exact first ⟨_, isFirst⟩
        · exact first ⟨_, isFirst⟩
        · exact second ⟨_, isSecond⟩

/-! ## The laws of an order -/

theorem rank_inj (boundedLeft : v < 4294967296) (boundedRight : w < 4294967296)
    (same : rank v = rank w) : v = w := by
  rw [rank, rank] at same
  omega

/-- Swapping the texts reverses the result exactly if both are read and not as the same address. -/
theorem antisymmetric_iff (ip1 ip2 : Option JString) :
    (∃ result, compareIpV4s ip1 ip2 = .ok result ∧ compareIpV4s ip2 ip1 = .ok (-result)) ↔
      ∃ v w, readAddress ip1 = some v ∧ readAddress ip2 = some w ∧ v ≠ w := by
  constructor
  · rintro ⟨result, compared, swapped⟩
    rcases compareIpV4s_eq_ok_iff.mp compared with ⟨v, w, read1, read2, _⟩
    refine ⟨v, w, read1, read2, ?_⟩
    rintro rfl
    rw [compareIpV4s_of_le read1 read2 le_rfl] at compared
    rw [compareIpV4s_of_le read2 read1 le_rfl] at swapped
    cases compared
    cases swapped
  · rintro ⟨v, w, read1, read2, different⟩
    rcases lt_trichotomy (rank v) (rank w) with below | same | above
    · exact ⟨1, compareIpV4s_of_le read1 read2 below.le, compareIpV4s_of_lt read2 read1 below⟩
    · exact absurd (rank_inj (readAddress_lt read1) (readAddress_lt read2) same) different
    · exact ⟨-1, compareIpV4s_of_lt read1 read2 above, compareIpV4s_of_le read2 read1 above.le⟩

/-- Equal results of two comparisons in a row are that of the outer texts. -/
theorem compareIpV4s_trans (first : compareIpV4s ip1 ip2 = .ok result)
    (second : compareIpV4s ip2 ip3 = .ok result) : compareIpV4s ip1 ip3 = .ok result := by
  rcases compareIpV4s_eq_ok_iff.mp first with ⟨v, w, read1, read2, order⟩
  rcases compareIpV4s_eq_ok_iff.mp second with ⟨w', x, read2', read3, order'⟩
  obtain rfl := Option.some.inj (read2.symm.trans read2')
  rcases order with ⟨below, rfl⟩ | ⟨above, rfl⟩
  · rcases order' with ⟨below', _⟩ | ⟨_, wrong⟩
    · exact compareIpV4s_of_le read1 read3 (below.trans below')
    · cases wrong
  · rcases order' with ⟨_, wrong⟩ | ⟨above', _⟩
    · cases wrong
    · exact compareIpV4s_of_lt read1 read3 (above'.trans above)

/-- Where `compareIpV4s` is the documented order, and which laws of an order its answers keep. -/
theorem compareIpV4s_documented_iff (ip1 ip2 : Option JString) :
    ((∃ result, compareIpV4s ip1 ip2 = .ok result ∧ Documented ip1 ip2 result) ↔
        ComparedRightly ip1 ip2) ∧
      ((∃ result, compareIpV4s ip1 ip2 = .ok result ∧ compareIpV4s ip2 ip1 = .ok (-result)) ↔
        ∃ v w, readAddress ip1 = some v ∧ readAddress ip2 = some w ∧ v ≠ w) ∧
      ∀ ip3 result, compareIpV4s ip1 ip2 = .ok result → compareIpV4s ip2 ip3 = .ok result →
        compareIpV4s ip1 ip3 = .ok result :=
  ⟨documented_iff_comparedRightly ip1 ip2, antisymmetric_iff ip1 ip2,
    fun _ _ => compareIpV4s_trans⟩

/-- The smaller address is reported as the greater one, and equal addresses as different. -/
theorem compareIpV4s_wrong :
    compareIpV4s (some (quadText 10 0 0 1)) (some (quadText 10 0 0 2)) = .ok 1 ∧
      ¬Documented (some (quadText 10 0 0 1)) (some (quadText 10 0 0 2)) 1 ∧
      compareIpV4s (some (quadText 10 0 0 1)) (some (quadText 10 0 0 1)) = .ok 1 ∧
      ¬Documented (some (quadText 10 0 0 1)) (some (quadText 10 0 0 1)) 1 := by
  have low := isAddress_quadText 10 0 0 1
  have high := isAddress_quadText 10 0 0 2
  refine ⟨compareIpV4s_of_le low.read high.read (by decide), ?_,
    compareIpV4s_of_le low.read low.read le_rfl, ?_⟩
  · rw [documented_both low high]
    decide
  · rw [documented_both low low]
    decide

end AndroidCollection.Net
