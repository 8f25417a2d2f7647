import AndroidCollection.Net.Address

/-!
# Address classes

The class of an address is looked up in ranges of `int` values which begin at
the first and end at the last host of the class, so that 1.0.0.0,
126.255.255.255, 128.0.0.0 and 191.255.255.255 belong to no class. No range
crosses the sign, so the lookup is the one in the unsigned ranges. The mask of
`checkSameSegmentByDefault` is that of its first argument. Addresses of
different classes differ in their first octet, so the order of the arguments
matters only beside the four addresses above.
-/

namespace AndroidCollection.Net

open Java

variable {ip : Option JString} {v w : ℕ}

def InClassA (v : ℕ) : Prop :=
  address 1 0 0 1 ≤ v ∧ v ≤ address 126 255 255 254

def InClassB (v : ℕ) : Prop :=
  address 128 0 0 1 ≤ v ∧ v ≤ address 191 255 255 254

def InClassC (v : ℕ) : Prop :=
  address 192 168 0 0 ≤ v ∧ v ≤ address 192 168 255 255

instance : Decidable (InClassA v) :=
  inferInstanceAs (Decidable (_ ∧ _))

instance : Decidable (InClassB v) :=
  inferInstanceAs (Decidable (_ ∧ _))

instance : Decidable (InClassC v) :=
  inferInstanceAs (Decidable (_ ∧ _))

def classOf (v : ℕ) : ℤ :=
  if InClassA v then IP_A_TYPE
  else if InClassB v then IP_B_TYPE
  else if InClassC v then IP_C_TYPE
  else IP_OTHER_TYPE

def maskA : Int32 := quadValue 255 0 0 0

def maskB : Int32 := quadValue 255 255 0 0

def maskC : Int32 := quadValue 255 255 255 0

def defaultMask (v : ℕ) : Int32 :=
  if InClassA v then maskA else if InClassB v then maskB else maskC

/-! ## The lookup -/

theorem staticInit_eq :
    staticInit = .ok
      { IpATypeRange := (quadValue 1 0 0 1, quadValue 126 255 255 254)
        IpBTypeRange := (quadValue 128 0 0 1, quadValue 191 255 255 254)
        IpCTypeRange := (quadValue 192 168 0 0, quadValue 192 168 255 255)
        DefaultIpAMask := maskA
        DefaultIpBMask := maskB
        DefaultIpCMask := maskC } := by
  have read {text : JString} {a b c d : UInt8} (same : text = quadText a b c d) :
      getIpV4Value (some text) = .ok (quadValue a b c d) := by
    rw [same, getIpV4Value_quadText]
  rw [staticInit, read (a := 1) (b := 0) (c := 0) (d := 1) (by decide),
    read (a := 126) (b := 255) (c := 255) (d := 254) (by decide),
    read (a := 128) (b := 0) (c := 0) (d := 1) (by decide),
    read (a := 191) (b := 255) (c := 255) (d := 254) (by decide),
    read (a := 192) (b := 168) (c := 0) (d := 0) (by decide),
    read (a := 192) (b := 168) (c := 255) (d := 255) (by decide),
    read (a := 255) (b := 0) (c := 0) (d := 0) (by decide),
    read (a := 255) (b := 255) (c := 0) (d := 0) (by decide),
    read (a := 255) (b := 255) (c := 255) (d := 0) (by decide)]
  rfl

/-- A range which does not cross the sign is a range of unsigned addresses. -/
theorem rank_mem_range_iff {low high : ℕ} (boundedLow : low < 4294967296)
    (boundedHigh : high < 4294967296) (bounded : v < 4294967296)
    (sameSign : low < 2147483648 ↔ high < 2147483648) :
    rank low ≤ rank v ∧ rank v ≤ rank high ↔ low ≤ v ∧ v ≤ high := by
  rw [rank, rank, rank]
  omega

theorem inRange_iff (bounded : v < 4294967296) (a b c d e f g h : UInt8)
    (sameSign : address a.toNat b.toNat c.toNat d.toNat < 2147483648 ↔
      address e.toNat f.toNat g.toNat h.toNat < 2147483648) :
    (Int32.ofNat v ≥ quadValue a b c d ∧ Int32.ofNat v ≤ quadValue e f g h) ↔
      address a.toNat b.toNat c.toNat d.toNat ≤ v ∧
        v ≤ address e.toNat f.toNat g.toNat h.toNat := by
  have low := address_lt a b c d
  have high := address_lt e f g h
  rw [quadValue_eq_ofNat, quadValue_eq_ofNat, ge_iff_le, ofNat_le_iff low bounded,
    ofNat_le_iff bounded high, rank_mem_range_iff low high bounded sameSign]

theorem disjoint_classes : ¬(InClassC v ∧ InClassB v) ∧ ¬(InClassC v ∧ InClassA v) ∧
    ¬(InClassB v ∧ InClassA v) := by
  simp only [InClassA, InClassB, InClassC, address]
  omega

/-- The lookup tests the ranges from the last to the first, which makes no difference. -/
theorem checkIpV4Type_of_read (read : readAddress ip = some v) :
    checkIpV4Type ip = .ok (classOf v) := by
  have bounded := readAddress_lt read
  rcases @disjoint_classes v with ⟨notCB, notCA, notBA⟩
  have rangeC : (Int32.ofNat v ≥ quadValue 192 168 0 0 ∧
      Int32.ofNat v ≤ quadValue 192 168 255 255) ↔ InClassC v :=
    inRange_iff bounded 192 168 0 0 192 168 255 255 (by decide)
  have rangeB : (Int32.ofNat v ≥ quadValue 128 0 0 1 ∧
      Int32.ofNat v ≤ quadValue 191 255 255 254) ↔ InClassB v :=
    inRange_iff bounded 128 0 0 1 191 255 255 254 (by decide)
  have rangeA : (Int32.ofNat v ≥ quadValue 1 0 0 1 ∧
      Int32.ofNat v ≤ quadValue 126 255 255 254) ↔ InClassA v :=
    inRange_iff bounded 1 0 0 1 126 255 255 254 (by decide)
  rw [checkIpV4Type, staticInit_eq, getIpV4Value_of_readAddress read, ok_bind, ok_bind]
  simp only [rangeC, rangeB, rangeA, classOf]
  by_cases inC : InClassC v
  · rw [if_pos inC, if_neg fun inA => notCA ⟨inC, inA⟩, if_neg fun inB => notCB ⟨inC, inB⟩,
      if_pos inC]
    rfl
  · rw [if_neg inC]
    by_cases inB : InClassB v
    · rw [if_pos inB, if_neg fun inA => notBA ⟨inB, inA⟩, if_pos inB]
      rfl
    · rw [if_neg inB, if_neg inB, if_neg inC]
      by_cases inA : InClassA v
      · rw [if_pos inA, if_pos inA]
        rfl
      · rw [if_neg inA, if_neg inA]
        rfl

theorem getDefaultMaskValue_of_read (read : readAddress ip = some v) :
    getDefaultMaskValue ip = .ok (defaultMask v) := by
  rw [getDefaultMaskValue, staticInit_eq, checkIpV4Type_of_read read, ok_bind, ok_bind, classOf,
    defaultMask]
  split_ifs <;> first | rfl | contradiction

theorem classOf_eq_iff (v : ℕ) :
    (classOf v = IP_A_TYPE ↔ InClassA v) ∧ (classOf v = IP_B_TYPE ↔ InClassB v) ∧
      (classOf v = IP_C_TYPE ↔ InClassC v) ∧
      (classOf v = IP_OTHER_TYPE ↔ ¬InClassA v ∧ ¬InClassB v ∧ ¬InClassC v) := by
  rcases @disjoint_classes v with ⟨notCB, notCA, notBA⟩
  rw [classOf]
  by_cases inA : InClassA v
  · have notB : ¬InClassB v := fun inB => notBA ⟨inB, inA⟩
    have notC : ¬InClassC v := fun inC => notCA ⟨inC, inA⟩
    simp [inA, notB, notC, IP_A_TYPE, IP_B_TYPE, IP_C_TYPE, IP_OTHER_TYPE]
  · by_cases inB : InClassB v
    · have notC : ¬InClassC v := fun inC => notCB ⟨inC, inB⟩
      simp [inA, inB, notC, IP_A_TYPE, IP_B_TYPE, IP_C_TYPE, IP_OTHER_TYPE]
    · by_cases inC : InClassC v
      · simp [inA, inB, inC, IP_A_TYPE, IP_B_TYPE, IP_C_TYPE, IP_OTHER_TYPE]
      · simp [inA, inB, inC, IP_A_TYPE, IP_B_TYPE, IP_C_TYPE, IP_OTHER_TYPE]

/-- Every dotted quad has the class of its unsigned address, and the mask of its class. -/
theorem quad_classified (a b c d : UInt8) :
    (checkIpV4Type (some (quadText a b c d)) = .ok IP_A_TYPE ↔
        InClassA (address a.toNat b.toNat c.toNat d.toNat)) ∧
      (checkIpV4Type (some (quadText a b c d)) = .ok IP_B_TYPE ↔
        InClassB (address a.toNat b.toNat c.toNat d.toNat)) ∧
      (checkIpV4Type (some (quadText a b c d)) = .ok IP_C_TYPE ↔
        InClassC (address a.toNat b.toNat c.toNat d.toNat)) ∧
      (checkIpV4Type (some (quadText a b c d)) = .ok IP_OTHER_TYPE ↔
        ¬InClassA (address a.toNat b.toNat c.toNat d.toNat) ∧
          ¬InClassB (address a.toNat b.toNat c.toNat d.toNat) ∧
          ¬InClassC (address a.toNat b.toNat c.toNat d.toNat)) ∧
      getDefaultMaskStr (some (quadText a b c d)) = .ok
        (if InClassA (address a.toNat b.toNat c.toNat d.toNat) then
          ascii ['2', '5', '5', '.', '0', '.', '0', '.', '0']
        else if InClassB (address a.toNat b.toNat c.toNat d.toNat) then
          ascii ['2', '5', '5', '.', '2', '5', '5', '.', '0', '.', '0']
        else
          ascii ['2', '5', '5', '.', '2', '5', '5', '.', '2', '5', '5', '.', '0']) := by
  have read := (isAddress_quadText a b c d).read
  generalize address a.toNat b.toNat c.toNat d.toNat = v at read
  rw [checkIpV4Type_of_read read, getDefaultMaskStr, getDefaultMaskValue_of_read read, ok_bind]
  simp only [Except.ok.injEq]
  rcases classOf_eq_iff v with ⟨isA, isB, isC, isOther⟩
  refine ⟨isA, isB, isC, isOther, ?_⟩
  have textA : quadText 255 0 0 0 = ascii ['2', '5', '5', '.', '0', '.', '0', '.', '0'] := by decide
  have textB : quadText 255 255 0 0 =
      ascii ['2', '5', '5', '.', '2', '5', '5', '.', '0', '.', '0'] := by decide
  have textC : quadText 255 255 255 0 =
      ascii ['2', '5', '5', '.', '2', '5', '5', '.', '2', '5', '5', '.', '0'] := by decide
  change Except.ok (trans2IpStr (defaultMask v)) = _
  rw [defaultMask, ← textA, ← textB, ← textC]
  split_ifs
  · rw [maskA, trans2IpStr_quadValue]
  · rw [maskB, trans2IpStr_quadValue]
  · rw [maskC, trans2IpStr_quadValue]

/-! ## Segments -/

theorem and_quadValue (m n o p a b c d : UInt8) :
    quadValue m n o p &&& quadValue a b c d =
      quadValue (m &&& a) (n &&& b) (o &&& c) (p &&& d) := by
  rw [← Int32.toBitVec_inj, Int32.toBitVec_and]
  change (m.toBitVec ++ n.toBitVec ++ o.toBitVec ++ p.toBitVec) &&&
      (a.toBitVec ++ b.toBitVec ++ c.toBitVec ++ d.toBitVec) =
    (m.toBitVec &&& a.toBitVec) ++ (n.toBitVec &&& b.toBitVec) ++ (o.toBitVec &&& c.toBitVec) ++
      (p.toBitVec &&& d.toBitVec)
  rw [BitVec.and_append, BitVec.and_append, BitVec.and_append]

/-- A mask keeps the octets of the segment. -/
theorem masked_eq_iff (a b c d e f g h : UInt8) :
    (maskA &&& quadValue a b c d = maskA &&& quadValue e f g h ↔ a = e) ∧
      (maskB &&& quadValue a b c d = maskB &&& quadValue e f g h ↔ a = e ∧ b = f) ∧
      (maskC &&& quadValue a b c d = maskC &&& quadValue e f g h ↔ a = e ∧ b = f ∧ c = g) := by
  have all (octet : UInt8) : 255 &&& octet = octet := by
    rw [UInt8.and_comm]
    exact UInt8.and_neg_one
  simp [maskA, maskB, maskC, and_quadValue, quadValue_inj, all, UInt8.zero_and]

/-- The octets of an address which the range of a class leaves out though its first octets belong
to the class, and those of one with the same first octets in another segment of class C. -/
def LeftOut (a b c d e f g : ℕ) : Prop :=
  a = 1 ∧ b = 0 ∧ c = 0 ∧ d = 0 ∧ e = 1 ∧ (f ≠ 0 ∨ g ≠ 0) ∨
    a = 126 ∧ b = 255 ∧ c = 255 ∧ d = 255 ∧ e = 126 ∧ (f ≠ 255 ∨ g ≠ 255) ∨
    a = 128 ∧ b = 0 ∧ c = 0 ∧ d = 0 ∧ e = 128 ∧ f = 0 ∧ g ≠ 0 ∨
    a = 191 ∧ b = 255 ∧ c = 255 ∧ d = 255 ∧ e = 191 ∧ f = 255 ∧ g ≠ 255

section Octets

variable {a b c d e f g h : ℕ}

theorem inClassA_address (second : b < 256) (third : c < 256) (fourth : d < 256) :
    InClassA (address a b c d) ↔
      1 ≤ a ∧ a ≤ 126 ∧ ¬(a = 1 ∧ b = 0 ∧ c = 0 ∧ d = 0) ∧
        ¬(a = 126 ∧ b = 255 ∧ c = 255 ∧ d = 255) := by
  rw [InClassA, address, address, address]
  omega

theorem inClassB_address (second : b < 256) (third : c < 256) (fourth : d < 256) :
    InClassB (address a b c d) ↔
      128 ≤ a ∧ a ≤ 191 ∧ ¬(a = 128 ∧ b = 0 ∧ c = 0 ∧ d = 0) ∧
        ¬(a = 191 ∧ b = 255 ∧ c = 255 ∧ d = 255) := by
  rw [InClassB, address, address, address]
  omega

end Octets

/-- The octets of the segment which the class of the first address gives agree. -/
def Agree (a b c d e f g : ℕ) : Prop :=
  a = e ∧ (InClassA (address a b c d) ∨ b = f ∧ (InClassB (address a b c d) ∨ c = g))

theorem masked_eq_iff_agree (a b c d e f g h : UInt8) :
    defaultMask (address a.toNat b.toNat c.toNat d.toNat) &&& quadValue a b c d =
        defaultMask (address a.toNat b.toNat c.toNat d.toNat) &&& quadValue e f g h ↔
      Agree a.toNat b.toNat c.toNat d.toNat e.toNat f.toNat g.toNat := by
  rcases masked_eq_iff a b c d e f g h with ⟨keepA, keepB, keepC⟩
  rw [Agree, UInt8.toNat_inj, UInt8.toNat_inj, UInt8.toNat_inj, defaultMask]
  split_ifs with inA inB
  · simp [keepA, inA]
  · simp [keepB, inA, inB]
  · simp [keepC, inA, inB]

/-- The octets left out are those of no class whose first octets belong to one. -/
theorem leftOut_iff {a b c d e f g h : ℕ} (second : b < 256) (third : c < 256)
    (fourth : d < 256) (sixth : f < 256) (seventh : g < 256) (eighth : h < 256) :
    LeftOut a b c d e f g ↔
      ¬InClassA (address a b c d) ∧ ¬InClassB (address a b c d) ∧ a = e ∧
        (InClassA (address e f g h) ∧ (b ≠ f ∨ c ≠ g) ∨
          InClassB (address e f g h) ∧ b = f ∧ c ≠ g) := by
  rw [inClassA_address second third fourth, inClassB_address second third fourth,
    inClassA_address sixth seventh eighth, inClassB_address sixth seventh eighth, LeftOut]
  constructor
  · rintro (⟨rfl, rfl, rfl, rfl, rfl, apart⟩ | ⟨rfl, rfl, rfl, rfl, rfl, apart⟩ |
      ⟨rfl, rfl, rfl, rfl, rfl, rfl, apart⟩ | ⟨rfl, rfl, rfl, rfl, rfl, rfl, apart⟩)
    · exact ⟨by omega, by omega, rfl, Or.inl ⟨by omega, by omega⟩⟩
    · exact ⟨by omega, by omega, rfl, Or.inl ⟨by omega, by omega⟩⟩
    · exact ⟨by omega, by omega, rfl, Or.inr ⟨by omega, rfl, by omega⟩⟩
    · exact ⟨by omega, by omega, rfl, Or.inr ⟨by omega, rfl, by omega⟩⟩
  · rintro ⟨notA, notB, rfl, ⟨⟨low, high, -, -⟩, apart⟩ | ⟨⟨low, high, -, -⟩, rfl, apart⟩⟩
    · obtain ⟨rfl, rfl, rfl, rfl⟩ | ⟨rfl, rfl, rfl, rfl⟩ :
          a = 1 ∧ b = 0 ∧ c = 0 ∧ d = 0 ∨ a = 126 ∧ b = 255 ∧ c = 255 ∧ d = 255 := by
        omega
      · exact Or.inl ⟨rfl, rfl, rfl, rfl, rfl, by omega⟩
      · exact Or.inr (Or.inl ⟨rfl, rfl, rfl, rfl, rfl, by omega⟩)
    · obtain ⟨rfl, rfl, rfl, rfl⟩ | ⟨rfl, rfl, rfl, rfl⟩ :
          a = 128 ∧ b = 0 ∧ c = 0 ∧ d = 0 ∨ a = 191 ∧ b = 255 ∧ c = 255 ∧ d = 255 := by
        omega
      · exact Or.inr (Or.inr (Or.inl ⟨rfl, rfl, rfl, rfl, rfl, rfl, by omega⟩))
      · exact Or.inr (Or.inr (Or.inr ⟨rfl, rfl, rfl, rfl, rfl, rfl, by omega⟩))

theorem agree_symmetric_iff {a b c d e f g h : ℕ} (second : b < 256) (third : c < 256)
    (fourth : d < 256) (sixth : f < 256) (seventh : g < 256) (eighth : h < 256) :
    (Agree a b c d e f g ↔ Agree e f g h a b c) ↔
      ¬(LeftOut a b c d e f g ∨ LeftOut e f g h a b c) := by
  have apart : a = e → ¬(InClassA (address a b c d) ∧ InClassB (address e f g h)) ∧
      ¬(InClassA (address e f g h) ∧ InClassB (address a b c d)) := by
    rintro rfl
    rw [inClassA_address second third fourth, inClassB_address second third fourth,
      inClassA_address sixth seventh eighth, inClassB_address sixth seventh eighth]
    omega
  have notBoth : ¬(InClassB (address a b c d) ∧ InClassA (address a b c d)) :=
    disjoint_classes.2.2
  have notBoth' : ¬(InClassB (address e f g h) ∧ InClassA (address e f g h)) :=
    disjoint_classes.2.2
  rw [leftOut_iff second third fourth sixth seventh eighth,
    leftOut_iff sixth seventh eighth second third fourth, Agree, Agree]
  by_cases same : a = e
  · rw [eq_comm (a := e), eq_comm (a := f), eq_comm (a := g)]
    have separate := apart same
    grind
  · rw [eq_comm (a := e)]
    simp [same]

/-- The first text is an address which its class leaves out, the second one beside it. -/
def LeftOutPair (ip1 ip2 : Option JString) : Prop :=
  ∃ a b c d e f g h : UInt8, ip1 = some (quadText a b c d) ∧ ip2 = some (quadText e f g h) ∧
    LeftOut a.toNat b.toNat c.toNat d.toNat e.toNat f.toNat g.toNat

/-- An accepted text is read as its own octets, or as zeros if blanks surround it. -/
theorem octets_of_accepted (accepted : ipV4Validate ip = true) :
    ∃ a b c d : UInt8, getIpV4Value ip = .ok (quadValue a b c d) ∧
      (ip = some (quadText a b c d) ∨ a = 0) := by
  rcases ip with _ | text
  · cases accepted
  rcases (ipV4Validate_iff_quadText text).mp accepted with ⟨a, b, c, d, trimmed⟩
  have read := getIpV4Value_of_trim (trimmed.trans (trans2IpStr_quadValue a b c d).symm)
  by_cases same : trim text = text
  · rw [if_pos same] at read
    exact ⟨a, b, c, d, read, Or.inl (by rw [← trimmed, same])⟩
  · rw [if_neg same] at read
    exact ⟨0, 0, 0, 0, read, Or.inr rfl⟩

theorem checkSameSegmentByDefault_of_accepted {ip1 ip2 : Option JString}
    {a b c d e f g h : UInt8} (accepted1 : ipV4Validate ip1 = true)
    (accepted2 : ipV4Validate ip2 = true) (read1 : getIpV4Value ip1 = .ok (quadValue a b c d))
    (read2 : getIpV4Value ip2 = .ok (quadValue e f g h)) :
    checkSameSegmentByDefault ip1 ip2 = .ok true ↔
      Agree a.toNat b.toNat c.toNat d.toNat e.toNat f.toNat g.toNat := by
  have found := readAddress_of_getIpV4Value (address_lt a b c d)
    (by rw [read1, quadValue_eq_ofNat])
  rw [checkSameSegmentByDefault, getDefaultMaskValue_of_read found, ok_bind, checkSameSegment,
    accepted1, accepted2, read1, read2, ← masked_eq_iff_agree a b c d e f g h]
  simp

/-- Both texts are accepted, so an answer is given. -/
theorem exists_checkSameSegmentByDefault {ip1 ip2 : Option JString}
    (accepted1 : ipV4Validate ip1 = true) (accepted2 : ipV4Validate ip2 = true) :
    ∃ answer, checkSameSegmentByDefault ip1 ip2 = .ok answer := by
  rcases octets_of_accepted accepted1 with ⟨a, b, c, d, read1, -⟩
  rcases octets_of_accepted accepted2 with ⟨e, f, g, h, read2, -⟩
  have found := readAddress_of_getIpV4Value (address_lt a b c d)
    (by rw [read1, quadValue_eq_ofNat])
  rw [checkSameSegmentByDefault, getDefaultMaskValue_of_read found, ok_bind, checkSameSegment,
    accepted1, accepted2, read1, read2]
  exact ⟨_, rfl⟩

theorem leftOutPair_iff {ip1 ip2 : Option JString} {a b c d e f g h : UInt8}
    (read1 : getIpV4Value ip1 = .ok (quadValue a b c d))
    (own1 : ip1 = some (quadText a b c d) ∨ a = 0)
    (read2 : getIpV4Value ip2 = .ok (quadValue e f g h))
    (own2 : ip2 = some (quadText e f g h) ∨ e = 0) :
    LeftOutPair ip1 ip2 ↔ LeftOut a.toNat b.toNat c.toNat d.toNat e.toNat f.toNat g.toNat := by
  constructor
  · rintro ⟨a', b', c', d', e', f', g', h', rfl, rfl, leftOut⟩
    rw [getIpV4Value_quadText, Except.ok.injEq, quadValue_inj] at read1 read2
    rcases read1 with ⟨rfl, rfl, rfl, rfl⟩
    rcases read2 with ⟨rfl, rfl, rfl, rfl⟩
    exact leftOut
  · intro leftOut
    rcases own1 with own1 | rfl
    · rcases own2 with own2 | rfl
      · exact ⟨a, b, c, d, e, f, g, h, own1, own2, leftOut⟩
      · simp [LeftOut] at leftOut
    · simp [LeftOut] at leftOut

end AndroidCollection.Net
