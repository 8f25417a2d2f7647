import AndroidCollection.Linker.ElfSharedLibData
import Mathlib.Tactic.Common

/-!
# Hash tables of symbols

What a linker writes into the hash table of a library, in the format of the System V ABI and in
that of GNU, and what a lookup of a name in it finds: the first symbol with the name among those
which are in the table. The Bloom filter, the mask for the remainder and the comparison of
hashes without their lowest bits refuse no symbol which is there.
-/

namespace AndroidCollection.Linker

/-! ## Hashes -/

/-- The hash function of the System V ABI. -/
def sysvHash (name : List UInt8) : UInt32 :=
  name.foldl (fun h char =>
    let h := (h <<< 4) + char.toUInt32
    let g := h &&& 0xf0000000
    (h ^^^ (g >>> 24)) &&& ~~~g) 0

/-- The hash function of GNU. -/
def gnuHashOf (name : List UInt8) : UInt32 :=
  name.foldl (fun h char => 33 * h + char.toUInt32) 5381

/-- The characters of a name are the same when a `char` is signed. -/
def Target.Plain (target : Target) (name : List UInt8) : Prop :=
  ∀ char ∈ name, target.charValue char = char.toUInt32

theorem Target.plain_of_ascii {target : Target} {name : List UInt8}
    (ascii : ∀ char ∈ name, char < 128) : target.Plain name := by
  intro char member
  have small : ∀ char : Fin 128, target.charValue (UInt8.ofNat char) =
      (UInt8.ofNat char).toUInt32 := by
    cases target <;> decide
  have bound := ascii char member
  rw [UInt8.lt_iff_toNat_lt] at bound
  simpa using small ⟨char.toNat, bound⟩

theorem getLsbD_mask (i : ℕ) : (0xf0000000#32).getLsbD i = decide (28 ≤ i ∧ i < 32) := by
  by_cases small : i < 32
  · have all : ∀ i : Fin 32, (0xf0000000#32).getLsbD i = decide (28 ≤ i.val ∧ i.val < 32) := by
      decide
    exact all ⟨i, small⟩
  · rw [BitVec.getLsbD_of_ge _ _ (by omega)]
    simp [small]

/-- Both ways to fold the four highest bits in. -/
theorem xor_high_eq (h : UInt32) :
    h ^^^ (h &&& (0xf0000000 : UInt32)) ^^^ ((h &&& (0xf0000000 : UInt32)) >>> (24 : UInt32)) =
      (h ^^^ ((h &&& (0xf0000000 : UInt32)) >>> (24 : UInt32))) &&&
        ~~~(h &&& (0xf0000000 : UInt32)) := by
  apply UInt32.toBitVec_inj.1
  apply BitVec.eq_of_getLsbD_eq
  intro i small
  have own : (4026531840#32)[i] = decide (28 ≤ i) := by
    rw [← BitVec.getLsbD_eq_getElem, getLsbD_mask]
    simp [small]
  by_cases high : 28 ≤ i
  · have outside : ¬ 24 + i < 32 := by omega
    simp [own, getLsbD_mask, small, high, outside]
  · simp [own, small, high]

theorem elfhash_eq {target : Target} {name : List UInt8} (plain : target.Plain name) :
    elfhash target name = sysvHash name := by
  apply List.foldl_ext
  intro h char member
  simp only [plain char member, xor_high_eq]

theorem gnuhash_eq {target : Target} {name : List UInt8} (plain : target.Plain name) :
    gnuhash target name = gnuHashOf name := by
  apply List.foldl_ext
  intro h char member
  have shift : h <<< 5 = 32 * h := by
    apply UInt32.toNat_inj.1
    simp [Nat.shiftLeft_eq, Nat.mul_comm]
  rw [plain char member, shift]
  grind

/-! ## Names -/

/-- A string with the byte 0 behind it. -/
def Memory.Contains (memory : Memory) (address : Address) : List UInt8 → Prop
  | [] => memory address = 0
  | char :: rest => char ≠ 0 ∧ memory address = char ∧ memory.Contains (address + 1) rest

theorem Memory.streq_iff {memory : Memory} {address : Address} {string name : List UInt8}
    (contains : memory.Contains address string) (proper : 0 ∉ name) :
    memory.streq address name = true ↔ string = name := by
  induction name generalizing address string with
  | nil =>
      cases string with
      | nil =>
          have isZero : memory address = 0 := contains
          simp [streq, isZero]
      | cons char rest => simp [streq, contains.2.1, contains.1]
  | cons char rest ih =>
      have isChar : char ≠ 0 := fun isZero => proper (isZero ▸ List.mem_cons_self)
      have properRest : 0 ∉ rest := fun member => proper (List.mem_cons_of_mem _ member)
      cases string with
      | nil =>
          have isZero : memory address = 0 := contains
          simp [streq, isZero, Ne.symm isChar]
      | cons other others => simp [streq, contains.2.1, ih contains.2.2 properRest]

/-- The names of the symbols are where the library has them. A relocation has 24 bits for the
index of a symbol. -/
structure ElfSharedLibData.Names (data : ElfSharedLibData) (memory : Memory)
    (symbols : List (List UInt8)) : Prop where
  fits : symbols.length ≤ 2 ^ 24
  contains : ∀ i string, symbols[i]? = some string →
    memory.Contains (data.dynStrsTable + memory.word (data.symbol (UInt32.ofNat i))) string

theorem ElfSharedLibData.Names.congr {data other : ElfSharedLibData} {memory : Memory}
    {symbols : List (List UInt8)} (names : data.Names memory symbols)
    (sameSymbols : other.dynSymbolsTable = data.dynSymbolsTable)
    (sameStrings : other.dynStrsTable = data.dynStrsTable) : other.Names memory symbols where
  fits := names.fits
  contains i string found := by
    rw [ElfSharedLibData.symbol, sameSymbols, sameStrings]
    exact names.contains i string found

/-! ## A small library -/

/-- The words from an address on. -/
def Memory.ofWords (start : Address) (words : List UInt32) : Memory := fun address =>
  (words.getD ((address - start).toNat / 4) 0 >>> (8 * (address % 4))).toUInt8

/-- A library with one symbol, which is called `a`. -/
def tinyMemory : Memory := .ofWords 0x1000 [
  -- The dynamic section.
  2, 8, 23, 92, 6, 56, 5, 88, 4, 100, 0x6ffffef5, 120, 0, 0,
  -- The symbols and their names.
  0, 0, 0, 0, 1, 0, 0, 0, 0x6100,
  -- The relocation.
  0x200, 0x116,
  -- The hash table of the System V ABI.
  1, 2, 1, 0, 0,
  -- The hash table of GNU.
  1, 1, 1, 5, 0x10040, 1, 0x2b607]

def tinySymbols : List (List UInt8) :=
  [[], [97]]

/-- Where its parts are. -/
def tinyTables : ElfSharedLibData where
  loadBias := 0x1000
  pltRelocations := 0x105c
  pltRelocationsLen := 1
  relocations := 0
  relocationsLen := 0
  dynSymbolsTable := 0x1038
  dynStrsTable := 0x1058
  elfHash := elfHashAt tinyMemory 0x1064
  gnuHash := { gnuHashAt tinyMemory 0x1078 with bloomSize := 0 }

theorem tinyTables_names : tinyTables.Names tinyMemory tinySymbols where
  fits := by decide
  contains i string found := by
    rcases i with _ | _ | i
    · cases found
      change tinyMemory _ = 0
      decide +kernel
    · cases found
      refine ⟨by decide, by decide +kernel, ?_⟩
      change tinyMemory _ = 0
      decide +kernel
    · cases found

theorem tinySymbols_unique (name : List UInt8) (i j : ℕ) (first : tinySymbols[i]? = some name)
    (second : tinySymbols[j]? = some name) : i = j := by
  have small : i < tinySymbols.length := (List.getElem?_eq_some_iff.1 first).1
  exact (List.getElem?_inj small (by decide)).1 (first.trans second.symm)

section Lookups

variable {target : Target} {memory : Memory} {data : ElfSharedLibData} {address : Address}
  {symbols : List (List UInt8)} {name : List UInt8} {indices : List ℕ} {fuel i : ℕ}

namespace ElfSharedLibData.Names

theorem toNat_ofNat (names : data.Names memory symbols) (small : i < symbols.length) :
    (UInt32.ofNat i).toNat = i := by
  have fits := names.fits
  rw [UInt32.toNat_ofNat']
  exact Nat.mod_eq_of_lt (by omega)

theorem isNamed_iff (names : data.Names memory symbols) (proper : 0 ∉ name)
    (small : i < symbols.length) :
    data.isNamed memory name (UInt32.ofNat i) = true ↔ symbols[i]? = some name := by
  have contains := names.contains i symbols[i] (List.getElem?_eq_getElem small)
  simp [isNamed, Memory.streq_iff contains proper, List.getElem?_eq_getElem small]

/-- A search through nodes which are indices of symbols. -/
theorem find?_map_ofNat {test : UInt32 → Bool}
    (tests : ∀ i ∈ indices, test (UInt32.ofNat i) = true ↔ symbols[i]? = some name) :
    (indices.map UInt32.ofNat).find? test =
      (indices.find? fun i => symbols[i]? = some name).map UInt32.ofNat := by
  rw [List.find?_map]
  congr 1
  apply List.find?_congr
  intro i member
  apply Bool.eq_iff_iff.2
  simpa using tests i member

/-- The nodes of a bucket are those of the symbols which belong there. -/
theorem filter_map_ofNat (names : data.Names memory symbols)
    (within : ∀ i ∈ indices, i < symbols.length) (bucketOf : ℕ → UInt32) (bucket : UInt32) :
    ((indices.map UInt32.ofNat).filter fun n => bucketOf n.toNat = bucket) =
      (indices.filter fun i => bucketOf i = bucket).map UInt32.ofNat := by
  rw [List.filter_map]
  congr 1
  apply List.filter_congr
  intro i member
  simp only [Function.comp, names.toNat_ofNat (within i member)]

end ElfSharedLibData.Names

/-! ## The table of the System V ABI -/

/-- The indices from this one on, up to 0. -/
def ElfChain (memory : Memory) (chains : Address) : UInt32 → List ℕ → Prop
  | n, [] => n = 0
  | n, i :: rest =>
      n ≠ 0 ∧ n = UInt32.ofNat i ∧ ElfChain memory chains (memory.word (chains + 4 * n)) rest

/-- All symbols but the first one are in the table. -/
structure ElfSection (memory : Memory) (address : Address) (symbols : List (List UInt8)) :
    Prop where
  buckets : 0 < memory.word address
  chain : ∀ bucket, bucket < memory.word address → ∃ list,
    ElfChain memory (address + 8 + 4 * memory.word address)
        (memory.word (address + 8 + 4 * bucket)) list ∧
      list.Perm ((List.range' 1 (symbols.length - 1)).filter fun i =>
        sysvHash (symbols.getD i []) % memory.word address = bucket)

theorem tinyMemory_elfSection : ElfSection tinyMemory 0x1064 tinySymbols where
  buckets := by decide +kernel
  chain bucket small := by
    have one : tinyMemory.word 0x1064 = 1 := by decide +kernel
    rw [one] at small
    rw [UInt32.lt_one_iff.1 small]
    refine ⟨[1], ⟨?_, ?_, ?_⟩, ?_⟩
    · decide +kernel
    · decide +kernel
    · change tinyMemory.word _ = 0
      decide +kernel
    · decide +kernel

theorem chained_of_elfChain {list : List ℕ} {n : UInt32}
    (chain : ElfChain memory data.elfHash.chains n list) (some : n ≠ 0) :
    Chained (data.elfTable memory).next n (list.map UInt32.ofNat) := by
  induction list generalizing n with
  | nil => exact absurd chain some
  | cons i rest ih =>
      rcases chain with ⟨_, rfl, tail⟩
      refine ⟨rfl, ?_⟩
      by_cases last : memory.word (data.elfHash.chains + 4 * UInt32.ofNat i) = 0
      · rw [last] at tail
        cases rest with
        | nil => simp [ElfSharedLibData.elfTable, last]
        | cons other others => exact absurd rfl tail.1
      · simpa [ElfSharedLibData.elfTable, last] using ih tail last

theorem ElfSection.holds (written : ElfSection memory address symbols)
    (table : data.elfHash = elfHashAt memory address) (hash : UInt32) :
    ∃ list : List ℕ, (data.elfTable memory).Holds hash (list.map UInt32.ofNat) ∧
      list.Perm ((List.range' 1 (symbols.length - 1)).filter fun i =>
        sysvHash (symbols.getD i []) % memory.word address = hash % memory.word address) := by
  rcases written.chain _ (UInt32.mod_lt hash written.buckets) with ⟨list, chain, perm⟩
  refine ⟨list, ?_, perm⟩
  have chains : data.elfHash.chains = address + 8 + 4 * memory.word address := by
    rw [table]
    rfl
  have start : (data.elfTable memory).start hash =
      if memory.word (address + 8 + 4 * (hash % memory.word address)) = 0 then none
      else some (memory.word (address + 8 + 4 * (hash % memory.word address))) := by
    simp [ElfSharedLibData.elfTable, table, elfHashAt]
  unfold HashTable.Holds
  rw [start]
  by_cases empty : memory.word (address + 8 + 4 * (hash % memory.word address)) = 0
  · rw [empty] at chain
    cases list with
    | nil => simp [empty]
    | cons i rest => exact absurd rfl chain.1
  · rw [← chains] at chain
    simpa [empty] using chained_of_elfChain chain empty

/-- In the table of the System V ABI a lookup finds the symbol with the name. -/
theorem elfFindSymbolByName_eq (names : data.Names memory symbols)
    (written : ElfSection memory address symbols)
    (table : data.elfHash = elfHashAt memory address) (plain : target.Plain name)
    (proper : 0 ∉ name)
    (unique : ∀ i j : ℕ, symbols[i]? = some name → symbols[j]? = some name → i = j)
    (enough : symbols.length ≤ fuel) :
    data.elfFindSymbolByName target memory name fuel =
      some (((List.range' 1 (symbols.length - 1)).find? fun i => symbols[i]? = some name).map
        fun i => data.symbol (UInt32.ofNat i)) := by
  rcases written.holds table (elfhash target name) with ⟨list, holds, perm⟩
  have within : ∀ i ∈ List.range' 1 (symbols.length - 1), i < symbols.length := by
    intro i member
    rw [List.mem_range'_1] at member
    omega
  have tests : ∀ i ∈ List.range' 1 (symbols.length - 1),
      data.isNamed memory name (UInt32.ofNat i) = true ↔ symbols[i]? = some name := by
    intro i member
    exact names.isNamed_iff proper (within i member)
  have nodes := names.filter_map_ofNat within
    (fun i => sysvHash (symbols.getD i []) % memory.word address)
    (elfhash target name % memory.word address)
  have found : (data.elfTable memory).lookup (data.isNamed memory name) fuel
      (elfhash target name) = some (((List.range' 1 (symbols.length - 1)).map
        UInt32.ofNat).find? (data.isNamed memory name)) := by
    refine HashTable.lookup_eq_find?_of_perm holds (nodes ▸ perm.map UInt32.ofNat) ?_ ?_ ?_
    · intro n member passes
      rcases List.mem_map.1 member with ⟨i, isIndex, rfl⟩
      have named := (tests i isIndex).1 passes
      rw [names.toNat_ofNat (within i isIndex), List.getD_eq_getElem?_getD, named,
        elfhash_eq plain]
      rfl
    · intro n member other memberOther passes passesOther
      rcases List.mem_map.1 member with ⟨i, isIndex, rfl⟩
      rcases List.mem_map.1 memberOther with ⟨j, isOther, rfl⟩
      rw [unique i j ((tests i isIndex).1 passes) ((tests j isOther).1 passesOther)]
    · simp
      omega
  rw [ElfSharedLibData.elfFindSymbolByName, found,
    ElfSharedLibData.Names.find?_map_ofNat tests]
  simp [Function.comp_def]

theorem elfFindSymbolByName_eq_tinyTables :
    tinyTables.elfFindSymbolByName .arm tinyMemory [97] 2 = some (some 0x1048) := by
  have found := @elfFindSymbolByName_eq .arm tinyMemory tinyTables 0x1064 tinySymbols [97] 2
    tinyTables_names tinyMemory_elfSection rfl (Target.plain_of_ascii (by simp))
    (by decide) (tinySymbols_unique [97]) (by decide)
  rw [found]
  decide +kernel

/-! ## The table of GNU -/

/-- The bucket of a symbol. -/
def gnuBucket (memory : Memory) (address : Address) (symbols : List (List UInt8)) (i : ℕ) :
    UInt32 :=
  gnuHashOf (symbols.getD i []) % memory.word address

/-- The symbols which are in the table, those from `symoffset_` on. -/
def gnuIndices (memory : Memory) (address : Address) (symbols : List (List UInt8)) : List ℕ :=
  List.range' (memory.word (address + 4)).toNat
    (symbols.length - (memory.word (address + 4)).toNat)

/-- The symbols in the table are sorted by their buckets, and the words of the chains are behind
the buckets, in the order of the symbols. -/
structure GnuSection (memory : Memory) (address : Address) (symbols : List (List UInt8)) :
    Prop where
  buckets : 0 < memory.word address
  symoffset : 0 < (memory.word (address + 4)).toNat
  shift : memory.word (address + 12) < 32
  bloomSize : ∃ k, (memory.word (address + 8)).toNat = 2 ^ k
  sorted : ∀ i ∈ gnuIndices memory address symbols, ∀ j ∈ gnuIndices memory address symbols,
    i ≤ j → gnuBucket memory address symbols i ≤ gnuBucket memory address symbols j
  first : ∀ bucket, bucket < memory.word address →
    memory.word (address + 16 + 4 * memory.word (address + 8) + 4 * bucket) =
      (((gnuIndices memory address symbols).find? fun i =>
        gnuBucket memory address symbols i = bucket).map UInt32.ofNat).getD 0
  hash : ∀ i ∈ gnuIndices memory address symbols,
    memory.word (address + 16 + 4 * memory.word (address + 8) + 4 * memory.word address +
      4 * (UInt32.ofNat i - memory.word (address + 4))) ||| 1 =
        gnuHashOf (symbols.getD i []) ||| 1
  last : ∀ i ∈ gnuIndices memory address symbols,
    (memory.word (address + 16 + 4 * memory.word (address + 8) + 4 * memory.word address +
      4 * (UInt32.ofNat i - memory.word (address + 4))) &&& 1 = 0 ↔
        ∃ j ∈ gnuIndices memory address symbols, i < j ∧
          gnuBucket memory address symbols j = gnuBucket memory address symbols i)
  bloom : ∀ i ∈ gnuIndices memory address symbols,
    let hash := gnuHashOf (symbols.getD i [])
    let word := memory.word (address + 16 + 4 * (hash / 32 % memory.word (address + 8)))
    (word >>> (hash % 32)) &&& 1 = 1 ∧
      (word >>> ((hash >>> memory.word (address + 12)) % 32)) &&& 1 = 1

theorem mem_gnuIndices : i ∈ gnuIndices memory address symbols ↔
    (memory.word (address + 4)).toNat ≤ i ∧ i < symbols.length := by
  rw [gnuIndices, List.mem_range'_1]
  omega

theorem tinyMemory_gnuIndices : gnuIndices tinyMemory 0x1078 tinySymbols = [1] := by
  decide +kernel

theorem tinyMemory_gnuSection : GnuSection tinyMemory 0x1078 tinySymbols where
  buckets := by decide +kernel
  symoffset := by decide +kernel
  shift := by decide +kernel
  bloomSize := ⟨0, by decide +kernel⟩
  sorted := by
    rw [tinyMemory_gnuIndices]
    decide +kernel
  first bucket small := by
    have one : tinyMemory.word 0x1078 = 1 := by decide +kernel
    rw [one] at small
    rw [UInt32.lt_one_iff.1 small]
    decide +kernel
  hash := by
    rw [tinyMemory_gnuIndices]
    decide +kernel
  last := by
    rw [tinyMemory_gnuIndices]
    decide +kernel
  bloom := by
    rw [tinyMemory_gnuIndices]
    intro i isIndex
    rw [List.mem_singleton.1 isIndex]
    decide +kernel

/-- The constructor has read the table; `bloom_size_` is one less than the number of words. -/
def ElfSharedLibData.ReadsGnu (data : ElfSharedLibData) (memory : Memory) (address : Address) :
    Prop :=
  data.gnuHash =
    { gnuHashAt memory address with bloomSize := (gnuHashAt memory address).bloomSize - 1 }

theorem tinyTables_readsGnu : tinyTables.ReadsGnu tinyMemory 0x1078 := by
  have one : (gnuHashAt tinyMemory 0x1078).bloomSize - 1 = 0 := by decide +kernel
  rw [ElfSharedLibData.ReadsGnu, one]
  rfl

/-- The words of the chains are where the shifted start leads to. -/
theorem ElfSharedLibData.ReadsGnu.chain_eq (reads : data.ReadsGnu memory address) (n : UInt32) :
    data.gnuHash.chains + 4 * n = address + 16 + 4 * memory.word (address + 8) +
      4 * memory.word address + 4 * (n - memory.word (address + 4)) := by
  rw [reads]
  simp only [gnuHashAt]
  grind

theorem xor_shiftRight_of_or_eq {word hash : UInt32} (same : word ||| 1 = hash ||| 1) :
    (word ^^^ hash) >>> 1 = 0 := by
  apply UInt32.toBitVec_inj.1
  apply BitVec.eq_of_getLsbD_eq
  intro i small
  have bits := congrArg (fun value : UInt32 => value.toBitVec.getLsbD (1 + i)) same
  simpa using bits

namespace GnuSection

variable (written : GnuSection memory address symbols)
include written

/-- The mask is the remainder by a power of two. -/
theorem and_bloomSize (value : UInt32) :
    value &&& (memory.word (address + 8) - 1) = value % memory.word (address + 8) := by
  rcases written.bloomSize with ⟨k, size⟩
  apply UInt32.toNat_inj.1
  have positive : 0 < 2 ^ k := Nat.two_pow_pos k
  have minus : (memory.word (address + 8) - 1).toNat = 2 ^ k - 1 := by
    rw [UInt32.toNat_sub_of_le, size]
    · rfl
    · rw [UInt32.le_iff_toNat_le, size]
      exact positive
  rw [UInt32.toNat_and, minus, Nat.and_two_pow_sub_one_eq_mod, UInt32.toNat_mod, size]

/-- The filter lets all names through which are in the table. -/
theorem not_bloomRefuses (reads : data.ReadsGnu memory address)
    (isIndex : i ∈ gnuIndices memory address symbols) :
    data.bloomRefuses memory (gnuHashOf (symbols.getD i [])) = false := by
  rcases written.bloom i isIndex with ⟨first, second⟩
  rw [ElfSharedLibData.bloomRefuses, reads]
  simp only [gnuHashAt, written.and_bloomSize]
  rw [UInt32.and_comm 1, first, UInt32.and_comm 1, second]
  decide

/-- The chain of a symbol goes on to the symbols behind it in its bucket. -/
theorem chained {i : ℕ} (reads : data.ReadsGnu memory address)
    (isIndex : i ∈ gnuIndices memory address symbols) :
    Chained (data.gnuTable memory).next (UInt32.ofNat i)
      (((List.range' i (symbols.length - i)).filter fun j =>
        gnuBucket memory address symbols j = gnuBucket memory address symbols i).map
          UInt32.ofNat) := by
  have bounds := mem_gnuIndices.1 isIndex
  obtain ⟨rest, length⟩ : ∃ rest, symbols.length - i = rest + 1 :=
    ⟨symbols.length - i - 1, by omega⟩
  have next : (data.gnuTable memory).next (UInt32.ofNat i) =
      if ∃ j ∈ gnuIndices memory address symbols, i < j ∧
        gnuBucket memory address symbols j = gnuBucket memory address symbols i
      then some (UInt32.ofNat (i + 1)) else none := by
    simp only [ElfSharedLibData.gnuTable, reads.chain_eq, written.last i isIndex]
    rw [UInt32.ofNat_add]
    rfl
  rw [length, List.range'_succ, List.filter_cons_of_pos (by simp), List.map_cons]
  refine ⟨rfl, ?_⟩
  rw [next]
  by_cases more : ∃ j ∈ gnuIndices memory address symbols, i < j ∧
      gnuBucket memory address symbols j = gnuBucket memory address symbols i
  · rw [if_pos more]
    rcases more with ⟨j, isOther, behind, same⟩
    have isNext : i + 1 ∈ gnuIndices memory address symbols := by
      have := mem_gnuIndices.1 isOther
      exact mem_gnuIndices.2 (by omega)
    have sameNext : gnuBucket memory address symbols (i + 1) =
        gnuBucket memory address symbols i := by
      apply UInt32.le_antisymm
      · rw [← same]
        exact written.sorted _ isNext _ isOther behind
      · exact written.sorted _ isIndex _ isNext (Nat.le_succ i)
    have tail := chained reads isNext
    rwa [sameNext, show symbols.length - (i + 1) = rest by omega] at tail
  · rw [if_neg more]
    apply List.map_eq_nil_iff.2
    apply List.filter_eq_nil_iff.2
    intro j member same
    rw [List.mem_range'_1] at member
    exact more ⟨j, mem_gnuIndices.2 (by omega), by omega, of_decide_eq_true same⟩
termination_by symbols.length - i
decreasing_by omega

omit written in
theorem filter_of_find? {test : ℕ → Bool} (found : (gnuIndices memory address symbols).find? test =
    some i) : (gnuIndices memory address symbols).filter test =
      (List.range' i (symbols.length - i)).filter test := by
  rcases List.find?_range'_eq_some.1 found with ⟨_, isIndex, fails⟩
  have bounds := mem_gnuIndices.1 isIndex
  have front : gnuIndices memory address symbols =
      List.range' (memory.word (address + 4)).toNat (i - (memory.word (address + 4)).toNat) ++
        List.range' i (symbols.length - i) := by
    have split := @List.range'_append_1 (memory.word (address + 4)).toNat
      (i - (memory.word (address + 4)).toNat) (symbols.length - i)
    rw [Nat.add_sub_cancel' bounds.1] at split
    rw [split, gnuIndices]
    congr 1
    omega
  rw [front, List.filter_append, List.filter_eq_nil_iff.2, List.nil_append]
  intro j member
  rw [List.mem_range'_1] at member
  simpa using fails j member.1 (by omega)

theorem holds (names : data.Names memory symbols) (reads : data.ReadsGnu memory address)
    (hash : UInt32) :
    (data.gnuTable memory).Holds hash
      (((gnuIndices memory address symbols).filter fun i =>
        gnuBucket memory address symbols i = hash % memory.word address).map UInt32.ofNat) := by
  have first := written.first _ (UInt32.mod_lt hash written.buckets)
  have start : (data.gnuTable memory).start hash =
      if memory.word (address + 16 + 4 * memory.word (address + 8) +
        4 * (hash % memory.word address)) = 0 then none
      else some (memory.word (address + 16 + 4 * memory.word (address + 8) +
        4 * (hash % memory.word address))) := by
    rw [ElfSharedLibData.gnuTable, reads]
    rfl
  unfold HashTable.Holds
  rw [start, first]
  cases found : (gnuIndices memory address symbols).find? fun i =>
      gnuBucket memory address symbols i = hash % memory.word address with
  | none =>
      have empty : ((gnuIndices memory address symbols).filter fun i =>
          gnuBucket memory address symbols i = hash % memory.word address) = [] := by
        apply List.filter_eq_nil_iff.2
        exact List.find?_eq_none.1 found
      simp [empty]
  | some i =>
      have isIndex := List.mem_of_find?_eq_some found
      have same : gnuBucket memory address symbols i = hash % memory.word address := by
        simpa using List.find?_some found
      have bounds := mem_gnuIndices.1 isIndex
      have positive := written.symoffset
      have some : UInt32.ofNat i ≠ 0 := by
        intro isZero
        have index := names.toNat_ofNat bounds.2
        rw [isZero] at index
        exact absurd (Nat.lt_of_lt_of_le positive bounds.1) (by simp [← index])
      have before : ((gnuIndices memory address symbols).filter fun j =>
          gnuBucket memory address symbols j = hash % memory.word address) =
            (List.range' i (symbols.length - i)).filter fun j =>
              gnuBucket memory address symbols j = gnuBucket memory address symbols i := by
        rw [same]
        exact filter_of_find? found
      simp only [Option.map_some, Option.getD_some, if_neg some, before]
      exact written.chained reads isIndex

end GnuSection

/-- In the table of GNU a lookup finds the first symbol with the name. -/
theorem gnuFindSymbolByName_eq (names : data.Names memory symbols)
    (written : GnuSection memory address symbols) (reads : data.ReadsGnu memory address)
    (plain : target.Plain name) (proper : 0 ∉ name) (enough : symbols.length ≤ fuel) :
    data.gnuFindSymbolByName target memory name fuel =
      some (((gnuIndices memory address symbols).find? fun i => symbols[i]? = some name).map
        fun i => data.symbol (UInt32.ofNat i)) := by
  have tests : ∀ i ∈ gnuIndices memory address symbols,
      ((memory.word (data.gnuHash.chains + 4 * UInt32.ofNat i) ^^^ gnuhash target name) >>> 1 == 0
        && data.isNamed memory name (UInt32.ofNat i)) = true ↔ symbols[i]? = some name := by
    intro i isIndex
    have named := names.isNamed_iff proper (mem_gnuIndices.1 isIndex).2
    simp only [Bool.and_eq_true, named, and_iff_right_iff_imp, beq_iff_eq]
    intro isName
    have hash := written.hash i isIndex
    rw [List.getD_eq_getElem?_getD, isName, ← reads.chain_eq] at hash
    rw [gnuhash_eq plain]
    exact xor_shiftRight_of_or_eq hash
  rw [ElfSharedLibData.gnuFindSymbolByName]
  by_cases refuses : data.bloomRefuses memory (gnuhash target name) = true
  · have absent : ((gnuIndices memory address symbols).find? fun i => symbols[i]? = some name) =
        none := by
      apply List.find?_eq_none.2
      intro i isIndex isName
      have through := written.not_bloomRefuses reads isIndex
      rw [List.getD_eq_getElem?_getD, of_decide_eq_true isName, Option.getD_some,
        ← gnuhash_eq plain] at through
      exact absurd refuses (by simp [through])
    simp [refuses, absent]
  · have holds := written.holds names reads (gnuhash target name)
    have within : ∀ i ∈ gnuIndices memory address symbols, i < symbols.length :=
      fun i isIndex => (mem_gnuIndices.1 isIndex).2
    rw [← names.filter_map_ofNat within] at holds
    rw [if_neg refuses]
    dsimp only
    rw [HashTable.lookup_eq_find? holds, ElfSharedLibData.Names.find?_map_ofNat tests]
    · simp [Function.comp_def]
    · intro n member passes
      rcases List.mem_map.1 member with ⟨i, isIndex, rfl⟩
      have named := (tests i isIndex).1 passes
      rw [names.toNat_ofNat (mem_gnuIndices.1 isIndex).2, gnuBucket, List.getD_eq_getElem?_getD,
        named, gnuhash_eq plain]
      rfl
    · rw [List.length_map, gnuIndices, List.length_range']
      omega

theorem gnuFindSymbolByName_eq_tinyTables :
    tinyTables.gnuFindSymbolByName .arm tinyMemory [97] 2 = some (some 0x1048) := by
  have found := @gnuFindSymbolByName_eq .arm tinyMemory tinyTables 0x1078 tinySymbols [97] 2
    tinyTables_names tinyMemory_gnuSection tinyTables_readsGnu
    (Target.plain_of_ascii (by simp)) (by decide) (by decide)
  rw [found, tinyMemory_gnuIndices]
  decide +kernel

end Lookups

end AndroidCollection.Linker
