import AndroidCollection.Linker.SymbolTables

/-!
# The slots of a symbol

The constructor reads the dynamic section until it has all it needs, so it depends on the order of
the entries which of the hash tables and relocations it knows of. The slots of a symbol do not
depend on it: they are those of the relocations of procedures whose symbol has the name.
-/

namespace AndroidCollection.Linker

/-- The names of the symbols, and the offset and the info of each relocation of a procedure. -/
structure ElfFile where
  symbols : List (List UInt8)
  pltRelocations : List (UInt32 × UInt32)

/-- The slots of a name. -/
def ElfFile.slots (file : ElfFile) (target : Target) (loadBias : Address) (name : List UInt8) :
    List Address :=
  (file.pltRelocations.filter fun relocation : UInt32 × UInt32 =>
    relocation.2 &&& 0xff = target.pltRelocationType ∧
      file.symbols[(relocation.2 >>> 8).toNat]? = some name).map fun relocation =>
        loadBias + relocation.1

/-- The relocations of the file are in memory. -/
structure ElfFile.RelocationsAt (file : ElfFile) (memory : Memory) (address : Address) : Prop where
  words : ∀ i relocation, file.pltRelocations[i]? = some relocation →
    memory.word (address + 8 * UInt32.ofNat i) = relocation.1 ∧
      memory.word (address + 8 * UInt32.ofNat i + 4) = relocation.2
  indices : ∀ relocation ∈ file.pltRelocations,
    (relocation.2 >>> 8).toNat < file.symbols.length

namespace ElfSharedLibData

/-- What the constructor has read is in the file. -/
structure Describes (data : ElfSharedLibData) (memory : Memory) (file : ElfFile) : Prop where
  names : data.Names memory file.symbols
  length : data.pltRelocationsLen.toNat = file.pltRelocations.length
  relocations : file.RelocationsAt memory data.pltRelocations
  gnu : data.gnuHash.numbuckets ≠ 0 →
    ∃ address, GnuSection memory address file.symbols ∧ data.ReadsGnu memory address
  elf : data.gnuHash.numbuckets = 0 →
    ∃ address, ElfSection memory address file.symbols ∧ data.elfHash = elfHashAt memory address

variable {target : Target} {memory : Memory} {data : ElfSharedLibData} {file : ElfFile}
  {name : List UInt8} {fuel : ℕ}

theorem toNat_shiftRight_lt (info : UInt32) : (info >>> 8).toNat < 2 ^ 24 := by
  have bound := info.toNat_lt
  simp only [UInt32.toNat_shiftRight, Nat.shiftRight_eq_div_pow]
  change info.toNat / 2 ^ 8 < 2 ^ 24
  omega

theorem symbol_inj {i j : UInt32} (small : i.toNat < 2 ^ 24) (smallOther : j.toNat < 2 ^ 24) :
    data.symbol i = data.symbol j ↔ i = j := by
  refine ⟨fun same => ?_, fun same => by rw [same]⟩
  have product : 16 * i = 16 * j := by
    unfold symbol at same
    grind
  have nats := congrArg UInt32.toNat product
  simp only [UInt32.toNat_mul] at nats
  change 16 * i.toNat % 2 ^ 32 = 16 * j.toNat % 2 ^ 32 at nats
  apply UInt32.toNat_inj.1
  omega

namespace Describes

variable (describes : data.Describes memory file)
include describes

theorem pltRelocations_eq : file.pltRelocations =
    (List.range data.pltRelocationsLen.toNat).map fun i =>
      (memory.word (data.pltRelocations + 8 * UInt32.ofNat i),
        memory.word (data.pltRelocations + 8 * UInt32.ofNat i + 4)) := by
  apply List.ext_getElem?
  intro i
  by_cases small : i < file.pltRelocations.length
  · have words := describes.relocations.words i _ (List.getElem?_eq_getElem small)
    simp [describes.length, small, words.1, words.2]
  · simp [describes.length, small]

theorem getPltRelocations_eq (elfSym : Address) :
    data.getPltRelocations target memory elfSym =
      (file.pltRelocations.filter fun relocation : UInt32 × UInt32 =>
        relocation.2 &&& 0xff = target.pltRelocationType ∧
          data.symbol (relocation.2 >>> 8) = elfSym).map fun relocation =>
            data.loadBias + relocation.1 := by
  rw [describes.pltRelocations_eq, getPltRelocations]
  induction List.range data.pltRelocationsLen.toNat with
  | nil => rfl
  | cons i rest ih =>
      rw [List.filterMap_cons, ih]
      by_cases own : memory.word (data.pltRelocations + 8 * UInt32.ofNat i + 4) &&& 0xff =
          target.pltRelocationType
      · by_cases same : data.symbol
            (memory.word (data.pltRelocations + 8 * UInt32.ofNat i + 4) >>> 8) = elfSym
        · simp [own, same]
        · simp [own, same]
      · simp [own]

theorem findAmong_eq : data.findAmong memory name data.pltRelocations data.pltRelocationsLen =
    (file.pltRelocations.find? fun relocation : UInt32 × UInt32 =>
      data.isNamed memory name (relocation.2 >>> 8)).map fun relocation : UInt32 × UInt32 =>
        data.symbol (relocation.2 >>> 8) := by
  rw [describes.pltRelocations_eq, findAmong, List.find?_map, Option.map_map]
  rfl

theorem isNamed_iff (proper : 0 ∉ name) {relocation : UInt32 × UInt32}
    (member : relocation ∈ file.pltRelocations) :
    data.isNamed memory name (relocation.2 >>> 8) = true ↔
      file.symbols[(relocation.2 >>> 8).toNat]? = some name := by
  have named := describes.names.isNamed_iff proper
    (describes.relocations.indices relocation member)
  rwa [UInt32.ofNat_toNat] at named

/-- The relocations of a symbol are those of its name, if no other symbol of a relocation has the
name. -/
theorem getPltRelocations_symbol (proper : 0 ∉ name) {index : UInt32}
    (small : index.toNat < 2 ^ 24)
    (same : ∀ relocation ∈ file.pltRelocations,
      data.isNamed memory name (relocation.2 >>> 8) = true ↔ relocation.2 >>> 8 = index) :
    data.getPltRelocations target memory (data.symbol index) =
      file.slots target data.loadBias name := by
  rw [describes.getPltRelocations_eq, ElfFile.slots]
  congr 1
  apply List.filter_congr
  intro relocation member
  have named := same relocation member
  rw [describes.isNamed_iff proper member] at named
  simp only [named, @symbol_inj data _ _ (toNat_shiftRight_lt _) small]

/-- The same for the symbol with the name, if there is no other one. -/
theorem getPltRelocations_named (proper : 0 ∉ name)
    (unique : ∀ i j : ℕ, file.symbols[i]? = some name → file.symbols[j]? = some name → i = j)
    {index : UInt32} (small : index.toNat < 2 ^ 24)
    (named : file.symbols[index.toNat]? = some name) :
    data.getPltRelocations target memory (data.symbol index) =
      file.slots target data.loadBias name := by
  apply describes.getPltRelocations_symbol proper small
  intro relocation member
  rw [describes.isNamed_iff proper member]
  refine ⟨fun isNamed => ?_, fun same => ?_⟩
  · apply UInt32.toNat_inj.1
    exact unique _ _ isNamed named
  · rw [same]
    exact named

/-- Where the hash table leads to, of the two. -/
theorem exists_lookup (plain : target.Plain name) (proper : 0 ∉ name)
    (unique : ∀ i j : ℕ, file.symbols[i]? = some name → file.symbols[j]? = some name → i = j)
    (enough : file.symbols.length ≤ fuel) :
    ∃ indices : List ℕ,
      (if data.gnuHash.numbuckets > 0 then data.gnuFindSymbolByName target memory name fuel
        else data.elfFindSymbolByName target memory name fuel) =
      some ((indices.find? fun i => file.symbols[i]? = some name).map
        fun i => data.symbol (UInt32.ofNat i)) := by
  by_cases gnu : data.gnuHash.numbuckets = 0
  · rcases describes.elf gnu with ⟨address, written, table⟩
    refine ⟨List.range' 1 (file.symbols.length - 1), ?_⟩
    rw [if_neg (by simp [gnu])]
    exact elfFindSymbolByName_eq describes.names written table plain proper unique enough
  · rcases describes.gnu gnu with ⟨address, written, reads⟩
    refine ⟨gnuIndices memory address file.symbols, ?_⟩
    rw [if_pos (UInt32.pos_iff_ne_zero.2 gnu)]
    exact gnuFindSymbolByName_eq describes.names written reads plain proper enough

/-- The slots which are found for a name are those of the relocations of procedures whose symbol
has the name. -/
theorem getPltRelocations_findSymbolByName (plain : target.Plain name) (proper : 0 ∉ name)
    (unique : ∀ i j : ℕ, file.symbols[i]? = some name → file.symbols[j]? = some name → i = j)
    (enough : file.symbols.length ≤ fuel) :
    ∃ found, data.findSymbolByName target memory name fuel = some found ∧
      ((found.map (data.getPltRelocations target memory)).getD []) =
        file.slots target data.loadBias name := by
  rcases describes.exists_lookup plain proper unique enough with ⟨indices, lookup⟩
  rw [findSymbolByName, lookup]
  refine ⟨_, rfl, ?_⟩
  cases inTable : indices.find? fun i => file.symbols[i]? = some name with
  | some i =>
      have named : file.symbols[i]? = some name := by
        simpa using List.find?_some inTable
      have small : i < file.symbols.length := (List.getElem?_eq_some_iff.1 named).1
      have index := describes.names.toNat_ofNat small
      have fits := describes.names.fits
      rw [← index] at named
      exact describes.getPltRelocations_named proper unique (by omega) named
  | none =>
      rw [Option.map_none, describes.findAmong_eq]
      cases inPlt : file.pltRelocations.find? fun relocation : UInt32 × UInt32 =>
          data.isNamed memory name (relocation.2 >>> 8) with
      | some relocation =>
          have member := List.mem_of_find?_eq_some inPlt
          have named : file.symbols[(relocation.2 >>> 8).toNat]? = some name := by
            rw [← describes.isNamed_iff proper member]
            simpa using List.find?_some inPlt
          exact describes.getPltRelocations_named proper unique (toNat_shiftRight_lt _) named
      | none =>
          have nowhere : ∀ relocation ∈ file.pltRelocations,
              ¬ data.isNamed memory name (relocation.2 >>> 8) = true :=
            fun relocation member => List.find?_eq_none.1 inPlt relocation member
          have noSlots : file.slots target data.loadBias name = [] := by
            apply List.map_eq_nil_iff.2
            apply List.filter_eq_nil_iff.2
            intro relocation member isSlot
            apply nowhere relocation member
            rw [describes.isNamed_iff proper member]
            exact (of_decide_eq_true isSlot).2
          cases inOther : data.findAmong memory name data.relocations data.relocationsLen with
          | none => simp [noSlots]
          | some sym =>
              -- A symbol of another relocation, which no relocation of a procedure has.
              rcases Option.map_eq_some_iff.1 inOther with ⟨i, isFound, rfl⟩
              have named : data.isNamed memory name
                  (memory.word (data.relocations + 8 * UInt32.ofNat i + 4) >>> 8) = true := by
                simpa using List.find?_some isFound
              apply describes.getPltRelocations_symbol proper (toNat_shiftRight_lt _)
              intro relocation member
              refine ⟨fun isNamed => absurd isNamed (nowhere relocation member), fun same => ?_⟩
              rw [same]
              exact named

end Describes

end ElfSharedLibData

/-! ## The constructor -/

/-- The entries of a dynamic section, with an entry of type `DT_NULL` behind them. -/
def DynamicSection (memory : Memory) : Address → List (DynamicTag × UInt32) → Prop
  | entry, [] => entry ≠ 0 ∧ DynamicTag.ofWord (memory.word entry) = .null
  | entry, (tag, value) :: rest =>
      entry ≠ 0 ∧ DynamicTag.ofWord (memory.word entry) = tag ∧ tag ≠ .null ∧
        memory.word (entry + 4) = value ∧ DynamicSection memory (entry + 8) rest

/-- What an entry says about the file is right. -/
def ElfFile.Entry (file : ElfFile) (memory : Memory) (loadBias symTab strTab : Address) :
    DynamicTag → UInt32 → Prop
  | .pltRelSz, value => (value / 8).toNat = file.pltRelocations.length
  | .jmpRel, value => loadBias + value ≠ 0 ∧ file.RelocationsAt memory (loadBias + value)
  | .symTab, value => loadBias + value = symTab
  | .strTab, value => loadBias + value = strTab
  | .hash, value => ElfSection memory (loadBias + value) file.symbols
  | .gnuHash, value => GnuSection memory (loadBias + value) file.symbols
  | _, _ => True

/-- The file is in memory, and the entries of its dynamic section say where. Their order does not
matter, nor whether there is a hash table of one kind or of both. -/
structure ElfFile.LoadedAt (file : ElfFile) (memory : Memory) (loadBias dynamic : Address)
    (entries : List (DynamicTag × UInt32)) (symTab strTab : Address) : Prop where
  someRelocations : file.pltRelocations ≠ []
  someSymbols : symTab ≠ 0
  someStrings : strTab ≠ 0
  names : { ElfSharedLibData.init loadBias with
    dynSymbolsTable := symTab, dynStrsTable := strTab }.Names memory file.symbols
  dynamicSection : DynamicSection memory dynamic entries
  right : ∀ entry ∈ entries, file.Entry memory loadBias symTab strTab entry.1 entry.2
  required : ∀ tag ∈ [DynamicTag.pltRelSz, .jmpRel, .symTab, .strTab],
    ∃ value, (tag, value) ∈ entries
  table : ∃ tag ∈ [DynamicTag.hash, .gnuHash], ∃ value, (tag, value) ∈ entries

def tinyFile : ElfFile where
  symbols := tinySymbols
  pltRelocations := [(0x200, 0x116)]

theorem tinyFile_relocationsAt : tinyFile.RelocationsAt tinyMemory 0x105c where
  words i relocation found := by
    rcases i with _ | i
    · cases found
      decide +kernel
    · cases found
  indices relocation member := by
    rw [List.mem_singleton.1 member]
    decide

theorem tinyFile_loadedAt : tinyFile.LoadedAt tinyMemory 0x1000 0x1000
    [(.pltRelSz, 8), (.jmpRel, 92), (.symTab, 56), (.strTab, 88), (.hash, 100), (.gnuHash, 120)]
    0x1038 0x1058 where
  someRelocations := by simp [tinyFile]
  someSymbols := by decide
  someStrings := by decide
  names := tinyTables_names.congr rfl rfl
  dynamicSection := by
    simp only [DynamicSection]
    decide +kernel
  right := by
    simp only [List.forall_mem_cons]
    refine ⟨by rfl, ⟨by decide, tinyFile_relocationsAt⟩, by rfl, by rfl, tinyMemory_elfSection,
      tinyMemory_gnuSection, by simp⟩
  required := by simp
  table := by simp

namespace ElfSharedLibData

/-- An entry of this type has been read. -/
def Has (data : ElfSharedLibData) : DynamicTag → Prop
  | .pltRelSz => data.pltRelocationsLen ≠ 0
  | .jmpRel => data.pltRelocations ≠ 0
  | .symTab => data.dynSymbolsTable ≠ 0
  | .strTab => data.dynStrsTable ≠ 0
  | .hash => data.elfHash.numbuckets ≠ 0
  | .gnuHash => data.gnuHash.numbuckets ≠ 0
  | _ => True

theorem isComplete_iff (data : ElfSharedLibData) : data.isComplete = true ↔
    (∀ tag ∈ [DynamicTag.pltRelSz, .jmpRel, .symTab, .strTab], data.Has tag) ∧
      ∃ tag ∈ [DynamicTag.hash, .gnuHash], data.Has tag := by
  simp [isComplete, Has, UInt32.pos_iff_ne_zero, and_assoc]

/-- What has been read is in the file. -/
structure Reading (file : ElfFile) (memory : Memory) (loadBias symTab strTab : Address)
    (data : ElfSharedLibData) : Prop where
  loadBias : data.loadBias = loadBias
  length : data.Has .pltRelSz → data.pltRelocationsLen.toNat = file.pltRelocations.length
  relocations : data.Has .jmpRel → file.RelocationsAt memory data.pltRelocations
  symbols : data.Has .symTab → data.dynSymbolsTable = symTab
  strings : data.Has .strTab → data.dynStrsTable = strTab
  elf : data.Has .hash →
    ∃ address, ElfSection memory address file.symbols ∧ data.elfHash = elfHashAt memory address
  gnu : data.Has .gnuHash →
    ∃ address, GnuSection memory address file.symbols ∧ data.ReadsGnu memory address

variable {target : Target} {memory : Memory} {data : ElfSharedLibData} {file : ElfFile}
  {loadBias dynamic symTab strTab entry : Address} {entries rest : List (DynamicTag × UInt32)}
  {tag : DynamicTag} {value : UInt32} {fuel steps : ℕ}

theorem reading_init : (init loadBias).Reading file memory loadBias symTab strTab where
  loadBias := rfl
  length has := absurd rfl has
  relocations has := absurd rfl has
  symbols has := absurd rfl has
  strings has := absurd rfl has
  elf has := absurd rfl has
  gnu has := absurd rfl has

/-- What has been read of other types stays. -/
theorem Has.readEntry {next : ElfSharedLibData} {had : DynamicTag} (has : data.Has had)
    (read : data.readEntry memory tag value = .ok next) (own : next.Has tag) : next.Has had := by
  cases tag with
  | gnuHash =>
      simp only [ElfSharedLibData.readEntry] at read
      split at read
      · cases read
      · cases read
        cases had <;> first | exact own | exact has
  | _ =>
      cases read
      cases had <;> first | exact own | exact has

theorem Reading.readEntry (reading : data.Reading file memory loadBias symTab strTab)
    (someRelocations : file.pltRelocations ≠ []) (someSymbols : symTab ≠ 0)
    (someStrings : strTab ≠ 0)
    (right : file.Entry memory loadBias symTab strTab tag value) :
    ∃ next, data.readEntry memory tag value = .ok next ∧
      next.Reading file memory loadBias symTab strTab ∧ next.Has tag := by
  have bias := reading.loadBias
  cases tag with
  | pltRelSz =>
      have some : value / 8 ≠ 0 := by
        intro isZero
        rw [ElfFile.Entry, isZero] at right
        exact someRelocations (List.length_eq_zero_iff.1 right.symm)
      exact ⟨_, rfl, { reading with length := fun _ => right }, some⟩
  | jmpRel =>
      rw [ElfFile.Entry, ← bias] at right
      exact ⟨_, rfl, { reading with relocations := fun _ => right.2 }, right.1⟩
  | symTab =>
      rw [ElfFile.Entry, ← bias] at right
      have some : data.loadBias + value ≠ 0 := by rwa [right]
      exact ⟨_, rfl, { reading with symbols := fun _ => right }, some⟩
  | strTab =>
      rw [ElfFile.Entry, ← bias] at right
      have some : data.loadBias + value ≠ 0 := by rwa [right]
      exact ⟨_, rfl, { reading with strings := fun _ => right }, some⟩
  | hash =>
      rw [ElfFile.Entry, ← bias] at right
      have some : memory.word (data.loadBias + value) ≠ 0 :=
        UInt32.pos_iff_ne_zero.1 right.buckets
      exact ⟨_, rfl, { reading with elf := fun _ => ⟨_, right, rfl⟩ }, some⟩
  | gnuHash =>
      rw [ElfFile.Entry, ← bias] at right
      have some : memory.word (data.loadBias + value) ≠ 0 :=
        UInt32.pos_iff_ne_zero.1 right.buckets
      have isPower : (memory.word (data.loadBias + value + 8) - 1) &&&
          memory.word (data.loadBias + value + 8) = 0 := by
        rw [UInt32.and_comm, right.and_bloomSize]
        simp
      exact ⟨_, if_neg (not_not.2 isPower), { reading with gnu := fun _ => ⟨_, right, rfl⟩ }, some⟩
  | relSz | relaSz | rel | rela | null | other =>
      exact ⟨_, rfl, { reading with }, trivial⟩

/-- An entry of this type has been read or is still to be read. -/
def Provides (data : ElfSharedLibData) (rest : List (DynamicTag × UInt32)) (tag : DynamicTag) :
    Prop :=
  data.Has tag ∨ ∃ value, (tag, value) ∈ rest

theorem Provides.next {next : ElfSharedLibData} {own : DynamicTag}
    (provides : data.Provides ((own, value) :: rest) tag) (has : next.Has own)
    (keeps : ∀ tag, data.Has tag → next.Has tag) : next.Provides rest tag := by
  rcases provides with was | ⟨later, member⟩
  · exact Or.inl (keeps tag was)
  · rcases List.mem_cons.1 member with same | member
    · cases same
      exact Or.inl has
    · exact Or.inr ⟨later, member⟩

/-- Whatever the order of the entries, the constructor gets what it needs. -/
theorem Reading.readDynamic (reading : data.Reading file memory loadBias symTab strTab)
    (someRelocations : file.pltRelocations ≠ []) (someSymbols : symTab ≠ 0)
    (someStrings : strTab ≠ 0) (dynamicSection : DynamicSection memory entry rest)
    (right : ∀ entry ∈ rest, file.Entry memory loadBias symTab strTab entry.1 entry.2)
    (required : ∀ tag ∈ [DynamicTag.pltRelSz, .jmpRel, .symTab, .strTab], data.Provides rest tag)
    (table : ∃ tag ∈ [DynamicTag.hash, .gnuHash], data.Provides rest tag)
    (enough : rest.length < fuel) :
    ∃ last, ElfSharedLibData.readDynamic memory fuel entry data = some (.ok last) ∧
      last.Reading file memory loadBias symTab strTab ∧ last.isComplete = true := by
  induction rest generalizing data entry fuel with
  | nil =>
      obtain ⟨fuel, rfl⟩ : ∃ steps, fuel = steps + 1 := ⟨fuel - 1, by simp at enough; omega⟩
      have has : ∀ tag, data.Provides [] tag → data.Has tag := by
        rintro tag (has | ⟨_, member⟩)
        · exact has
        · cases member
      refine ⟨data, by simp [ElfSharedLibData.readDynamic, dynamicSection.2], reading, ?_⟩
      rcases table with ⟨tag, isTable, provides⟩
      rw [isComplete_iff]
      exact ⟨fun tag member => has tag (required tag member), tag, isTable, has tag provides⟩
  | cons first rest ih =>
      rcases first with ⟨tag, value⟩
      rcases dynamicSection with ⟨notNull, isTag, notLast, isValue, others⟩
      obtain ⟨fuel, rfl⟩ : ∃ steps, fuel = steps + 1 := ⟨fuel - 1, by omega⟩
      rcases reading.readEntry someRelocations someSymbols someStrings
        (right (tag, value) List.mem_cons_self) with ⟨next, read, reads, has⟩
      have step : ElfSharedLibData.readDynamic memory (fuel + 1) entry data =
          if next.isComplete then some (.ok next)
          else ElfSharedLibData.readDynamic memory fuel (entry + 8) next := by
        simp [ElfSharedLibData.readDynamic, isTag, notNull, notLast, isValue, read]
      have keeps (own : DynamicTag) (was : data.Has own) : next.Has own := was.readEntry read has
      rw [step]
      by_cases complete : next.isComplete = true
      · exact ⟨next, if_pos complete, reads, complete⟩
      · rw [if_neg complete]
        apply ih reads others
        · exact fun entry member => right entry (List.mem_cons_of_mem _ member)
        · exact fun tag member => (required tag member).next has keeps
        · rcases table with ⟨tag, isTable, provides⟩
          exact ⟨tag, isTable, provides.next has keeps⟩
        · simpa using enough

theorem Reading.describes (reading : data.Reading file memory loadBias symTab strTab)
    (complete : data.isComplete = true)
    (names : { init loadBias with
      dynSymbolsTable := symTab, dynStrsTable := strTab }.Names memory file.symbols) :
    data.Describes memory file := by
  rcases data.isComplete_iff.1 complete with ⟨required, table⟩
  have has (tag : DynamicTag) (member : tag ∈ [DynamicTag.pltRelSz, .jmpRel, .symTab, .strTab]) :=
    required tag member
  refine ⟨names.congr (reading.symbols (has .symTab (by simp)))
    (reading.strings (has .strTab (by simp))), reading.length (has .pltRelSz (by simp)),
    reading.relocations (has .jmpRel (by simp)), reading.gnu, fun noGnu => ?_⟩
  rcases table with ⟨tag, isTable, hasTable⟩
  simp only [List.mem_cons, List.not_mem_nil, or_false] at isTable
  rcases isTable with rfl | rfl
  · exact reading.elf hasTable
  · exact absurd noGnu hasTable

end ElfSharedLibData

/-- A library which is loaded has the slots of its file, in whichever order the entries of its
dynamic section are and whichever of its hash tables the constructor has read. -/
theorem ElfFile.LoadedAt.slots_eq {target : Target} {memory : Memory} {file : ElfFile}
    {loadBias symTab strTab : Address} {entries : List (DynamicTag × UInt32)}
    {phdrs : List (UInt32 × Address)} {phdr : UInt32 × Address} {fuel steps : ℕ} {name : String}
    (isDynamic : phdrs.find? (fun phdr => phdr.1 = 2) = some phdr)
    (loaded : file.LoadedAt memory loadBias (loadBias + phdr.2) entries symTab strTab)
    (readable : entries.length < fuel) (plain : target.Plain name.toUTF8.toList)
    (proper : 0 ∉ name.toUTF8.toList)
    (unique : ∀ i j : ℕ, file.symbols[i]? = some name.toUTF8.toList →
      file.symbols[j]? = some name.toUTF8.toList → i = j)
    (enough : file.symbols.length ≤ steps) :
    ∃ data, ElfSharedLibData.ofPhdrs memory loadBias phdrs fuel = some (.ok data) ∧
      ((data.sharedLib target memory steps).slots name).getD [] =
        file.slots target loadBias name.toUTF8.toList := by
  have init := @ElfSharedLibData.reading_init memory file loadBias symTab strTab
  rcases init.readDynamic loaded.someRelocations loaded.someSymbols loaded.someStrings
    loaded.dynamicSection loaded.right (fun tag member => Or.inr (loaded.required tag member))
    (by
      rcases loaded.table with ⟨tag, isTable, provided⟩
      exact ⟨tag, isTable, Or.inr provided⟩) readable with ⟨data, read, reading, complete⟩
  have notNull : loadBias + phdr.2 ≠ 0 := by
    have dynamicSection := loaded.dynamicSection
    cases entries with
    | nil => exact dynamicSection.1
    | cons first rest => exact dynamicSection.1
  refine ⟨data, by simp [ElfSharedLibData.ofPhdrs, isDynamic, notNull, read, complete], ?_⟩
  rcases (reading.describes complete loaded.names).getPltRelocations_findSymbolByName plain proper
    unique enough with ⟨found, isFound, slots⟩
  have slotsOf : (data.sharedLib target memory steps).slots name =
      found.map (data.getPltRelocations target memory) := by
    simp only [ElfSharedLibData.sharedLib, isFound, Option.getD_some]
  rw [slotsOf, ← reading.loadBias, ← slots]

theorem ElfFile.LoadedAt.slots_eq_tinyFile : ∃ data,
    ElfSharedLibData.ofPhdrs tinyMemory 0x1000 [(2, 0)] 7 = some (.ok data) ∧
      ((data.sharedLib .arm tinyMemory 2).slots "a").getD [] = [0x1200] := by
  have name : "a".toUTF8.toList = [97] := by decide +kernel
  have slots := @ElfFile.LoadedAt.slots_eq .arm tinyMemory tinyFile 0x1000 0x1038 0x1058 _
    [(2, 0)] (2, 0) 7 2 "a" (by decide) tinyFile_loadedAt (by decide)
    (by rw [name]; exact Target.plain_of_ascii (by simp)) (by rw [name]; decide)
    (tinySymbols_unique _) (by decide)
  have isSlot : tinyFile.slots .arm 0x1000 "a".toUTF8.toList = [0x1200] := by
    rw [name]
    decide +kernel
  rwa [isSlot] at slots

end AndroidCollection.Linker
