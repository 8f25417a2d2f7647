import AndroidCollection.Lib.HashTable
import AndroidCollection.Linker.Libraries

/-!
# Symbols of a shared library

`elfSharedLibData` reads the dynamic section of a library which is loaded, as far as it needs,
and looks up symbols in the hash tables of the library: the one of the System V ABI, or the one
of GNU if there is one. The GOT slots of a symbol are those which its relocations name.

Memory is read as it is. Addresses have 32 bits and wrap around, as the only targets which have
trampolines do; the start of `chains_` relies on it. Loops which memory could keep from ending
have fuel.
-/

namespace AndroidCollection.Linker

inductive Target where
  | arm
  | i386
deriving DecidableEq

/-- A `char` as an operand: it is signed on some targets. -/
def Target.charValue : Target → UInt8 → UInt32
  | .arm, char => char.toUInt32
  | .i386, char => char.toInt8.toInt32.toUInt32

def Target.pltRelocationType : Target → UInt32
  | .arm => 22
  | .i386 => 7

abbrev Memory :=
  Address → UInt8

/-- A little-endian word. -/
def Memory.word (memory : Memory) (address : Address) : UInt32 :=
  (memory address).toUInt32 ||| (memory (address + 1)).toUInt32 <<< 8 |||
    (memory (address + 2)).toUInt32 <<< 16 ||| (memory (address + 3)).toUInt32 <<< 24

/-- `strcmp` finds no difference. -/
def Memory.streq (memory : Memory) (address : Address) : List UInt8 → Bool
  | [] => memory address == 0
  | char :: rest => memory address == char && memory.streq (address + 1) rest

def elfhash (target : Target) (name : List UInt8) : UInt32 :=
  name.foldl (fun h char =>
    let h := (h <<< 4) + target.charValue char
    let g := h &&& 0xf0000000
    let h := h ^^^ g
    h ^^^ (g >>> 24)) 0

def gnuhash (target : Target) (name : List UInt8) : UInt32 :=
  name.foldl (fun h char => h + ((h <<< 5) + target.charValue char)) 5381

structure ElfHash where
  numbuckets : UInt32
  numchains : UInt32
  buckets : Address
  chains : Address

structure GnuHash where
  numbuckets : UInt32
  symoffset : UInt32
  bloomSize : UInt32
  bloomShift : UInt32
  bloomFilter : Address
  buckets : Address
  chains : Address

structure ElfSharedLibData where
  loadBias : Address
  pltRelocations : Address
  pltRelocationsLen : UInt32
  relocations : Address
  relocationsLen : UInt32
  dynSymbolsTable : Address
  dynStrsTable : Address
  elfHash : ElfHash
  gnuHash : GnuHash

namespace ElfSharedLibData

def init (loadBias : Address) : ElfSharedLibData where
  loadBias := loadBias
  pltRelocations := 0
  pltRelocationsLen := 0
  relocations := 0
  relocationsLen := 0
  dynSymbolsTable := 0
  dynStrsTable := 0
  elfHash := ⟨0, 0, 0, 0⟩
  gnuHash := ⟨0, 0, 0, 0, 0, 0, 0⟩

def isComplete (data : ElfSharedLibData) : Bool :=
  data.pltRelocationsLen != 0 && data.pltRelocations != 0 && data.dynSymbolsTable != 0 &&
    data.dynStrsTable != 0 && (data.elfHash.numbuckets > 0 || data.gnuHash.numbuckets > 0)

end ElfSharedLibData

/-! ## The dynamic section -/

def elfHashAt (memory : Memory) (address : Address) : ElfHash where
  numbuckets := memory.word address
  numchains := memory.word (address + 4)
  buckets := address + 8
  chains := address + 8 + 4 * memory.word address

/-- `chains_` starts inside of `buckets_`, or before it, so that an index of it is one of the
symbols. -/
def gnuHashAt (memory : Memory) (address : Address) : GnuHash :=
  let numbuckets := memory.word address
  let symoffset := memory.word (address + 4)
  let bloomSize := memory.word (address + 8)
  let bloomFilter := address + 16
  let buckets := bloomFilter + 4 * bloomSize
  { numbuckets := numbuckets
    symoffset := symoffset
    bloomSize := bloomSize
    bloomShift := memory.word (address + 12)
    bloomFilter := bloomFilter
    buckets := buckets
    chains := buckets + 4 * (numbuckets - symoffset) }

inductive DynamicTag where
  | null
  | pltRelSz
  | jmpRel
  | relSz
  | relaSz
  | rel
  | rela
  | symTab
  | strTab
  | hash
  | gnuHash
  | other
deriving DecidableEq

def DynamicTag.ofWord (word : UInt32) : DynamicTag :=
  if word = 0 then .null
  else if word = 2 then .pltRelSz
  else if word = 23 then .jmpRel
  else if word = 18 then .relSz
  else if word = 8 then .relaSz
  else if word = 17 then .rel
  else if word = 7 then .rela
  else if word = 6 then .symTab
  else if word = 5 then .strTab
  else if word = 4 then .hash
  else if word = 0x6ffffef5 then .gnuHash
  else .other

inductive InputParseError where
  | dynamicTableNull
  | bloomSizeNotPowerOf2
  | notAllInfoFound
deriving DecidableEq

def InputParseError.what : InputParseError → String
  | .dynamicTableNull => "dynamic_table == null"
  | .bloomSizeNotPowerOf2 => "bloom_size_ not power of 2"
  | .notAllInfoFound => "not all info found"

namespace ElfSharedLibData

/-- An entry of the dynamic section; a relocation has 8 bytes. -/
def readEntry (memory : Memory) (data : ElfSharedLibData) (tag : DynamicTag) (value : UInt32) :
    Except InputParseError ElfSharedLibData :=
  match tag with
  | .pltRelSz => .ok { data with pltRelocationsLen := value / 8 }
  | .jmpRel => .ok { data with pltRelocations := data.loadBias + value }
  | .relSz | .relaSz => .ok { data with relocationsLen := value / 8 }
  | .rel | .rela => .ok { data with relocations := data.loadBias + value }
  | .symTab => .ok { data with dynSymbolsTable := data.loadBias + value }
  | .strTab => .ok { data with dynStrsTable := data.loadBias + value }
  | .hash => .ok { data with elfHash := elfHashAt memory (data.loadBias + value) }
  | .gnuHash =>
      let table := gnuHashAt memory (data.loadBias + value)
      if (table.bloomSize - 1) &&& table.bloomSize ≠ 0 then .error .bloomSizeNotPowerOf2
      else .ok { data with gnuHash := { table with bloomSize := table.bloomSize - 1 } }
  | .null | .other => .ok data

/-- `none` when the fuel is used up. -/
def readDynamic (memory : Memory) :
    ℕ → Address → ElfSharedLibData → Option (Except InputParseError ElfSharedLibData)
  | 0, _, _ => none
  | fuel + 1, entry, data =>
      let tag := DynamicTag.ofWord (memory.word entry)
      if entry = 0 ∨ tag = .null then some (.ok data)
      else
        match data.readEntry memory tag (memory.word (entry + 4)) with
        | .error error => some (.error error)
        | .ok next =>
            if next.isComplete then some (.ok next) else readDynamic memory fuel (entry + 8) next

/-- The constructor, with the type and the address of each program header. -/
def ofPhdrs (memory : Memory) (loadBias : Address) (phdrs : List (UInt32 × Address)) (fuel : ℕ) :
    Option (Except InputParseError ElfSharedLibData) :=
  match phdrs.find? fun phdr => phdr.1 = 2 with
  | none => some (.error .dynamicTableNull)
  | some phdr =>
      if loadBias + phdr.2 = 0 then some (.error .dynamicTableNull)
      else
        match readDynamic memory fuel (loadBias + phdr.2) (init loadBias) with
        | none => none
        | some (.error error) => some (.error error)
        | some (.ok data) =>
            if data.isComplete then some (.ok data) else some (.error .notAllInfoFound)

/-! ## Symbols -/

section Symbols

variable (target : Target) (memory : Memory) (data : ElfSharedLibData) (name : List UInt8)

/-- The address of a symbol, which has 16 bytes. -/
def symbol (index : UInt32) : Address :=
  data.dynSymbolsTable + 16 * index

def isNamed (index : UInt32) : Bool :=
  memory.streq (data.dynStrsTable + memory.word (data.symbol index)) name

def elfTable : HashTable UInt32 UInt32 where
  start hash :=
    let n := memory.word (data.elfHash.buckets + 4 * (hash % data.elfHash.numbuckets))
    if n = 0 then none else some n
  next n :=
    let following := memory.word (data.elfHash.chains + 4 * n)
    if following = 0 then none else some following

def elfFindSymbolByName (fuel : ℕ) : Option (Option Address) :=
  ((data.elfTable memory).lookup (data.isNamed memory name) fuel (elfhash target name)).map
    (Option.map data.symbol)

/-- The chain ends at the entry with the lowest bit. -/
def gnuTable : HashTable UInt32 UInt32 where
  start hash :=
    let n := memory.word (data.gnuHash.buckets + 4 * (hash % data.gnuHash.numbuckets))
    if n = 0 then none else some n
  next n := if memory.word (data.gnuHash.chains + 4 * n) &&& 1 = 0 then some (n + 1) else none

/-- `bloom_size_` is one less than the number of words. -/
def bloomRefuses (hash : UInt32) : Bool :=
  let h2 := hash >>> data.gnuHash.bloomShift
  let wordNum := (hash / 32) &&& data.gnuHash.bloomSize
  let bloomWord := memory.word (data.gnuHash.bloomFilter + 4 * wordNum)
  1 &&& (bloomWord >>> (hash % 32)) &&& (bloomWord >>> (h2 % 32)) == 0

def gnuFindSymbolByName (fuel : ℕ) : Option (Option Address) :=
  let hash := gnuhash target name
  if data.bloomRefuses memory hash then some none
  else
    let matches_ (n : UInt32) :=
      (memory.word (data.gnuHash.chains + 4 * n) ^^^ hash) >>> 1 == 0 && data.isNamed memory name n
    ((data.gnuTable memory).lookup matches_ fuel hash).map (Option.map data.symbol)

/-- The symbol of the first relocation whose symbol has the name. -/
def findAmong (relocations : Address) (length : UInt32) : Option Address :=
  ((List.range length.toNat).find? fun i =>
    data.isNamed memory name (memory.word (relocations + 8 * UInt32.ofNat i + 4) >>> 8)).map
      fun i => data.symbol (memory.word (relocations + 8 * UInt32.ofNat i + 4) >>> 8)

def findSymbolByName (fuel : ℕ) : Option (Option Address) :=
  let found :=
    if data.gnuHash.numbuckets > 0 then data.gnuFindSymbolByName target memory name fuel
    else data.elfFindSymbolByName target memory name fuel
  found.map fun sym =>
    match sym with
    | some sym => some sym
    | none =>
        match data.findAmong memory name data.pltRelocations data.pltRelocationsLen with
        | some sym => some sym
        | none => data.findAmong memory name data.relocations data.relocationsLen

def getPltRelocations (elfSym : Address) : List Address :=
  (List.range data.pltRelocationsLen.toNat).filterMap fun i =>
    let relocation := data.pltRelocations + 8 * UInt32.ofNat i
    let info := memory.word (relocation + 4)
    if info &&& 0xff ≠ target.pltRelocationType then none
    else if data.symbol (info >>> 8) = elfSym then some (data.loadBias + memory.word relocation)
    else none

/-- What hooking a library asks of it: the slots of the symbol with a name. -/
def sharedLib (fuel : ℕ) : SharedLib where
  slots name := ((data.findSymbolByName target memory name.toUTF8.toList fuel).getD none).map
    (data.getPltRelocations target memory)

end Symbols

end ElfSharedLibData

end AndroidCollection.Linker
