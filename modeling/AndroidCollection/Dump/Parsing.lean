import AndroidCollection.Dump.Format

/-!
# What `handleRecentAlloc` reads

Each reader of `HandleHeap` reads a part of the documented format, except that a
frame with extra bytes is read one byte too short, since the loop which skips them
counts from nine though only eight bytes have been read.
-/

namespace AndroidCollection.Dump

open FormatReader Java

/-! ## Frames -/

theorem reads_nameAt (names : List JString) (index : Int16) :
    Reads (nameAt names index) fun name tokens =>
      names[unsigned index]? = some name ∧ tokens = [] :=
  Reads.ofOption _ _

theorem reads_skipFromNine (len : ℕ) :
    Reads (skipFromNine len) fun _ tokens => tokens.length = len - 9 :=
  Reads.skip _ _

@[simp]
theorem unsigned_toInt16 (bits : UInt16) : unsigned bits.toInt16 = bits.toNat :=
  rfl

theorem getElem?_eq_some_iff_getD {names : List JString} {index : ℕ} {name : JString} :
    names[index]? = some name ↔ index < names.length ∧ names.getD index [] = name := by
  rw [List.getD_eq_getElem?_getD]
  constructor
  · intro found
    rw [found]
    exact ⟨(List.getElem?_eq_some_iff.mp found).1, rfl⟩
  · rintro ⟨inRange, rfl⟩
    rw [List.getElem?_eq_getElem inRange]
    rfl

theorem reads_readFrame (stackFrameLen : ℕ) (tables : Tables) :
    Reads (readFrame stackFrameLen tables)
      (Written (FrameRecord.Fits (8 + (stackFrameLen - 9)) tables) FrameRecord.bytes
        (FrameRecord.element tables)) := by
  refine (reads_getShort.bind_field fun c => reads_getShort.bind_field fun m =>
    reads_getShort.bind_field fun f => reads_getShort.bind_field fun l =>
    (reads_nameAt tables.classNames c).bind_found fun _ =>
    (reads_nameAt tables.methodNames m).bind_found fun _ =>
    (reads_nameAt tables.fileNames f).bind_found fun _ =>
    (reads_skipFromNine stackFrameLen).bind fun _ => Reads.pure _).congr ?_
  intro element tokens
  constructor
  · rintro ⟨c, _, ⟨m, _, ⟨f, _, ⟨l, _, ⟨className, isClass, methodName, isMethod, fileName, isFile,
      _, extra, _, length, ⟨rfl, rfl⟩, rfl⟩, rfl⟩, rfl⟩, rfl⟩, rfl⟩
    rw [unsigned_toInt16, getElem?_eq_some_iff_getD] at isClass isMethod isFile
    refine ⟨⟨c, m, f, l, extra⟩, ⟨?_, isClass.1, isMethod.1, isFile.1⟩, ?_, ?_⟩
    · rw [length]
    · rw [FrameRecord.element, isClass.2, isMethod.2, isFile.2]
    · simp [FrameRecord.bytes]
  · rintro ⟨frame, fits, rfl, rfl⟩
    have isClass := getElem?_eq_some_iff_getD.mpr ⟨fits.className, rfl⟩
    have isMethod := getElem?_eq_some_iff_getD.mpr ⟨fits.methodName, rfl⟩
    have isFile := getElem?_eq_some_iff_getD.mpr ⟨fits.sourceFile, rfl⟩
    have length : frame.extra.length = stackFrameLen - 9 := by
      have whole := fits.length
      omega
    refine ⟨frame.className, _, ⟨frame.methodName, _, ⟨frame.sourceFile, _, ⟨frame.lineNumber, _,
      ⟨_, isClass, _, isMethod, _, isFile, .unit, frame.extra, _, length, ⟨rfl, rfl⟩, rfl⟩, rfl⟩,
      rfl⟩, rfl⟩, ?_⟩
    simp [FrameRecord.bytes]

/-! ## Entries -/

theorem reads_readEntry (entryHdrLen stackFrameLen : ℕ) (tables : Tables) :
    Reads (readEntry entryHdrLen stackFrameLen tables)
      (Written (EntryRecord.Fits (9 + (entryHdrLen - 9)) (8 + (stackFrameLen - 9)) tables)
        EntryRecord.bytes (EntryRecord.info tables)) := by
  refine (reads_getInt.bind_field fun _ => reads_getShort.bind_field fun _ =>
    reads_getShort.bind_field fun c => reads_get.bind fun depth =>
    (reads_skipFromNine entryHdrLen).bind fun _ =>
    ((reads_readFrame stackFrameLen tables).times_written depth.toNat).bind fun _ =>
    (reads_nameAt tables.classNames c).bind_found fun _ => Reads.pure _).congr ?_
  intro info tokens
  constructor
  · rintro ⟨size, _, ⟨threadId, _, ⟨c, _, ⟨depth, _, _, rfl, ⟨_, extra, _, length, ⟨_, _, _,
      ⟨frames, ⟨count, fit⟩, rfl, rfl⟩, ⟨className, isClass, rfl, rfl⟩, rfl⟩, rfl⟩, rfl⟩, rfl⟩,
      rfl⟩, rfl⟩
    rw [unsigned_toInt16, getElem?_eq_some_iff_getD] at isClass
    have isByte : frames.length < 256 := count ▸ depth.toNat_lt
    refine ⟨⟨size, threadId, c, extra, frames⟩, ⟨?_, isClass.1, isByte, fit⟩, ?_, ?_⟩
    · rw [length]
    · rw [EntryRecord.info, isClass.2]
    · simp [EntryRecord.bytes, count]
  · rintro ⟨entry, fits, rfl, rfl⟩
    have isClass := getElem?_eq_some_iff_getD.mpr ⟨fits.className, rfl⟩
    have length : entry.extra.length = entryHdrLen - 9 := by
      have whole := fits.length
      omega
    have depth : entry.frames.length = (UInt8.ofNat entry.frames.length).toNat := by
      rw [UInt8.toNat_ofNat', Nat.mod_eq_of_lt fits.depth]
    refine ⟨entry.size, _, ⟨entry.threadId, _, ⟨entry.className, _, ⟨UInt8.ofNat
      entry.frames.length, _, _, rfl, ⟨.unit, entry.extra, _, length, ⟨_, _, _, ⟨entry.frames,
      ⟨depth, fits.frames⟩, rfl, rfl⟩, ⟨_, isClass, rfl, rfl⟩, rfl⟩, rfl⟩, rfl⟩, rfl⟩, rfl⟩, ?_⟩
    simp [EntryRecord.bytes]

/-! ## Strings -/

theorem toInt_toInt32 (bits : UInt32) :
    bits.toInt32.toInt = if bits.toNat < 2147483648 then (bits.toNat : ℤ)
      else bits.toNat - 4294967296 := by
  change bits.toBitVec.toInt = _
  rw [BitVec.toInt_eq_toNat_cond]
  change (if 2 * bits.toNat < 4294967296 then (bits.toNat : ℤ) else bits.toNat - 4294967296) = _
  split <;> split <;> omega

theorem reads_getString (len : Int32) :
    Reads (getString len) fun text tokens =>
      (text.length : ℤ) = len.toInt ∧ tokens = text.flatMap shortBytes := by
  have units : Reads getChar (Written (fun _ => True) shortBytes id) :=
    reads_getChar.congr fun value tokens => by simp [Written]
  rw [getString]
  by_cases negative : len.toInt < 0
  · rw [if_pos negative]
    refine (Reads.throw _).congr fun text tokens => ?_
    rw [false_iff]
    rintro ⟨length, -⟩
    omega
  · rw [if_neg negative]
    refine (units.times_written len.toInt.toNat).congr fun text tokens => ?_
    constructor
    · rintro ⟨text, ⟨count, -⟩, rfl, rfl⟩
      rw [List.map_id]
      exact ⟨by omega, rfl⟩
    · rintro ⟨length, rfl⟩
      exact ⟨text, ⟨by omega, fun _ _ => trivial⟩, (List.map_id text).symm, rfl⟩

theorem reads_readString :
    Reads readString
      (Written (fun text => text.length < 2147483648) textBytes descriptorToDot) := by
  refine (reads_getInt.bind_field fun len => (reads_getString len).bind fun _ =>
    Reads.pure _).congr ?_
  intro name tokens
  constructor
  · rintro ⟨bits, _, ⟨text, _, _, ⟨length, rfl⟩, ⟨rfl, rfl⟩, rfl⟩, rfl⟩
    rw [toInt_toInt32] at length
    have bounded := bits.toNat_lt
    have small : text.length < 2147483648 := by
      split at length <;> omega
    have same : text.length = bits.toNat := by
      split at length <;> omega
    refine ⟨text, small, rfl, ?_⟩
    rw [textBytes, same, UInt32.ofNat_toNat, List.append_nil]
  · rintro ⟨text, small, rfl, rfl⟩
    have count : (UInt32.ofNat text.length).toNat = text.length :=
      UInt32.toNat_ofNat_of_lt' (by simp [UInt32.size]; omega)
    refine ⟨UInt32.ofNat text.length, _, ⟨text, _, _, ⟨?_, rfl⟩, ⟨rfl, rfl⟩, rfl⟩, ?_⟩
    · rw [toInt_toInt32, count, if_pos small]
    · rw [textBytes, List.append_nil]

theorem reads_readTables (header : Header) :
    Reads (readTables header)
      (Written (fun tables : Tables =>
          (tables.classNames.length = header.numClassNames ∧
            ∀ text ∈ tables.classNames, text.length < 2147483648) ∧
          (tables.methodNames.length = header.numMethodNames ∧
            ∀ text ∈ tables.methodNames, text.length < 2147483648) ∧
          tables.fileNames.length = header.numFileNames ∧
            ∀ text ∈ tables.fileNames, text.length < 2147483648)
        Tables.bytes Tables.dotted) := by
  have reads (count : ℕ) := reads_readString.times_written count
  refine ((reads header.numClassNames).bind fun _ => (reads header.numMethodNames).bind fun _ =>
    (reads header.numFileNames).bind fun _ => Reads.pure _).congr ?_
  intro tables tokens
  constructor
  · rintro ⟨_, _, _, ⟨classNames, classes, rfl, rfl⟩, ⟨_, _, _, ⟨methodNames, methods, rfl, rfl⟩,
      ⟨_, _, _, ⟨fileNames, files, rfl, rfl⟩, ⟨rfl, rfl⟩, rfl⟩, rfl⟩, rfl⟩
    exact ⟨⟨classNames, methodNames, fileNames⟩, ⟨classes, methods, files⟩, rfl,
      by simp [Tables.bytes]⟩
  · rintro ⟨tables, ⟨classes, methods, files⟩, rfl, rfl⟩
    refine ⟨_, _, _, ⟨tables.classNames, classes, rfl, rfl⟩, ⟨_, _, _, ⟨tables.methodNames, methods,
      rfl, rfl⟩, ⟨_, _, _, ⟨tables.fileNames, files, rfl, rfl⟩, ⟨rfl, rfl⟩, rfl⟩, rfl⟩, ?_⟩
    simp [Tables.bytes]

/-! ## The header -/

namespace Message

variable (message : Message)

def header : Header where
  messageHdrLen := message.messageHdrLen
  entryHdrLen := message.entryHdrLen.toNat
  stackFrameLen := message.stackFrameLen.toNat
  numEntries := message.entries.length
  offsetToStrings := (UInt32.ofNat message.offsetToStrings).toInt32
  numClassNames := message.tables.classNames.length
  numMethodNames := message.tables.methodNames.length
  numFileNames := message.tables.fileNames.length

theorem length_headerBytes : message.headerBytes.length = 15 :=
  rfl

theorem run_readHeader (rest : List UInt8) :
    readHeader.run (message.headerBytes ++ rest) = .ok (message.header, rest) := by
  have short {count : ℕ} (bounded : count < 65536) :
      unsigned (UInt16.ofNat count).toInt16 = count :=
    UInt16.toNat_ofNat_of_lt' bounded
  have length : (UInt8.ofNat message.messageHdrLen).toNat = message.messageHdrLen :=
    UInt8.toNat_ofNat_of_lt' message.headerFits
  have front : message.headerBytes ++ rest =
      [UInt8.ofNat message.messageHdrLen] ++ ([message.entryHdrLen] ++ ([message.stackFrameLen] ++
        (shortBytes (UInt16.ofNat message.entries.length) ++
        (intBytes (UInt32.ofNat message.offsetToStrings) ++
        (shortBytes (UInt16.ofNat message.tables.classNames.length) ++
        (shortBytes (UInt16.ofNat message.tables.methodNames.length) ++
        (shortBytes (UInt16.ofNat message.tables.fileNames.length) ++ rest))))))) := by
    simp [headerBytes]
  rw [front, readHeader, reads_get.run_bind rfl, reads_get.run_bind rfl, reads_get.run_bind rfl,
    reads_getShort.run_bind ⟨_, rfl, rfl⟩, reads_getInt.run_bind ⟨_, rfl, rfl⟩,
    reads_getShort.run_bind ⟨_, rfl, rfl⟩, reads_getShort.run_bind ⟨_, rfl, rfl⟩,
    reads_getShort.run_bind ⟨_, rfl, rfl⟩, length, short message.entryCount,
    short message.classCount, short message.methodCount, short message.fileCount]
  rfl

/-! ## The positions -/

theorem toInt_offsetToStrings :
    (UInt32.ofNat message.offsetToStrings).toInt32.toInt = message.offsetToStrings := by
  have fits := message.bytesFit
  have small : message.offsetToStrings < 2147483648 := by
    rw [offsetToStrings, messageHdrLen, entryBytes]
    omega
  have value : (UInt32.ofNat message.offsetToStrings).toNat = message.offsetToStrings :=
    UInt32.toNat_ofNat_of_lt' (by simp [UInt32.size]; omega)
  rw [toInt_toInt32, value, if_pos small]

theorem position_strings (following : List UInt8) :
    position (message.bytes ++ following) (UInt32.ofNat message.offsetToStrings).toInt32 =
      .ok (message.tables.bytes ++ following) := by
  have length : (message.headerBytes ++ message.headerExtra ++ message.entryBytes).length =
      message.offsetToStrings := by
    rw [List.length_append, List.length_append, length_headerBytes]
    rfl
  rw [position, toInt_offsetToStrings, bytes, if_neg, List.append_assoc, Int.toNat_natCast,
    ← length, List.drop_left]
  rw [List.length_append, List.length_append, length]
  omega

theorem position_entries (following : List UInt8) :
    position (message.bytes ++ following) (Int32.ofNat message.messageHdrLen) =
      .ok (message.entryBytes ++ message.tables.bytes ++ following) := by
  have length : (message.headerBytes ++ message.headerExtra).length = message.messageHdrLen := by
    rw [List.length_append, length_headerBytes]
    rfl
  have small := message.headerFits
  have value : (Int32.ofNat message.messageHdrLen).toInt = message.messageHdrLen :=
    Int32.toInt_ofNat_of_lt (by rw [messageHdrLen]; omega)
  have front : message.bytes ++ following = (message.headerBytes ++ message.headerExtra) ++
      (message.entryBytes ++ message.tables.bytes ++ following) := by
    simp [bytes]
  rw [position, value, front, if_neg, Int.toNat_natCast, ← length, List.drop_left]
  rw [List.length_append, length]
  omega

theorem length_le_of_mem {texts : List JString} {text : JString} (textMem : text ∈ texts) :
    text.length ≤ (texts.flatMap textBytes).length := by
  have units : text.length ≤ (text.flatMap shortBytes).length := by
    clear textMem
    induction text with
    | nil => exact Nat.zero_le _
    | cons unit text ih =>
        rw [List.flatMap_cons, List.length_append, length_shortBytes, List.length_cons]
        omega
  rcases List.append_of_mem textMem with ⟨before, after, rfl⟩
  rw [List.flatMap_append, List.flatMap_cons, textBytes]
  simp only [List.length_append]
  omega

theorem run_readTables (following : List UInt8) :
    (readTables message.header).run (message.tables.bytes ++ following) =
      .ok (message.tables.dotted, following) := by
  have fits := message.bytesFit
  have whole : message.tables.bytes.length = (message.tables.classNames.flatMap textBytes).length +
      (message.tables.methodNames.flatMap textBytes).length +
      (message.tables.fileNames.flatMap textBytes).length := by
    rw [Tables.bytes, List.length_append, List.length_append]
  refine (reads_readTables message.header).complete _ _ _
    ⟨message.tables, ⟨⟨rfl, fun text textMem => ?_⟩, ⟨rfl, fun text textMem => ?_⟩, rfl,
      fun text textMem => ?_⟩, rfl, rfl⟩
  all_goals
    have part := length_le_of_mem textMem
    omega

/-- What is done behind the header. -/
theorem handleRecentAlloc_bytes (following : List UInt8) :
    handleRecentAlloc (message.bytes ++ following) =
      (((readEntry message.entryHdrLen.toNat message.stackFrameLen.toNat
          message.tables.dotted).times message.entries.length).run
        (message.entryBytes ++ message.tables.bytes ++ following)).map fun read => sort read.1 := by
  have front : message.bytes ++ following = message.headerBytes ++
      (message.headerExtra ++ message.entryBytes ++ message.tables.bytes ++ following) := by
    simp [bytes]
  have header : readHeader.run (message.bytes ++ following) = .ok (message.header,
      message.headerExtra ++ message.entryBytes ++ message.tables.bytes ++ following) := by
    rw [front, run_readHeader]
  rw [handleRecentAlloc, header, ok_bind]
  change (position _ (UInt32.ofNat message.offsetToStrings).toInt32 >>= _) = _
  rw [position_strings, ok_bind, run_readTables, ok_bind]
  change (position _ (Int32.ofNat message.messageHdrLen) >>= _) = _
  rw [position_entries, ok_bind]
  rfl

end Message

/-! ## Sorting -/

theorem sort_perm (list : List AllocationInfo) : (sort list).Perm list :=
  List.mergeSort_perm _ _

/-- The difference of two sizes which are not negative does not overflow. -/
theorem compareTo_le_iff {info other : AllocationInfo} (isSize : 0 ≤ info.allocationSize.toInt)
    (isOtherSize : 0 ≤ other.allocationSize.toInt) :
    (info.compareTo other).toInt ≤ 0 ↔ other.allocationSize.toInt ≤ info.allocationSize.toInt := by
  have bound := info.allocationSize.toInt_lt
  have otherBound := other.allocationSize.toInt_lt
  rw [AllocationInfo.compareTo, Int32.toInt_sub, Int.bmod_eq_of_le (by omega) (by omega)]
  omega

theorem pairwise_sort {list : List AllocationInfo}
    (sizes : ∀ info ∈ list, 0 ≤ info.allocationSize.toInt) :
    (sort list).Pairwise fun info later =>
      later.allocationSize.toInt ≤ info.allocationSize.toInt := by
  have bySize : sort list = list.mergeSort fun info other =>
      decide (other.allocationSize.toInt ≤ info.allocationSize.toInt) := by
    have same := List.map_mergeSort (l := list) (f := id)
      (r := fun info other => decide ((info.compareTo other).toInt ≤ 0))
      (s := fun info other => decide (other.allocationSize.toInt ≤ info.allocationSize.toInt))
      fun info infoMem other otherMem =>
        decide_eq_decide.mpr (compareTo_le_iff (sizes info infoMem) (sizes other otherMem))
    rwa [List.map_id, List.map_id] at same
  rw [bySize]
  refine (List.pairwise_mergeSort ?_ ?_ list).imp fun ordered => of_decide_eq_true ordered
  · intro first second third
    simp only [decide_eq_true_eq]
    omega
  · intro first second
    simp only [Bool.or_eq_true, decide_eq_true_eq]
    omega

/-! ## The entries -/

theorem Tables.dotted_fits {entryHdrLen stackFrameLen : ℕ} {tables : Tables} {entry : EntryRecord} :
    entry.Fits entryHdrLen stackFrameLen tables.dotted ↔
      entry.Fits entryHdrLen stackFrameLen tables := by
  have frames (frame : FrameRecord) :
      frame.Fits stackFrameLen tables.dotted ↔ frame.Fits stackFrameLen tables := by
    constructor
    · rintro ⟨length, className, methodName, sourceFile⟩
      simp only [dotted, List.length_map] at className methodName sourceFile
      exact ⟨length, className, methodName, sourceFile⟩
    · rintro ⟨length, className, methodName, sourceFile⟩
      refine ⟨length, ?_, ?_, ?_⟩ <;> simpa only [dotted, List.length_map]
  constructor
  · rintro ⟨length, className, depth, fit⟩
    simp only [dotted, List.length_map] at className
    exact ⟨length, className, depth, fun frame frameMem => (frames frame).mp (fit frame frameMem)⟩
  · rintro ⟨length, className, depth, fit⟩
    refine ⟨length, ?_, depth, fun frame frameMem => (frames frame).mpr (fit frame frameMem)⟩
    simpa only [dotted, List.length_map]

end AndroidCollection.Dump
