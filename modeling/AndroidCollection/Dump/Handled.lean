import AndroidCollection.Dump.Parsing

/-!
# When a message is handled exactly

A frame of eight bytes is read as a whole and a longer one without its last byte,
so the entries which are returned are those which the same bytes encode with
frames of that length. They are the encoded ones in particular if frames have
eight bytes, or if no frame is followed by another one or by an entry, as long
as dot notation changes no method or file name which is used.
-/

namespace AndroidCollection.Dump

open FormatReader Java

namespace Message

variable {message : Message}

theorem size_nonneg {info : AllocationInfo} (infoMem : info ∈ message.infos) :
    0 ≤ info.allocationSize.toInt := by
  rcases List.mem_map.mp infoMem with ⟨entry, entryMem, rfl⟩
  change 0 ≤ entry.size.toInt32.toInt
  rw [toInt_toInt32, if_pos (message.sizes entry entryMem)]
  omega

/-- The loop over the entries reads as many entries with frames of the length it assumes. -/
theorem reads_entries (message : Message) :
    Reads ((readEntry message.entryHdrLen.toNat message.stackFrameLen.toNat
        message.tables.dotted).times message.entries.length)
      (Written (fun records : List EntryRecord => records.length = message.entries.length ∧
          ∀ record ∈ records, record.Fits message.entryHdrLen.toNat
            (max 8 (message.stackFrameLen.toNat - 1)) message.tables)
        (List.flatMap EntryRecord.bytes)
        (List.map (EntryRecord.info message.tables.dotted))) := by
  have entryLength : 9 + (message.entryHdrLen.toNat - 9) = message.entryHdrLen.toNat := by
    have fits := message.entryHdrFits
    omega
  have frameLength : 8 + (message.stackFrameLen.toNat - 9) =
      max 8 (message.stackFrameLen.toNat - 1) := by
    omega
  have reads := (reads_readEntry message.entryHdrLen.toNat message.stackFrameLen.toNat
    message.tables.dotted).times_written message.entries.length
  rw [entryLength, frameLength] at reads
  simpa only [Tables.dotted_fits] using reads

theorem sameReadShort_of_handledExactly (handled : message.HandledExactly) :
    message.SameReadShort := by
  rcases handled with ⟨result, returned, perm, -⟩
  have alone := returned []
  rw [handleRecentAlloc_bytes, List.append_nil] at alone
  cases ran : ((readEntry message.entryHdrLen.toNat message.stackFrameLen.toNat
      message.tables.dotted).times message.entries.length).run
    (message.entryBytes ++ message.tables.bytes) with
  | error thrown =>
      rw [ran] at alone
      cases alone
  | ok read =>
      rcases read with ⟨list, rest⟩
      rw [ran] at alone
      cases alone
      rcases message.reads_entries.sound _ _ _ ran with
        ⟨_, ⟨records, ⟨count, fit⟩, rfl, rfl⟩, split⟩
      exact ⟨records, rest, count, fit, split, (sort_perm _).symm.trans perm⟩

theorem handledExactly_of_sameReadShort (same : message.SameReadShort) :
    message.HandledExactly := by
  rcases same with ⟨records, rest, count, fit, split, perm⟩
  refine ⟨sort (records.map (EntryRecord.info message.tables.dotted)), fun following => ?_,
    (sort_perm _).trans perm, pairwise_sort fun info infoMem =>
      size_nonneg (perm.mem_iff.mp infoMem)⟩
  rw [handleRecentAlloc_bytes, split, List.append_assoc,
    message.reads_entries.complete _ _ _ ⟨records, ⟨count, fit⟩, rfl, rfl⟩]
  rfl

/-- A message is handled exactly if and only if its bytes give the same entries with frames of one
byte less and all names in dot notation. -/
theorem handledExactly_iff (message : Message) :
    message.HandledExactly ↔ message.SameReadShort :=
  ⟨sameReadShort_of_handledExactly, handledExactly_of_sameReadShort⟩

end Message

/-! ## Messages which are handled exactly -/

namespace FrameRecord

variable {frame : FrameRecord} {stackFrameLen : ℕ} {tables : Tables}

/-- The frame without its last byte. -/
def short (frame : FrameRecord) : FrameRecord :=
  { frame with extra := frame.extra.dropLast }

theorem Fits.extra_ne_nil (fits : frame.Fits stackFrameLen tables) (longer : 9 ≤ stackFrameLen) :
    frame.extra ≠ [] := by
  intro empty
  have length := fits.length
  rw [empty, List.length_nil] at length
  omega

theorem Fits.short (fits : frame.Fits stackFrameLen tables) (longer : 9 ≤ stackFrameLen) :
    frame.short.Fits (max 8 (stackFrameLen - 1)) tables := by
  have length := fits.length
  refine ⟨?_, fits.className, fits.methodName, fits.sourceFile⟩
  rw [FrameRecord.short, List.length_dropLast]
  omega

theorem bytes_eq_short (frame : FrameRecord) (nonempty : frame.extra ≠ []) :
    frame.bytes = frame.short.bytes ++ [frame.extra.getLast nonempty] := by
  simp only [bytes, short, List.append_assoc, List.dropLast_append_getLast nonempty]

end FrameRecord

namespace Message

variable {message : Message}

/-- Dot notation leaves the method and the file name of every frame as they are. -/
def NamesPlain (message : Message) : Prop :=
  ∀ entry ∈ message.entries, ∀ frame ∈ entry.frames,
    descriptorToDot (message.tables.methodNames.getD frame.methodName.toNat []) =
        message.tables.methodNames.getD frame.methodName.toNat [] ∧
      descriptorToDot (message.tables.fileNames.getD frame.sourceFile.toNat []) =
        message.tables.fileNames.getD frame.sourceFile.toNat []

theorem infos_of_namesPlain (plain : message.NamesPlain) :
    message.entries.map (EntryRecord.info message.tables.dotted) = message.infos := by
  have same : ∀ names : List JString, ∀ index : ℕ,
      (names.map descriptorToDot).getD index [] = descriptorToDot (names.getD index []) := by
    intro names index
    rw [List.getD_eq_getElem?_getD, List.getD_eq_getElem?_getD, List.getElem?_map]
    cases names[index]? <;> rfl
  refine List.map_congr_left fun entry entryMem => ?_
  have frames : entry.frames.map (FrameRecord.element message.tables.dotted) =
      entry.frames.map (FrameRecord.element message.tables.withDottedClasses) := by
    refine List.map_congr_left fun frame frameMem => ?_
    rcases plain entry entryMem frame frameMem with ⟨method, file⟩
    simp only [FrameRecord.element, Tables.dotted, Tables.withDottedClasses, same, method, file]
  simp only [EntryRecord.info, frames]
  rfl

/-- Frames without extra bytes are read right. -/
theorem handledExactly_of_eight (eight : message.stackFrameLen.toNat = 8)
    (plain : message.NamesPlain) : message.HandledExactly := by
  refine handledExactly_of_sameReadShort
    ⟨message.entries, message.tables.bytes, rfl, ?_, rfl, ?_⟩
  · intro entry entryMem
    have fits := message.entriesFit entry entryMem
    rwa [eight] at fits ⊢
  · rw [infos_of_namesPlain plain]

/-- Only the last byte of a frame is not read, so a frame at the very end is read right. -/
theorem handledExactly_of_last_frame {earlier : List EntryRecord} {last : EntryRecord}
    {frame : FrameRecord} (entries : message.entries = earlier ++ [last])
    (frameless : ∀ entry ∈ earlier, entry.frames = []) (one : last.frames = [frame])
    (plain : message.NamesPlain) : message.HandledExactly := by
  by_cases eight : message.stackFrameLen.toNat = 8
  · exact handledExactly_of_eight eight plain
  have longer : 9 ≤ message.stackFrameLen.toNat := by
    have atLeast := message.stackFrameFits
    omega
  have lastFits := message.entriesFit last (by simp [entries])
  have frameFits := lastFits.frames frame (by simp [one])
  have nonempty := frameFits.extra_ne_nil longer
  apply handledExactly_of_sameReadShort
  refine ⟨earlier ++ [{ last with frames := [frame.short] }],
    [frame.extra.getLast nonempty] ++ message.tables.bytes, by simp [entries], ?_, ?_, ?_⟩
  · intro record recordMem
    rcases List.mem_append.mp recordMem with recordMem | recordMem
    · have fits := message.entriesFit record (by simp [entries, recordMem])
      exact ⟨fits.length, fits.className, fits.depth, by simp [frameless record recordMem]⟩
    · obtain rfl := List.mem_singleton.mp recordMem
      exact ⟨lastFits.length, lastFits.className, Nat.one_lt_succ_succ 254,
        by simpa using frameFits.short longer⟩
  · simp [entryBytes, entries, EntryRecord.bytes, one, frame.bytes_eq_short nonempty]
  · rw [← infos_of_namesPlain plain, entries, List.map_append, List.map_append]
    apply List.Perm.append_left
    simp [EntryRecord.info, FrameRecord.element, one, FrameRecord.short]

end Message

/-! ## Two long frames -/

/-- A message with one entry, whose two frames have a byte more than the known ones. -/
def twoFrames : Message where
  entryHdrLen := 9
  stackFrameLen := 9
  headerExtra := []
  entries := [⟨16, 1, 0, [], [⟨0, 0, 0, 1, [0]⟩, ⟨0, 0, 0, 2, [0]⟩]⟩]
  tables := ⟨[ascii ['L', 'a', ';']], [ascii ['m']], [ascii ['a']]⟩
  headerFits := by decide
  entryHdrFits := by decide
  stackFrameFits := by decide
  entryCount := by decide
  entriesFit := by
    intro entry entryMem
    rw [List.mem_singleton] at entryMem
    subst entryMem
    refine ⟨by decide, by decide, by decide, fun frame frameMem => ?_⟩
    simp only [List.mem_cons, List.not_mem_nil, or_false] at frameMem
    rcases frameMem with rfl | rfl
    · exact ⟨by decide, by decide, by decide, by decide⟩
    · exact ⟨by decide, by decide, by decide, by decide⟩
  sizes := by decide
  classCount := by decide
  methodCount := by decide
  fileCount := by decide
  bytesFit := by decide

/-- The second frame is read from the byte before it, and its line number is lost. -/
theorem not_handledExactly_twoFrames : ¬twoFrames.HandledExactly := by
  rintro ⟨result, returned, perm, -⟩
  have read : ((readEntry 9 9 twoFrames.tables.dotted).times 1).run
      (twoFrames.entryBytes ++ twoFrames.tables.bytes ++ []) =
      .ok ([⟨ascii ['a'], 16, 1, [⟨ascii ['a'], ascii ['m'], ascii ['a'], 1⟩,
        ⟨ascii ['a'], ascii ['m'], ascii ['a'], 0⟩]⟩],
        [2, 0] ++ twoFrames.tables.bytes) := by
    rfl
  have alone := (twoFrames.handleRecentAlloc_bytes []).symm.trans (returned [])
  change Except.map _ (((readEntry 9 9 twoFrames.tables.dotted).times 1).run _) = _ at alone
  rw [read] at alone
  have same := Except.ok.inj alone
  rw [← same] at perm
  have infos := ((sort_perm _).symm.trans perm).singleton_eq
  exact absurd infos (by decide)

end AndroidCollection.Dump
