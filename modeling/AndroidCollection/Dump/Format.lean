import AndroidCollection.Dump.HandleHeap

/-!
# The format of an allocation message

The comment above `handleRecentAlloc` describes a message: the header, the
entries with their stack frames, and the three string tables. The lengths in the
header leave room for bytes behind the known fields of the header, of an entry
and of a frame. What the message stands for is one `AllocationInfo` for each
entry, with class names in dot notation and all other names as they are.
-/

namespace AndroidCollection.Dump

open Java

structure FrameRecord where
  className : UInt16
  methodName : UInt16
  sourceFile : UInt16
  lineNumber : UInt16
  extra : List UInt8

structure EntryRecord where
  size : UInt32
  threadId : UInt16
  className : UInt16
  extra : List UInt8
  frames : List FrameRecord

/-! ## Bytes -/

namespace FrameRecord

def bytes (frame : FrameRecord) : List UInt8 :=
  shortBytes frame.className ++ shortBytes frame.methodName ++ shortBytes frame.sourceFile ++
    shortBytes frame.lineNumber ++ frame.extra

/-- The frame has the given length, and its indexes are in range. -/
structure Fits (stackFrameLen : ℕ) (tables : Tables) (frame : FrameRecord) : Prop where
  length : 8 + frame.extra.length = stackFrameLen
  className : frame.className.toNat < tables.classNames.length
  methodName : frame.methodName.toNat < tables.methodNames.length
  sourceFile : frame.sourceFile.toNat < tables.fileNames.length

def element (tables : Tables) (frame : FrameRecord) : StackTraceElement where
  declaringClass := tables.classNames.getD frame.className.toNat []
  methodName := tables.methodNames.getD frame.methodName.toNat []
  fileName := tables.fileNames.getD frame.sourceFile.toNat []
  lineNumber := frame.lineNumber.toInt16

end FrameRecord

namespace EntryRecord

def bytes (entry : EntryRecord) : List UInt8 :=
  intBytes entry.size ++ shortBytes entry.threadId ++ shortBytes entry.className ++
    [UInt8.ofNat entry.frames.length] ++ entry.extra ++ entry.frames.flatMap FrameRecord.bytes

/-- The header of the entry has the given length, its index is in range, and its frames fit. -/
structure Fits (entryHdrLen stackFrameLen : ℕ) (tables : Tables) (entry : EntryRecord) : Prop where
  length : 9 + entry.extra.length = entryHdrLen
  className : entry.className.toNat < tables.classNames.length
  depth : entry.frames.length < 256
  frames : ∀ frame ∈ entry.frames, frame.Fits stackFrameLen tables

def info (tables : Tables) (entry : EntryRecord) : AllocationInfo where
  allocatedClass := tables.classNames.getD entry.className.toNat []
  allocationSize := entry.size.toInt32
  threadId := entry.threadId.toInt16
  stackTrace := entry.frames.map (FrameRecord.element tables)

end EntryRecord

def textBytes (text : JString) : List UInt8 :=
  intBytes (UInt32.ofNat text.length) ++ text.flatMap shortBytes

namespace Tables

def bytes (tables : Tables) : List UInt8 :=
  tables.classNames.flatMap textBytes ++ tables.methodNames.flatMap textBytes ++
    tables.fileNames.flatMap textBytes

/-- The names which the entries stand for. -/
def withDottedClasses (tables : Tables) : Tables :=
  { tables with classNames := tables.classNames.map descriptorToDot }

/-- The names as they are read. -/
def dotted (tables : Tables) : Tables where
  classNames := tables.classNames.map descriptorToDot
  methodNames := tables.methodNames.map descriptorToDot
  fileNames := tables.fileNames.map descriptorToDot

end Tables

/-! ## Messages -/

/-- A message in the documented format. A buffer has less than 2^31 bytes. -/
structure Message where
  entryHdrLen : UInt8
  stackFrameLen : UInt8
  headerExtra : List UInt8
  entries : List EntryRecord
  tables : Tables
  headerFits : 15 + headerExtra.length < 256
  entryHdrFits : 9 ≤ entryHdrLen.toNat
  stackFrameFits : 8 ≤ stackFrameLen.toNat
  entryCount : entries.length < 65536
  entriesFit : ∀ entry ∈ entries, entry.Fits entryHdrLen.toNat stackFrameLen.toNat tables
  sizes : ∀ entry ∈ entries, entry.size.toNat < 2147483648
  classCount : tables.classNames.length < 65536
  methodCount : tables.methodNames.length < 65536
  fileCount : tables.fileNames.length < 65536
  bytesFit : 15 + headerExtra.length + (entries.flatMap EntryRecord.bytes).length +
    tables.bytes.length < 2147483648

namespace Message

variable (message : Message)

def messageHdrLen : ℕ :=
  15 + message.headerExtra.length

def entryBytes : List UInt8 :=
  message.entries.flatMap EntryRecord.bytes

def offsetToStrings : ℕ :=
  message.messageHdrLen + message.entryBytes.length

def headerBytes : List UInt8 :=
  [UInt8.ofNat message.messageHdrLen, message.entryHdrLen, message.stackFrameLen] ++
    shortBytes (UInt16.ofNat message.entries.length) ++
    intBytes (UInt32.ofNat message.offsetToStrings) ++
    shortBytes (UInt16.ofNat message.tables.classNames.length) ++
    shortBytes (UInt16.ofNat message.tables.methodNames.length) ++
    shortBytes (UInt16.ofNat message.tables.fileNames.length)

def bytes : List UInt8 :=
  message.headerBytes ++ message.headerExtra ++ message.entryBytes ++ message.tables.bytes

/-- What the entries stand for, in their order. -/
def infos : List AllocationInfo :=
  message.entries.map (EntryRecord.info message.tables.withDottedClasses)

/-- Whatever follows the message, exactly its entries are returned, the largest first. -/
def HandledExactly : Prop :=
  ∃ result, (∀ following, handleRecentAlloc (message.bytes ++ following) = .ok result) ∧
    result.Perm message.infos ∧
    result.Pairwise fun info later => later.allocationSize.toInt ≤ info.allocationSize.toInt

/-- The bytes behind the header, read with frames of one byte less where there are extra bytes, and
with all names in dot notation, give the same entries. -/
def SameReadShort : Prop :=
  ∃ (records : List EntryRecord) (rest : List UInt8),
    records.length = message.entries.length ∧
    (∀ record ∈ records, record.Fits message.entryHdrLen.toNat
      (max 8 (message.stackFrameLen.toNat - 1)) message.tables) ∧
    message.entryBytes ++ message.tables.bytes = records.flatMap EntryRecord.bytes ++ rest ∧
    (records.map (EntryRecord.info message.tables.dotted)).Perm message.infos

end Message

end AndroidCollection.Dump
