import AndroidCollection.Dump.ByteBuffer
import AndroidCollection.Java.Text

/-!
# `HandleHeap`

`handleRecentAlloc` reads the header of a message, moves to the string tables and
reads them, moves back behind the header and reads the entries with their stack
frames. Each table is read through `descriptorToDot`. The loops which skip the
bytes that an entry and a frame may have beyond the known ones both count from
nine.
-/

namespace AndroidCollection.Dump

open FormatReader Java

structure StackTraceElement where
  declaringClass : JString
  methodName : JString
  fileName : JString
  lineNumber : Int16
deriving DecidableEq

structure AllocationInfo where
  allocatedClass : JString
  allocationSize : Int32
  threadId : Int16
  stackTrace : List StackTraceElement
deriving DecidableEq

def AllocationInfo.compareTo (info otherAlloc : AllocationInfo) : Int32 :=
  otherAlloc.allocationSize - info.allocationSize

/-- `Collections.sort`, a stable merge sort. -/
def sort (list : List AllocationInfo) : List AllocationInfo :=
  list.mergeSort fun info otherAlloc => (info.compareTo otherAlloc).toInt ≤ 0

/-! ## Strings -/

def getString (len : Int32) : Reading JString :=
  if len.toInt < 0 then
    throw .negativeArraySizeException
  else
    times getChar len.toInt.toNat

/-- The number of leading brackets, and what stands behind them. -/
def countArrays : JString → ℕ × JString
  | [] => (0, [])
  | unit :: str =>
      if unit = 0x5B then
        let (array, rest) := countArrays str
        (array + 1, rest)
      else
        (0, unit :: str)

def basicTypes : List (JString × JString) :=
  [(ascii ['C'], ascii ['c', 'h', 'a', 'r']), (ascii ['B'], ascii ['b', 'y', 't', 'e']),
    (ascii ['Z'], ascii ['b', 'o', 'o', 'l', 'e', 'a', 'n']),
    (ascii ['S'], ascii ['s', 'h', 'o', 'r', 't']), (ascii ['I'], ascii ['i', 'n', 't']),
    (ascii ['J'], ascii ['l', 'o', 'n', 'g']), (ascii ['F'], ascii ['f', 'l', 'o', 'a', 't']),
    (ascii ['D'], ascii ['d', 'o', 'u', 'b', 'l', 'e'])]

def descriptorToDot (str : JString) : JString :=
  let (array, str) := countArrays str
  let str :=
    if 2 ≤ str.length ∧ str.head? = some 0x4C ∧ str.getLast? = some 0x3B then
      (str.drop 1).dropLast.map fun unit => if unit = 0x2F then 0x2E else unit
    else
      (basicTypes.lookup str).getD str
  str ++ (List.replicate array (ascii ['[', ']'])).flatten

def readString : Reading JString := do
  let nameLen ← getInt
  let descriptor ← getString nameLen
  pure (descriptorToDot descriptor)

def readStringTable (count : ℕ) : Reading (List JString) :=
  times readString count

/-! ## Messages -/

/-- `value & 0xffff`. -/
def unsigned (value : Int16) : ℕ :=
  value.toUInt16.toNat

structure Header where
  messageHdrLen : ℕ
  entryHdrLen : ℕ
  stackFrameLen : ℕ
  numEntries : ℕ
  offsetToStrings : Int32
  numClassNames : ℕ
  numMethodNames : ℕ
  numFileNames : ℕ
deriving DecidableEq

def readHeader : Reading Header := do
  let messageHdrLen ← get
  let entryHdrLen ← get
  let stackFrameLen ← get
  let numEntries ← getShort
  let offsetToStrings ← getInt
  let numClassNames ← getShort
  let numMethodNames ← getShort
  let numFileNames ← getShort
  pure
    { messageHdrLen := messageHdrLen.toNat
      entryHdrLen := entryHdrLen.toNat
      stackFrameLen := stackFrameLen.toNat
      numEntries := unsigned numEntries
      offsetToStrings
      numClassNames := unsigned numClassNames
      numMethodNames := unsigned numMethodNames
      numFileNames := unsigned numFileNames }

/-- The three arrays of names. -/
structure Tables where
  classNames : List JString
  methodNames : List JString
  fileNames : List JString

def readTables (header : Header) : Reading Tables := do
  let classNames ← readStringTable header.numClassNames
  let methodNames ← readStringTable header.numMethodNames
  let fileNames ← readStringTable header.numFileNames
  pure { classNames, methodNames, fileNames }

/-- `for (int skip = 9; skip < len; skip++) data.get()`. -/
def skipFromNine (len : ℕ) : Reading PUnit :=
  skip .bufferUnderflowException (len - 9)

/-- `names[index]`. -/
def nameAt (names : List JString) (index : Int16) : Reading JString :=
  ofOption .arrayIndexOutOfBoundsException names[unsigned index]?

def readFrame (stackFrameLen : ℕ) (tables : Tables) : Reading StackTraceElement := do
  let methodClassNameIndex ← getShort
  let methodNameIndex ← getShort
  let methodSourceFileIndex ← getShort
  let lineNumber ← getShort
  let declaringClass ← nameAt tables.classNames methodClassNameIndex
  let methodName ← nameAt tables.methodNames methodNameIndex
  let fileName ← nameAt tables.fileNames methodSourceFileIndex
  skipFromNine stackFrameLen
  pure { declaringClass, methodName, fileName, lineNumber }

def readEntry (entryHdrLen stackFrameLen : ℕ) (tables : Tables) : Reading AllocationInfo := do
  let allocationSize ← getInt
  let threadId ← getShort
  let classNameIndex ← getShort
  let stackDepth ← get
  skipFromNine entryHdrLen
  let stackTrace ← times (readFrame stackFrameLen tables) stackDepth.toNat
  let allocatedClass ← nameAt tables.classNames classNameIndex
  pure { allocatedClass, allocationSize, threadId, stackTrace }

/-- Reads the message at the beginning of `data`. -/
def handleRecentAlloc (data : List UInt8) : Except Thrown (List AllocationInfo) := do
  let (header, _) ← readHeader.run data
  let strings ← position data header.offsetToStrings
  let (tables, _) ← (readTables header).run strings
  let entries ← position data (Int32.ofNat header.messageHdrLen)
  let (list, _) ←
    (times (readEntry header.entryHdrLen header.stackFrameLen tables) header.numEntries).run entries
  pure (sort list)

end AndroidCollection.Dump
