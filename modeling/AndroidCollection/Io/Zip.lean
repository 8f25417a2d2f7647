import AndroidCollection.Java.File

/-!
# Extraction of zip archives

An archive has the entries which a `ZipFile` enumerates from the central directory
and those which a `ZipInputStream` meets on its way; the order may differ. The
stream of an entry ends, or it breaks off with an exception after which some of
its bytes are in the file. The three extractors go through the entries until one
of them throws.
-/

namespace AndroidCollection.Io

open Java

inductive EntryData where
  | complete (bytes : List UInt8)
  /-- Reading throws; these bytes are in the file by then. -/
  | broken (left : List UInt8)
deriving DecidableEq, Repr

structure ZipEntry where
  name : JString
  data : EntryData
deriving DecidableEq, Repr

def ZipEntry.isDirectory (entry : ZipEntry) : Bool :=
  entry.name.getLast? = some separatorChar

/-- The name of a file in a directory. -/
def ProperName (name : JString) : Prop :=
  File.steps name = [.down name] ∧ name.getLast? ≠ some separatorChar

def fileEntry (file : JString × List UInt8) : ZipEntry :=
  ⟨file.1, .complete file.2⟩

structure Archive where
  /-- What `ZipFile.entries()` enumerates. -/
  entries : List ZipEntry
  /-- What `ZipInputStream.getNextEntry()` returns, up to the null reference. -/
  stream : List ZipEntry

/-- What is found at the path of the archive. -/
inductive Source where
  | missing
  | directory
  /-- A file, which need not be an archive. -/
  | file (archive : Option Archive)

/-- Copies an entry into a file; `false` stands for an exception. -/
def copyEntry (disk : FileSystem) (out : File) : EntryData → FileSystem × Bool
  | .complete bytes =>
      match out.write disk bytes with
      | some after => (after, true)
      | none => (disk, false)
  | .broken left =>
      match out.write disk left with
      | some after => (after, false)
      | none => (disk, false)

/-- The loop over the entries, which ends with the first exception. -/
def extractAll (extract : FileSystem → ZipEntry → FileSystem × Bool) (disk : FileSystem) :
    List ZipEntry → FileSystem × Bool
  | [] => (disk, true)
  | entry :: entries =>
      match extract disk entry with
      | (after, true) => extractAll extract after entries
      | (after, false) => (after, false)

/-- One round of the loops of `zipReadByZipInput` and `zipReadByZipFile`. Reading in blocks
through a buffer or without one gives the same bytes, and so do the two branches for `.txt`. -/
def extractFlat (targetDir : File) (disk : FileSystem) (entry : ZipEntry) : FileSystem × Bool :=
  copyEntry disk (targetDir.child entry.name) entry.data

def zipReadByZipInput (disk : FileSystem) (sourceFile : Source) (targetDir : File) : FileSystem :=
  match sourceFile with
  | .file (some archive) => (extractAll (extractFlat targetDir) disk archive.stream).1
  | _ => disk

def zipReadByZipFile (disk : FileSystem) (sourceFile : Source) (targetDir : File) : FileSystem :=
  match sourceFile with
  | .file (some archive) => (extractAll (extractFlat targetDir) disk archive.entries).1
  | _ => disk

/-- One round of the loop of `unzip`. -/
def unzipEntry (outDir : File) (disk : FileSystem) (entry : ZipEntry) : FileSystem × Bool :=
  let out := outDir.child entry.name
  if entry.isDirectory then
    (if !out.exists' disk.tree then (out.mkdirs disk).1 else disk, true)
  else
    copyEntry (if !out.exists' disk.tree then (out.getParentFile.mkdirs disk).1 else disk) out
      entry.data

inductive Unzipped where
  | returned (result : Bool)
  | threw
deriving DecidableEq, Repr

def unzipInto (disk : FileSystem) (archive : Option Archive) (outDir : File) :
    FileSystem × Unzipped :=
  match archive with
  | none => (disk, .threw)
  | some archive =>
      match extractAll (unzipEntry outDir) disk archive.entries with
      | (after, true) => (after, .returned true)
      | (after, false) => (after, .threw)

def unzip (disk : FileSystem) (file : Source) (outDir : File) : FileSystem × Unzipped :=
  match file with
  | .missing => (disk, .returned false)
  | .directory => (disk, .returned false)
  | .file archive =>
      if !outDir.exists' disk.tree then
        match outDir.mkdirs disk with
        | (made, true) => unzipInto made archive outDir
        | (made, false) => (made, .returned false)
      else
        unzipInto disk archive outDir

/-! ## A small tree -/

/-- A tree with one directory, `/t`. -/
def treeWithTarget : Tree :=
  FileTree.empty.insert (ascii ['t']) [] .dir rfl (by simp [FileTree.empty])

def archiveOf (entries : List ZipEntry) : Source :=
  .file (some { entries := entries, stream := entries })

def target : File :=
  [.down (ascii ['t'])]

end AndroidCollection.Io
