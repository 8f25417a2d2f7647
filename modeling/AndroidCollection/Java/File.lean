import AndroidCollection.Java.Text
import AndroidCollection.Lib.FileTree

/-!
# Java files

A `File` is an absolute path as it was put together, with its `.` and `..`; empty
names between slashes are dropped when it is made. The system resolves it by
walking, while `mkdirs` goes on with the canonical path, which is normalized, when
the file is not found. There are no links, and input and output do not fail for
other reasons than the shape of the tree.
-/

namespace AndroidCollection.Java

open FileTree

abbrev Tree := FileTree JString (List UInt8)

abbrev FileSystem := Disk JString (List UInt8)

abbrev File := List (Step JString)

/-- `File.separatorChar`. -/
def separatorChar : UInt16 := 0x2F

namespace File

def step (name : JString) : Step JString :=
  if name = ascii ['.'] then .stay
  else if name = ascii ['.', '.'] then .up
  else .down name

def steps (path : JString) : List (Step JString) :=
  ((path.splitOn separatorChar).filter fun name => name ≠ []).map step

/-- `new File(parent, child)`. -/
def child (parent : File) (path : JString) : File :=
  parent ++ steps path

/-- The path which the file denotes if nothing is missing on the way. -/
def path (file : File) : List JString :=
  normalize [] file

def resolve (tree : Tree) (file : File) : Option (List JString) :=
  tree.walk [] file

def exists' (tree : Tree) (file : File) : Bool :=
  match resolve tree file with
  | none => false
  | some path => (tree.node path).isSome

theorem exists_of_exists' {tree : Tree} {file : File} (found : file.exists' tree = true) :
    tree.node file.path ≠ none := by
  unfold exists' resolve at found
  split at found
  · cases found
  · next path walked =>
      rw [normalize_of_walk walked, Option.isSome_iff_ne_none] at found
      exact found

/-- `getParentFile()` of a file which is not the root. -/
def getParentFile (file : File) : File :=
  file.dropLast

/-- Opens a `FileOutputStream` and writes all the bytes; fails if the file cannot be opened. -/
def write (disk : FileSystem) (file : File) (bytes : List UInt8) : Option FileSystem :=
  (resolve disk.tree file).bind fun path => disk.write path bytes

def mkdirs (disk : FileSystem) (file : File) : FileSystem × Bool :=
  if exists' disk.tree file then (disk, false) else disk.mkdirs file.path

/-- The bytes of a regular file. -/
def read (tree : Tree) (file : File) : Option (List UInt8) :=
  match resolve tree file with
  | none => none
  | some path =>
      match tree.node path with
      | some (.file bytes) => some bytes
      | _ => none

def isFile (tree : Tree) (file : File) : Bool :=
  (read tree file).isSome

def isDirectory (tree : Tree) (file : File) : Bool :=
  match resolve tree file with
  | none => false
  | some path => tree.isDir path

/-- Fails also where the method returns `false` because there is something already. -/
def createNewFile (disk : FileSystem) (file : File) : Option FileSystem :=
  if exists' disk.tree file then none else write disk file []

end File

end AndroidCollection.Java
