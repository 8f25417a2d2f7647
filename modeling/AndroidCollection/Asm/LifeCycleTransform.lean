import AndroidCollection.Asm.LifecycleClassVisitor
import AndroidCollection.Lib.Growth
import AndroidCollection.Lib.LastWrite

/-!
# The transform of a build

A build gives the transform jars and directories. Jars are left aside. The class
files of a directory are instrumented where they are, and then the directory is
copied to a place of the output, which depends on the name, the content types and
the scopes of the directory. The next build finds the directories as this one has
left them, and the output too, since the transform does not clear it.

A class file is taken for what a class reader makes of it. It is in a file whose
name matches the pattern of the transform.
-/

namespace AndroidCollection.Asm

open Java

inductive Content where
  | classFile (read : ClassFile)
  | other (bytes : List UInt8)
deriving DecidableEq

/-- `ClassReader`; nothing when it throws. -/
def Content.read : Content → Option ClassFile
  | .classFile read => some read
  | .other _ => none

structure InputFile where
  directory : List JString
  name : JString
  content : Content
deriving DecidableEq

/-- What `getContentLocation` distinguishes. -/
structure Location where
  name : JString
  contentTypes : List JString
  scopes : List JString
deriving DecidableEq

structure JarInput where
  entries : List InputFile
deriving DecidableEq

structure DirectoryInput where
  location : Location
  files : List InputFile
deriving DecidableEq

structure TransformInput where
  jarInputs : List JarInput
  directoryInputs : List DirectoryInput
deriving DecidableEq

/-- A file of the output is told by its location, its directory there and its name. -/
abbrev OutputKey := Location × List JString × JString

abbrev Output := List (OutputKey × Content)

/-- The units which a dot of a pattern does not match. -/
def lineTerminators : List UInt16 :=
  [0x0A, 0x0D, 0x85, 0x2028, 0x2029]

def classSuffix : JString :=
  ascii ['.', 'c', 'l', 'a', 's', 's']

/-- The pattern `.*\.class`. -/
def matchesClass (name : JString) : Bool :=
  classSuffix.isSuffixOf name &&
    (name.take (name.length - classSuffix.length)).all fun unit => !lineTerminators.contains unit

namespace LifeCycleTransform

/-! ## Directories -/

/-- What the closure of `traverse` does with a file; nothing when an exception ends the build. -/
def instrumentFile (file : InputFile) : Option InputFile :=
  if matchesClass file.name then
    file.content.read.map fun read => { file with content := .classFile (instrument read) }
  else some file

def traverse : List InputFile → Option (List InputFile)
  | [] => some []
  | file :: files =>
      (instrumentFile file).bind fun first => (traverse files).map fun later => first :: later

def copyDirectory (output : Output) (directory : DirectoryInput) : Output :=
  directory.files.foldl
    (fun output file =>
      LastWrite.put output ((directory.location, file.directory, file.name), file.content))
    output

/-- The directories afterwards, and the output. -/
def handleSource (output : Output) : List DirectoryInput → Option (List DirectoryInput × Output)
  | [] => some ([], output)
  | directory :: directories =>
      (traverse directory.files).bind fun files =>
        (handleSource (copyDirectory output { directory with files := files }) directories).map
          fun later => ({ directory with files := files } :: later.1, later.2)

/-! ## Builds -/

def handleJar (output : Output) (_inputJars : List JarInput) : Output :=
  output

/-- The inputs afterwards, and the output. -/
def transform (output : Output) : List TransformInput → Option (List TransformInput × Output)
  | [] => some ([], output)
  | input :: inputs =>
      (handleSource (handleJar output input.jarInputs) input.directoryInputs).bind fun handled =>
        (transform handled.2 inputs).map fun later =>
          ({ input with directoryInputs := handled.1 } :: later.1, later.2)

end LifeCycleTransform

/-- What one build leaves to the next one. -/
structure Project where
  inputs : List TransformInput
  output : Output := []

namespace Project

def build (project : Project) : Option Project :=
  (LifeCycleTransform.transform project.output project.inputs).map fun built =>
    ⟨built.1, built.2⟩

/-- So many consecutive builds. -/
def builds (count : ℕ) (project : Project) : Option Project :=
  Growth.repeated build count project

end Project

end AndroidCollection.Asm
