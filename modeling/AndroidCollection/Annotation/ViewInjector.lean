import AndroidCollection.Java.Integer

/-!
# A processor for view injection

The handler collects the fields which are annotated with `ViewInjector` by the name
of their class, and the writer makes one source file of each collection: a class
which assigns the fields. The processor calls the handler in each round of a
compilation and keeps what it has collected; it has no writer.

A name is legal if each of its parts between dots is an identifier. What identifiers
are is a matter of Unicode tables; of them nothing is needed but that the separator
of file names is not in them.
-/

namespace AndroidCollection.Annotation

open Java

def dot : UInt16 :=
  0x2E

/-- `SourceVersion.isName` for a part of a name, and `File.separator`. -/
structure Names where
  isIdentifier : JString → Bool
  separator : UInt16
  separator_ne_dot : separator ≠ dot
  notMem_of_isIdentifier : ∀ part, isIdentifier part = true → separator ∉ part

namespace Names

variable (names : Names)

def isName (name : JString) : Bool :=
  (name.splitOn dot).all names.isIdentifier

end Names

/-! ## What is annotated -/

/-- A class: its package, and its simple name after those of the classes around it. -/
structure TypeElement where
  packageName : JString
  outer : List JString
  simpleName : JString
deriving DecidableEq

/-- A field, and the value of its annotation. -/
structure VariableElement where
  enclosing : TypeElement
  simpleName : JString
  value : Int32
deriving DecidableEq

inductive Element where
  | field (field : VariableElement)
  | other

/-! ## `ViewInjectHandler` -/

/-- The entries of a `HashMap`, which are in some order. -/
abbrev FieldMap := List (JString × List VariableElement)

def put (map : FieldMap) (key : JString) (fields : List VariableElement) : FieldMap :=
  match map with
  | [] => [(key, fields)]
  | entry :: map =>
      if entry.1 = key then (key, fields) :: map else entry :: put map key fields

def getParentClassName (field : VariableElement) : JString :=
  field.enclosing.packageName ++ dot :: field.enclosing.simpleName

def add (map : FieldMap) (field : VariableElement) : FieldMap :=
  put map (getParentClassName field)
    ((map.lookup (getParentClassName field)).getD [] ++ [field])

/-- The loop over the annotated elements; nothing when an `AnnotationTypeMismatchException` ends
it. -/
def handleFrom (map : FieldMap) : List Element → Option FieldMap
  | [] => some map
  | .other :: _ => none
  | .field field :: elements => handleFrom (add map field) elements

def handleAnnotation (elements : List Element) : Option FieldMap :=
  handleFrom [] elements

/-! ## `AbsWriter` and `DefaultWriter` -/

def SUFFIX : JString :=
  ascii "$InjectAdapter".toList

structure SourceFile where
  name : JString
  text : JString

structure InjectorInfo where
  packageName : JString
  className : JString

namespace InjectorInfo

variable (info : InjectorInfo)

def newClassName : JString :=
  info.className ++ SUFFIX

def classFullPath (names : Names) : JString :=
  info.packageName ++ names.separator :: info.newClassName

end InjectorInfo

def createInjectorInfo (field : VariableElement) : InjectorInfo :=
  ⟨field.enclosing.packageName, field.enclosing.simpleName⟩

def generateImport (info : InjectorInfo) : JString :=
  ascii "package ".toList ++ info.packageName ++ ascii " ;\n\n".toList ++
    ascii "import com.example.annotationlib.adapter.InjectAdapter ;\n".toList ++
    ascii "import com.example.annotationlib.adapter.utils.ViewFinder ;\n".toList ++
    ascii "public class ".toList ++ info.newClassName ++
    ascii " implements InjectAdapter<".toList ++ info.className ++ ascii ">\x7b\n".toList ++
    ascii "public void inject(".toList ++ info.className ++ ascii " target)\x7b\n".toList

def writeField (field : VariableElement) : JString :=
  ascii "  target.".toList ++ field.simpleName ++
    ascii " = ViewFinder.findViewById(target,".toList ++ intToString field.value ++
    ascii ")\n".toList

def writerEnd : JString :=
  ascii " \x7d\n\x7d".toList

def fileText (info : InjectorInfo) (fields : List VariableElement) : JString :=
  generateImport info ++ fields.flatMap writeField ++ writerEnd

/-- One pass of the loop of `generate`. `createSourceFile` throws a `FilerException`, which is
caught, when the name is not legal or has been used. -/
def generateEntry (names : Names) (files : List SourceFile) (fields : List VariableElement) :
    List SourceFile :=
  match fields with
  | [] => files
  | first :: _ =>
      let info := createInjectorInfo first
      let name := info.classFullPath names
      if names.isName name = true ∧ ∀ file ∈ files, file.name ≠ name then
        files ++ [⟨name, fileText info fields⟩]
      else files

/-- The files after `generate`, with those which the `Filer` has created before. -/
def generate (names : Names) (files : List SourceFile) (map : FieldMap) : List SourceFile :=
  map.foldl (fun files entry => generateEntry names files entry.2) files

/-! ## `ViewInjectorProcessor` -/

/-- The field of the processor, and the files which have been created. -/
structure ViewInjectorProcessor where
  map : FieldMap := []
  files : List SourceFile := []

namespace ViewInjectorProcessor

variable (self : ViewInjectorProcessor)

def putAll (map : FieldMap) (entries : FieldMap) : FieldMap :=
  entries.foldl (fun map entry => put map entry.1 entry.2) map

/-- One round, with the elements which are annotated in it. -/
def process (elements : List Element) : Option ViewInjectorProcessor :=
  ( handleAnnotation elements).map fun found => { self with map := putAll self.map found }

/-- The rounds of a compilation. -/
def run (rounds : List (List Element)) : Option ViewInjectorProcessor :=
  rounds.foldlM (fun processor elements => processor.process elements) self

end ViewInjectorProcessor

end AndroidCollection.Annotation
