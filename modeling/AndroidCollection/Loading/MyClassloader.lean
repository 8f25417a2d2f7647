import AndroidCollection.Java.File

/-!
# A class loader over a directory

`MyClassloader` reads the file for a class name, block by block, and then returns
an array with no bytes in it. So `defineClass` is called with no bytes whatever is
found, and a missing file is not reported either. The file name is made from the
part of the class name after its last dot, which classes of different packages
share.
-/

namespace AndroidCollection.Loading

open Java

/-- What is found when a file is opened and read. -/
inductive Content where
  /-- Opening throws. -/
  | absent
  | ends (bytes : List UInt8)
  /-- Reading throws after these bytes. -/
  | breaks (bytes : List UInt8)
deriving DecidableEq

abbrev Directory := File → Content

/-- `.` -/
def dot : UInt16 :=
  0x2E

/-- `String.lastIndexOf`, which is `-1` for a character which does not occur. -/
def lastIndexOf (text : JString) (unit : UInt16) : ℤ :=
  (text.length : ℤ) - 1 - text.reverse.idxOf unit

def extension : JString :=
  ascii ['.', 'c', 'l', 'a', 's', 's']

def getFileName (name : JString) : JString :=
  let index := lastIndexOf name dot
  if index = -1 then name ++ extension
  else name.drop (index + 1).toNat ++ extension

/-- `new File(path, getFileName(name))`. -/
def fileOf (path : Option JString) (name : JString) : File :=
  File.child (File.steps (path.getD [])) (getFileName name)

/-- The length of the buffer. -/
def bufferLength : ℕ :=
  64

/-- The loop which reads into the buffer and writes it to `out`, until there is nothing left. -/
def copyBlocks (out bytes : List UInt8) : List UInt8 :=
  if bytes = [] then out
  else copyBlocks (out ++ bytes.take bufferLength) (bytes.drop bufferLength)
termination_by bytes.length
decreasing_by
  have := List.length_pos_iff.2 ‹¬bytes = []›
  simp [bufferLength]
  omega

/-- What is in `out` when `loadClassDate` returns, nothing if it is null, and the array which is
returned, `none` for null. -/
structure Loaded where
  out : Option (List UInt8)
  returned : Option (List UInt8)

/-- Exceptions are caught. The bytes collected in `out` are not used. -/
def loadClassDate (directory : Directory) (path : Option JString) (name : JString) : Loaded where
  out :=
    match directory (fileOf path name) with
    | .absent => none
    | .ends bytes | .breaks bytes => some (copyBlocks [] bytes)
  returned := some []

/-- How `findClass` ends: in the virtual machine, with an array and a range of it, or with an
exception. -/
inductive Outcome where
  | defineClass (name : JString) (classData : List UInt8) (offset length : ℕ)
  | classNotFoundException
deriving DecidableEq

def findClass (directory : Directory) (path : Option JString) (name : JString) : Outcome :=
  match (loadClassDate directory path name).returned with
  | none => .classNotFoundException
  | some classData => .defineClass name classData 0 classData.length

theorem copyBlocks_eq (out bytes : List UInt8) : copyBlocks out bytes = out ++ bytes := by
  induction out, bytes using copyBlocks.induct with
  | case1 out =>
      rw [copyBlocks]
      simp
  | case2 out bytes some' ih =>
      rw [copyBlocks, if_neg some', ih, List.append_assoc, List.take_append_drop]

/-- The whole file has been read when the empty array is returned. -/
theorem out_loadClassDate {directory : Directory} {path : Option JString} {name : JString}
    {bytes : List UInt8} (found : directory (fileOf path name) = .ends bytes) :
    (loadClassDate directory path name).out = some bytes := by
  simp [loadClassDate, found, copyBlocks_eq]

theorem findClass_eq (directory : Directory) (path : Option JString) (name : JString) :
    findClass directory path name = .defineClass name [] 0 0 :=
  rfl

/-! ## Simple names -/

/-- The part of a class name after its last dot. -/
structure IsSimpleName (simple name : JString) : Prop where
  undotted : dot ∉ simple
  last : name = simple ∨ ∃ package, name = package ++ dot :: simple

theorem exists_isSimpleName (name : JString) : ∃ simple, IsSimpleName simple name := by
  induction name with
  | nil => exact ⟨[], by simp, Or.inl rfl⟩
  | cons unit name ih =>
      rcases ih with ⟨simple, undotted, whole | ⟨package, rest⟩⟩
      · by_cases dotted : unit = dot
        · exact ⟨simple, undotted, Or.inr ⟨[], by rw [dotted, whole, List.nil_append]⟩⟩
        · refine ⟨unit :: simple, ?_, Or.inl (by rw [whole])⟩
          simpa [Ne.symm dotted] using undotted
      · exact ⟨simple, undotted, Or.inr ⟨unit :: package, by rw [rest, List.cons_append]⟩⟩

theorem getFileName_of_isSimpleName {simple name : JString} (isSimple : IsSimpleName simple name) :
    getFileName name = simple ++ extension := by
  rcases isSimple with ⟨undotted, rfl | ⟨package, rfl⟩⟩
  · have absent : lastIndexOf name dot = -1 := by
      have missing : dot ∉ name.reverse := by simpa using undotted
      simp [lastIndexOf, List.idxOf_eq_length missing]
    simp [getFileName, absent]
  · have found : lastIndexOf (package ++ dot :: simple) dot = package.length := by
      have missing : dot ∉ simple.reverse := by simpa using undotted
      simp [lastIndexOf, List.idxOf_append_of_notMem missing]
      omega
    have next : ((package.length : ℤ) + 1).toNat = package.length + 1 := by omega
    have notAbsent : (package.length : ℤ) ≠ -1 := by omega
    simp [getFileName, found, next, notAbsent, List.drop_append]

theorem extension_ne_dots (simple : JString) :
    simple ++ extension ≠ ascii ['.'] ∧ simple ++ extension ≠ ascii ['.', '.'] := by
  constructor
  · intro same
    have lengths := congrArg List.length same
    simp [extension, ascii] at lengths
  · intro same
    have lengths := congrArg List.length same
    simp [extension, ascii] at lengths

/-- The name of a class file is one name in its directory. -/
theorem steps_className {simple : JString} (slashFree : separatorChar ∉ simple) :
    File.steps (simple ++ extension) = [.down (simple ++ extension)] := by
  have extensionFree : separatorChar ∉ extension := by decide
  have free : separatorChar ∉ simple ++ extension := by
    simp [slashFree, extensionFree]
  have apart := extension_ne_dots simple
  have named : extension ≠ [] := by simp [extension, ascii]
  simp [File.steps, List.splitOn_eq_singleton free, File.step, apart.1, apart.2, named]

theorem IsSimpleName.slashFree {simple name : JString} (isSimple : IsSimpleName simple name)
    (slashFree : separatorChar ∉ name) : separatorChar ∉ simple := by
  rcases isSimple.last with rfl | ⟨package, rfl⟩
  · exact slashFree
  · intro among
    exact slashFree (List.mem_append_right package (List.mem_cons_of_mem dot among))

/-- Class names with one simple name. -/
def SameSimpleName (left right : JString) : Prop :=
  ∃ simple, IsSimpleName simple left ∧ IsSimpleName simple right

theorem fileOf_eq_iff (path : Option JString) {left right : JString}
    (leftFree : separatorChar ∉ left) (rightFree : separatorChar ∉ right) :
    fileOf path left = fileOf path right ↔ SameSimpleName left right := by
  rcases exists_isSimpleName left with ⟨simple, isSimple⟩
  rcases exists_isSimpleName right with ⟨other, isOther⟩
  have leftSteps := steps_className (isSimple.slashFree leftFree)
  have rightSteps := steps_className (isOther.slashFree rightFree)
  rw [fileOf, fileOf, File.child, File.child, List.append_cancel_left_eq,
    getFileName_of_isSimpleName isSimple, getFileName_of_isSimpleName isOther, leftSteps,
    rightSteps]
  constructor
  · intro same
    have equal : simple = other := by simpa using same
    subst equal
    exact ⟨simple, isSimple, isOther⟩
  · rintro ⟨common, isCommon, isCommon'⟩
    have first := getFileName_of_isSimpleName isSimple
    have second := getFileName_of_isSimpleName isOther
    rw [getFileName_of_isSimpleName isCommon] at first
    rw [getFileName_of_isSimpleName isCommon'] at second
    rw [← first, ← second]

/-! ## What is loaded -/

/-- The class is defined from exactly the bytes of its file, and is not found if the file cannot be
read. -/
structure LoadsWhatIsAsked (directory : Directory) (path : Option JString) (name : JString) :
    Prop where
  defines : ∀ bytes, directory (fileOf path name) = .ends bytes →
    findClass directory path name = .defineClass name bytes 0 bytes.length
  refuses : (∀ bytes, directory (fileOf path name) ≠ .ends bytes) →
    findClass directory path name = .classNotFoundException

theorem loadsWhatIsAsked_iff (directory : Directory) (path : Option JString) (name : JString) :
    LoadsWhatIsAsked directory path name ↔ directory (fileOf path name) = .ends [] := by
  constructor
  · rintro ⟨defines, refuses⟩
    by_cases readable : ∃ bytes, directory (fileOf path name) = .ends bytes
    · rcases readable with ⟨bytes, found⟩
      have defined := defines bytes found
      rw [findClass_eq] at defined
      injection defined with _ same
      rw [found, ← same]
    · rw [not_exists] at readable
      cases refuses readable
  · intro empty
    constructor
    · intro bytes found
      rw [empty] at found
      cases found
      exact findClass_eq directory path name
    · intro unreadable
      exact absurd empty (unreadable [])

end AndroidCollection.Loading
