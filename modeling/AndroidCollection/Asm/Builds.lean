import AndroidCollection.Asm.LifeCycleTransform
import Mathlib.Data.List.Flatten

/-!
# What is left after some builds

Instrumentation makes a class file larger or leaves it, so that directories which
are found unchanged after some builds have never been changed. Then the output has
the last file of each place of the output, and no class of a jar.
-/

namespace AndroidCollection.Asm

open Java Growth LastWrite LifeCycleTransform

/-! ## Classes -/

def InputFile.classFile (file : InputFile) : Option ClassFile :=
  if matchesClass file.name then file.content.read else none

def jarClasses (inputs : List TransformInput) : List ClassFile :=
  inputs.flatMap fun input => input.jarInputs.flatMap fun jar =>
    jar.entries.filterMap InputFile.classFile

def directoryEntries (directory : DirectoryInput) : Output :=
  directory.files.map fun file =>
    ((directory.location, file.directory, file.name), file.content)

/-- The files of all directories, each with its place in the output. -/
def entries (inputs : List TransformInput) : Output :=
  inputs.flatMap fun input => input.directoryInputs.flatMap directoryEntries

def classOf (entry : OutputKey × Content) : Option ClassFile :=
  if matchesClass entry.1.2.2 then entry.2.read else none

/-- After so many builds the output has each class of a jar and what instrumentation makes of each
class of a directory, and the inputs are as they were. -/
def LosesNothing (inputs : List TransformInput) (count : ℕ) : Prop :=
  ∃ final, Project.builds count ⟨inputs, []⟩ = some final ∧ final.inputs = inputs ∧
    (final.output.filterMap classOf).Perm
      (jarClasses inputs ++ ((entries inputs).filterMap classOf).map instrument)

/-- No method with code is selected. -/
def Unselected (read : ClassFile) : Prop :=
  ∀ method ∈ read.methods, method.access = accProtected → method.name = targetName →
    method.descriptor = targetDescriptor → method.code = none

/-- The jars have no classes, in each directory each file with the name of a class is one and has no
method to be instrumented, and no class is overwritten in the output by a later file. -/
structure TransformSafe (inputs : List TransformInput) : Prop where
  jars : jarClasses inputs = []
  directories : ∀ input ∈ inputs, ∀ directory ∈ input.directoryInputs, ∀ file ∈ directory.files,
    matchesClass file.name = true → ∃ read, file.content = .classFile read ∧ Unselected read
  kept : NoneLost classOf (entries inputs)

/-! ## Instrumentation -/

def methodSize (method : Method) : ℕ :=
  (method.code.map fun code => code.instructions.length).getD 0

def classSize (read : ClassFile) : ℕ :=
  total methodSize read.methods

/-- What the class writer has for a method of a class. -/
def written (read : ClassFile) (method : Method) : Method :=
  method.write ((LifecycleClassVisitor.visit read).visitMethod method.access method.name
    method.descriptor)

theorem size_lt_of_code {method : Method} {code : Bytecode.Code} (body : method.code = some code)
    (visitor : LifecycleMethodVisitor) :
    methodSize method < methodSize (method.write (some visitor)) := by
  simp only [methodSize, Method.write, body, Option.map_some, Option.getD_some,
    Bytecode.Code.after, List.length_append, LifecycleMethodVisitor.visitCode, List.length_cons]
  omega

theorem write_grows (method : Method) (visitor : Option LifecycleMethodVisitor) :
    method.write visitor = method ∨ methodSize method < methodSize (method.write visitor) := by
  cases code : method.code with
  | none => exact Or.inl (write_none code visitor)
  | some body =>
      cases visitor with
      | none => exact Or.inl rfl
      | some visitor => exact Or.inr (size_lt_of_code code visitor)

theorem written_eq_self_iff (read : ClassFile) (method : Method) :
    written read method = method ↔
      (method.access = accProtected → method.name = targetName →
        method.descriptor = targetDescriptor → method.code = none) := by
  constructor
  · intro same access name descriptor
    have selected : (LifecycleClassVisitor.visit read).visitMethod method.access method.name
        method.descriptor = some ⟨read.name, method.name⟩ :=
      if_pos ⟨access.symm, name.symm, descriptor.symm⟩
    rw [written, selected] at same
    by_contra code
    rcases Option.ne_none_iff_exists'.1 code with ⟨body, code⟩
    have larger := size_lt_of_code code ⟨read.name, method.name⟩
    rw [same] at larger
    exact Nat.lt_irrefl _ larger
  · intro unselected
    by_cases selected : accProtected = method.access ∧ targetName = method.name ∧
        targetDescriptor = method.descriptor
    · exact write_none (unselected selected.1.symm selected.2.1.symm selected.2.2.symm) _
    · have none : (LifecycleClassVisitor.visit read).visitMethod method.access method.name
          method.descriptor = none := if_neg selected
      rw [written, none]
      rfl

theorem each_some {α : Type} (change : α → α) (items : List α) :
    each (fun item => some (change item)) items = some (items.map change) := by
  induction items with
  | nil => rfl
  | cons item items ih => simp [each, ih]

theorem instrument_eq_self_iff_map (read : ClassFile) :
    instrument read = read ↔ read.methods.map (written read) = read.methods := by
  constructor
  · intro same
    exact congrArg ClassFile.methods same
  · intro same
    have methods : instrument read = { read with methods := read.methods.map (written read) } := rfl
    rw [methods, same]

theorem instrument_grows (read : ClassFile) :
    instrument read = read ∨ classSize read < classSize (instrument read) := by
  have grows : Grows methodSize fun method => some (written read method) := by
    intro before after steps
    cases steps
    exact write_grows before _
  rw [instrument_eq_self_iff_map]
  exact grows.each _ _ (each_some (written read) read.methods)

theorem instrument_eq_self_iff (read : ClassFile) : instrument read = read ↔ Unselected read := by
  have each : each (fun method => some (written read method)) read.methods =
      some read.methods ↔ _ := each_eq_self_iff read.methods
  rw [each_some] at each
  simpa only [instrument_eq_self_iff_map, Option.some.injEq, written_eq_self_iff, Unselected]
    using each

/-! ## The inputs -/

def fileSize (file : InputFile) : ℕ :=
  (file.content.read.map classSize).getD 0

theorem read_eq_some_iff (content : Content) (read : ClassFile) :
    content.read = some read ↔ content = .classFile read := by
  cases content <;> simp [Content.read]

theorem instrumentFile_grows : Grows fileSize instrumentFile := by
  intro before after steps
  simp only [instrumentFile] at steps
  split at steps
  · rcases Option.map_eq_some_iff.1 steps with ⟨read, isClass, rfl⟩
    rcases instrument_grows read with same | larger
    · left
      rw [same, ← (read_eq_some_iff _ _).1 isClass]
    · right
      simp only [fileSize, isClass]
      exact larger
  · cases steps
    exact Or.inl rfl

theorem instrumentFile_eq_self_iff (file : InputFile) :
    instrumentFile file = some file ↔
      (matchesClass file.name = true →
        ∃ read, file.content = .classFile read ∧ Unselected read) := by
  simp only [instrumentFile]
  split
  · next isNamed =>
      rw [forall_prop_of_true isNamed]
      constructor
      · intro same
        rcases Option.map_eq_some_iff.1 same with ⟨read, isClass, back⟩
        have content := (read_eq_some_iff _ _).1 isClass
        refine ⟨read, content, ?_⟩
        have contents := congrArg InputFile.content back
        rw [content, Content.classFile.injEq] at contents
        exact (instrument_eq_self_iff read).1 contents
      · rintro ⟨read, content, unselected⟩
        rw [content, Content.read, Option.map_some, (instrument_eq_self_iff read).2 unselected,
          ← content]
  · next other => exact iff_of_true rfl fun isNamed => absurd isNamed other

/-- The directories after a build, as far as they are concerned. -/
def rewriteDirectory : DirectoryInput → Option DirectoryInput :=
  onPart DirectoryInput.files (fun directory files => { directory with files := files })
    (each instrumentFile)

def rewriteInput : TransformInput → Option TransformInput :=
  onPart TransformInput.directoryInputs
    (fun input directories => { input with directoryInputs := directories })
    (each rewriteDirectory)

def rewriteInputs : List TransformInput → Option (List TransformInput) :=
  each rewriteInput

def inputsSize : List TransformInput → ℕ :=
  total fun input => total (fun directory => total fileSize directory.files) input.directoryInputs

theorem rewriteInputs_grows : Grows inputsSize rewriteInputs := by
  have directories : Grows (fun directory => total fileSize directory.files) rewriteDirectory :=
    instrumentFile_grows.each.onPart (fun _ _ => rfl) (fun _ => rfl)
  have inputs : Grows (fun input =>
      total (fun directory => total fileSize directory.files) input.directoryInputs)
      rewriteInput :=
    directories.each.onPart (fun _ _ => rfl) (fun _ => rfl)
  exact inputs.each

theorem rewriteInputs_eq_self_iff (inputs : List TransformInput) :
    rewriteInputs inputs = some inputs ↔
      ∀ input ∈ inputs, ∀ directory ∈ input.directoryInputs, ∀ file ∈ directory.files,
        matchesClass file.name = true →
          ∃ read, file.content = .classFile read ∧ Unselected read := by
  have directories (directory : DirectoryInput) :
      rewriteDirectory directory = some directory ↔
        ∀ file ∈ directory.files, instrumentFile file = some file :=
    (onPart_eq_self_iff (fun _ _ => rfl) (fun _ => rfl) directory).trans (each_eq_self_iff _)
  have parts (input : TransformInput) :
      rewriteInput input = some input ↔
        ∀ directory ∈ input.directoryInputs, rewriteDirectory directory = some directory :=
    (onPart_eq_self_iff (fun _ _ => rfl) (fun _ => rfl) input).trans (each_eq_self_iff _)
  simp only [rewriteInputs, each_eq_self_iff, parts, directories, instrumentFile_eq_self_iff]

/-! ## The output -/

theorem traverse_eq (files : List InputFile) : traverse files = each instrumentFile files := by
  induction files with
  | nil => rfl
  | cons file files ih => rw [LifeCycleTransform.traverse, ih, each]

theorem copyDirectory_eq (output : Output) (directory : DirectoryInput) :
    copyDirectory output directory = putAll output (directoryEntries directory) :=
  List.foldl_map.symm

theorem putAll_append (output first second : Output) :
    putAll output (first ++ second) = putAll (putAll output first) second :=
  List.foldl_append

theorem handleSource_eq (output : Output) (directories : List DirectoryInput) :
    handleSource output directories =
      (each rewriteDirectory directories).map fun rewritten =>
        (rewritten, putAll output (rewritten.flatMap directoryEntries)) := by
  induction directories generalizing output with
  | nil => rfl
  | cons directory directories ih =>
      simp only [handleSource, traverse_eq, each, rewriteDirectory, onPart, ih, copyDirectory_eq]
      cases each instrumentFile directory.files with
      | none => rfl
      | some files =>
          simp only [Option.bind_some, Option.map_some, Option.map_map]
          congr 1
          funext later
          simp [putAll_append]

theorem transform_eq (output : Output) (inputs : List TransformInput) :
    transform output inputs =
      (rewriteInputs inputs).map fun rewritten =>
        (rewritten, putAll output (entries rewritten)) := by
  induction inputs generalizing output with
  | nil => rfl
  | cons input inputs ih =>
      simp only [transform, handleJar, handleSource_eq, ih, rewriteInputs, each, rewriteInput,
        onPart]
      cases each rewriteDirectory input.directoryInputs with
      | none => rfl
      | some directories =>
          simp only [Option.bind_some, Option.map_some, Option.map_map]
          congr 1
          funext later
          simp [entries, putAll_append]

/-! ## Builds -/

theorem build_eq (inputs : List TransformInput) (output : Output) :
    Project.build ⟨inputs, output⟩ =
      (rewriteInputs inputs).map fun rewritten =>
        ⟨rewritten, putAll output (entries rewritten)⟩ := by
  rw [Project.build, transform_eq, Option.map_map]
  rfl

/-- The output has no influence on the inputs. -/
theorem inputs_of_builds {count : ℕ} {project final : Project}
    (built : project.builds count = some final) :
    repeated rewriteInputs count project.inputs = some final.inputs := by
  induction count generalizing project with
  | zero =>
      cases built
      rfl
  | succ count ih =>
      rcases Option.bind_eq_some_iff.1 built with ⟨next, first, rest⟩
      rw [build_eq, Option.map_eq_some_iff] at first
      rcases first with ⟨rewritten, rewrites, rfl⟩
      rw [repeated, rewrites]
      exact ih rest

/-- Further builds of unchanged inputs leave the output as the first one. -/
theorem builds_of_fixed {inputs : List TransformInput}
    (fixed : rewriteInputs inputs = some inputs) (count : ℕ) :
    Project.builds (count + 1) ⟨inputs, []⟩ = some ⟨inputs, lasts (entries inputs)⟩ := by
  have first : Project.build ⟨inputs, []⟩ = some ⟨inputs, lasts (entries inputs)⟩ := by
    rw [build_eq, fixed, Option.map_some, putAll_nil]
  have again : Project.build ⟨inputs, lasts (entries inputs)⟩ =
      some ⟨inputs, lasts (entries inputs)⟩ := by
    rw [build_eq, fixed, Option.map_some, putAll_lasts]
  rw [Project.builds, repeated, first, Option.bind_some]
  exact repeated_of_fixed again count

theorem map_instrument_of_fixed {inputs : List TransformInput}
    (fixed : rewriteInputs inputs = some inputs) :
    ((entries inputs).filterMap classOf).map instrument = (entries inputs).filterMap classOf := by
  apply (List.map_congr_left _).trans (List.map_id _)
  intro read member
  rcases List.mem_filterMap.1 member with ⟨entry, isEntry, isClass⟩
  simp only [entries, List.mem_flatMap, directoryEntries, List.mem_map] at isEntry
  rcases isEntry with ⟨input, isInput, directory, isDirectory, file, isFile, rfl⟩
  simp only [classOf] at isClass
  split at isClass
  · next isNamed =>
      rcases (rewriteInputs_eq_self_iff inputs).1 fixed input isInput directory isDirectory file
        isFile isNamed with ⟨found, content, unselected⟩
      rw [content] at isClass
      cases isClass
      exact (instrument_eq_self_iff read).2 unselected
  · cases isClass

/-- The class of a jar is not in the output. -/
def jarOnly : List TransformInput :=
  [⟨[⟨[⟨[], ascii ['M'] ++ classSuffix,
    .classFile ⟨52, 1, ascii ['M'], none, none, [], []⟩⟩]⟩], []⟩]

end AndroidCollection.Asm
