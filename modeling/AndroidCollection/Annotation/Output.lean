import AndroidCollection.Annotation.ViewInjector
import AndroidCollection.Lib.PairText
import Mathlib.Data.List.Dedup

/-!
# What the processor writes

Nothing: the processor has no writer, and if what it has collected is given to the
writer, the name of each file has the separator of file names in it, so that no file
can be created. The text would be no class either, since none of its assignments
ends, and the fields of two classes of one simple name in a package are collected
together.
-/

namespace AndroidCollection.Annotation

open Java

/-- One file for each class which has annotated fields, with a legal name and with a text which is
a class and assigns each of them from its value, and nothing else. What the assignments of a text
are is told by the parser; there is nothing when the text is no class. -/
def Complete (names : Names) (assignments : JString → Option (List (JString × Int32)))
    (fields : List VariableElement) (files : List SourceFile) : Prop :=
  ∃ file : TypeElement → SourceFile,
    files.Perm ((fields.map VariableElement.enclosing).dedup.map file) ∧
      ∀ type ∈ fields.map VariableElement.enclosing, names.isName (file type).name = true ∧
        ∃ assigned, assignments (file type).text = some assigned ∧
          assigned.Perm ((fields.filter fun field => field.enclosing = type).map
            fun field => (field.simpleName, field.value))

theorem complete_nil_iff {names : Names}
    {assignments : JString → Option (List (JString × Int32))} {fields : List VariableElement} :
    Complete names assignments fields [] ↔ fields = [] := by
  constructor
  · rintro ⟨file, one, _⟩
    have none := one.symm.eq_nil
    rw [List.map_eq_nil_iff, List.dedup_eq_nil, List.map_eq_nil_iff] at none
    exact none
  · rintro rfl
    exact ⟨fun _ => ⟨[], []⟩, by simp, by simp⟩

/-! ## The writer -/

/-- A symbol which does not separate is in one of the parts. -/
theorem not_isName_of_separator_mem {names : Names} {name : JString}
    (member : names.separator ∈ name) : names.isName name = false := by
  rcases PairText.exists_mem_splitOn names.separator_ne_dot member with ⟨part, isPart, within⟩
  apply Bool.eq_false_iff.2
  intro legal
  exact names.notMem_of_isIdentifier part (List.all_eq_true.1 legal part isPart) within

theorem generateEntry_eq (names : Names) (files : List SourceFile)
    (fields : List VariableElement) : generateEntry names files fields = files := by
  cases fields with
  | nil => rfl
  | cons first fields =>
      have illegal : names.isName ((createInjectorInfo first).classFullPath names) = false := by
        apply not_isName_of_separator_mem
        simp [InjectorInfo.classFullPath]
      simp [generateEntry, illegal]

/-- The writer never creates a file. -/
theorem generate_eq (names : Names) (files : List SourceFile) (map : FieldMap) :
    generate names files map = files := by
  simp only [generate]
  induction map generalizing files with
  | nil => rfl
  | cons entry map ih => rw [List.foldl_cons, generateEntry_eq, ih]

def semicolon : UInt16 :=
  0x3B

/-- No assignment which is written ends in a semicolon. -/
theorem semicolon_notMem_writeField {field : VariableElement}
    (name : semicolon ∉ field.simpleName) : semicolon ∉ writeField field := by
  have digits (value : ℕ) : semicolon ∉ decimal value := by
    intro member
    rcases mem_decimal member with ⟨digit, small, same⟩
    have unit := congrArg UInt16.toNat same
    rw [toNat_digitUnit small] at unit
    have semicolonUnit : semicolon.toNat = 0x3B := rfl
    omega
  have number : semicolon ∉ intToString field.value := by
    simp only [intToString]
    split
    · have minus : semicolon ≠ 0x2D := by decide
      simp [minus, digits]
    · exact digits _
  simp only [writeField, List.mem_append, not_or]
  refine ⟨⟨⟨⟨?_, name⟩, ?_⟩, number⟩, ?_⟩ <;> decide

/-! ## The handler -/

theorem lookup_cons_eq (entry : JString × List VariableElement) (map : FieldMap) (key : JString) :
    List.lookup key (entry :: map) = if key = entry.1 then some entry.2 else map.lookup key := by
  rcases entry with ⟨own, fields⟩
  by_cases same : key = own
  · simp [same]
  · simp [List.lookup_cons, same, beq_eq_false_iff_ne.2 same]

theorem lookup_put (map : FieldMap) (key other : JString) (fields : List VariableElement) :
    (put map key fields).lookup other = if other = key then some fields else map.lookup other := by
  induction map with
  | nil => exact lookup_cons_eq (key, fields) [] other
  | cons entry map ih =>
      simp only [put]
      split
      · next same =>
          subst same
          rw [lookup_cons_eq, lookup_cons_eq]
          split <;> rfl
      · next different =>
          rw [lookup_cons_eq, lookup_cons_eq, ih]
          by_cases here : other = entry.1
          · subst here
            simp [different]
          · simp [here]

/-- The fields of the classes with a name are collected under it, in their order. -/
theorem handleFrom_fields (map : FieldMap) (fields : List VariableElement) :
    ∃ found, handleFrom map (fields.map .field) = some found ∧
      ∀ key, (found.lookup key).getD [] = (map.lookup key).getD [] ++
        fields.filter fun field => getParentClassName field = key := by
  induction fields generalizing map with
  | nil => exact ⟨map, rfl, by simp⟩
  | cons field fields ih =>
      rcases ih (add map field) with ⟨found, handles, collected⟩
      refine ⟨found, handles, ?_⟩
      intro key
      rw [collected key, add, lookup_put]
      by_cases same : getParentClassName field = key
      · subst same
        simp
      · simp [same, Ne.symm same]

theorem handleAnnotation_fields (fields : List VariableElement) :
    ∃ found, handleAnnotation (fields.map .field) = some found ∧
      ∀ key, (found.lookup key).getD [] =
        fields.filter fun field => getParentClassName field = key := by
  simpa [ handleAnnotation] using handleFrom_fields [] fields

/-- Two fields of different classes are collected together when the classes have one simple name in
a package. -/
theorem getParentClassName_eq {first second : VariableElement}
    (package : first.enclosing.packageName = second.enclosing.packageName)
    (name : first.enclosing.simpleName = second.enclosing.simpleName) :
    getParentClassName first = getParentClassName second := by
  simp only [getParentClassName, package, name]

/-! ## The processor -/

namespace ViewInjectorProcessor

/-- A round creates no file. -/
theorem process_fields (self : ViewInjectorProcessor) (fields : List VariableElement) :
    ∃ next, self.process (fields.map .field) = some next ∧ next.files = self.files := by
  rcases handleAnnotation_fields fields with ⟨found, handles, _⟩
  exact ⟨{ self with map := putAll self.map found }, by rw [process, handles]; rfl, rfl⟩

/-- A compilation creates no file. -/
theorem run_fields (self : ViewInjectorProcessor) (rounds : List (List VariableElement)) :
    ∃ final, self.run (rounds.map fun fields => fields.map .field) = some final ∧
      final.files = self.files := by
  induction rounds generalizing self with
  | nil => exact ⟨self, rfl, rfl⟩
  | cons fields rounds ih =>
      rcases process_fields self fields with ⟨next, processes, same⟩
      rcases ih next with ⟨final, runs, files⟩
      refine ⟨final, ?_, files.trans same⟩
      simpa [run, processes] using runs

end ViewInjectorProcessor

/-- The output is complete when no field is annotated, and only then; it would be no other if the
writer got what has been collected. -/
theorem output_complete_iff (names : Names)
    (assignments : JString → Option (List (JString × Int32)))
    (rounds : List (List VariableElement)) :
    ∃ final, ViewInjectorProcessor.run {} (rounds.map fun fields => fields.map .field) =
        some final ∧
      (Complete names assignments rounds.flatten final.files ↔ rounds.flatten = []) ∧
      (Complete names assignments rounds.flatten (generate names final.files final.map) ↔
        rounds.flatten = []) := by
  rcases ViewInjectorProcessor.run_fields {} rounds with ⟨final, runs, files⟩
  have none : final.files = [] := files
  refine ⟨final, runs, ?_, ?_⟩
  · rw [none]
    exact complete_nil_iff
  · rw [generate_eq, none]
    exact complete_nil_iff

/-- A letter, an underscore or a dollar sign. -/
def startsIdentifier (unit : UInt16) : Bool :=
  (0x41 ≤ unit.toNat && unit.toNat ≤ 0x5A) || (0x61 ≤ unit.toNat && unit.toNat ≤ 0x7A) ||
    unit == 0x5F || unit == 0x24

def isDigit (unit : UInt16) : Bool :=
  0x30 ≤ unit.toNat && unit.toNat ≤ 0x39

/-- Names in ASCII but for keywords, with the separator of Unix. -/
def asciiNames : Names where
  isIdentifier part :=
    part.head?.any startsIdentifier && part.all fun unit => startsIdentifier unit || isDigit unit
  separator := 0x2F
  separator_ne_dot := by decide
  notMem_of_isIdentifier := by
    intro part isIdentifier member
    rw [Bool.and_eq_true, List.all_eq_true] at isIdentifier
    exact absurd (isIdentifier.2 _ member) (by decide)

/-- Nothing is written for a class with one field. -/
theorem annotated_field_not_complete :
    ¬∀ names assignments (rounds : List (List VariableElement)),
      ∃ final, ViewInjectorProcessor.run {} (rounds.map fun fields => fields.map .field) =
          some final ∧ Complete names assignments rounds.flatten final.files := by
  intro always
  rcases always asciiNames (fun _ => none)
    [[⟨⟨ascii ['a'], [], ascii ['M']⟩, ascii ['t'], 1⟩]] with ⟨final, runs, complete⟩
  cases runs
  cases complete_nil_iff.1 complete

end AndroidCollection.Annotation
