import AndroidCollection.Asm.LifecycleClassVisitor
import Mathlib.Data.List.Forall2

/-!
# What instrumentation preserves

The inserted instructions leave the stack as it is, and when the class which they
name is found, the body runs after them as before. That name is misspelled,
though: without such a class, an instrumented method throws before its body
begins. Methods whose access flags are not just `ACC_PROTECTED` are not selected.
So a class keeps its meaning in the intended sense exactly when it has no body
of a protected `onCreate` at all.
-/

namespace AndroidCollection.Asm

open Java Bytecode

universe u v

variable {V : Type u} {H : Type v}

/-! ## The inserted instructions -/

section Inserted

variable {machine : Machine V H} {visitor : LifecycleMethodVisitor} {code : Code}

theorem visitCode_plain (label : Label) : .label label ∉ visitor.visitCode := by
  simp [LifecycleMethodVisitor.visitCode]

/-- The call which they make. -/
def insertedCall (machine : Machine V H) (visitor : LifecycleMethodVisitor) : Call V where
  owner := logOwner
  name := logName
  descriptor := logDescriptor
  arguments := [machine.string LifecycleMethodVisitor.tag, machine.string visitor.message]

theorem raise_inserted {frame : Frame V H} (within : frame.pc < visitor.visitCode.length)
    (exception : V) :
    raise machine (code.after visitor.visitCode) frame exception =
      .threw exception frame.heap frame.calls := by
  unfold raise
  have uncaught : ((code.after visitor.visitCode).tryCatchBlocks.find? fun block =>
      (code.after visitor.visitCode).covers block frame.pc &&
        machine.catches block exception) = none := by
    rw [List.find?_eq_none]
    intro block _
    rw [not_covers_inserted visitCode_plain block within]
    simp
  rw [uncaught]

/-- The moment at which the call is made. -/
def beforeCall (machine : Machine V H) (visitor : LifecycleMethodVisitor) (arguments : List V)
    (heap : H) : Frame V H where
  pc := 2
  stack := [machine.string visitor.message, machine.string LifecycleMethodVisitor.tag]
  locals := arguments
  heap := heap
  calls := []

theorem run_two (arguments : List V) (heap : H) :
    run machine (code.after visitor.visitCode) 2 (start arguments heap) =
      .running (beforeCall machine visitor arguments heap) :=
  rfl

theorem run_three (arguments : List V) (heap : H) :
    run machine (code.after visitor.visitCode) 3 (start arguments heap) =
      callStatic machine (code.after visitor.visitCode) (beforeCall machine visitor arguments heap)
        logOwner logName logDescriptor := by
  rw [run_succ, run_two]
  rfl

theorem callStatic_inserted (arguments : List V) (heap : H) :
    callStatic machine (code.after visitor.visitCode) (beforeCall machine visitor arguments heap)
        logOwner logName logDescriptor =
      if machine.provides logOwner then
        match machine.invoke (insertedCall machine visitor) heap with
        | .returned value heap =>
            .running ⟨3, value.toList, arguments, heap, [insertedCall machine visitor]⟩
        | .threw exception heap => .threw exception heap [insertedCall machine visitor]
      else .threw (machine.noClassDefFoundError logOwner) heap [] := by
  have enough : ¬(beforeCall machine visitor arguments heap).stack.length <
      argumentCount logDescriptor := Nat.lt_irrefl 2
  have uncaught {frame : Frame V H} (here : frame.pc = 2) (exception : V) :
      raise machine (code.after visitor.visitCode) frame exception =
        .threw exception frame.heap frame.calls := by
    apply raise_inserted
    rw [here]
    change 2 < 4
    decide
  unfold callStatic
  simp only [if_neg enough]
  cases machine.provides logOwner with
  | false =>
      simp only [Bool.not_false, if_true]
      exact uncaught rfl _
  | true =>
      have call : Call.mk logOwner logName logDescriptor
          ((beforeCall machine visitor arguments heap).stack.take
            (argumentCount logDescriptor)).reverse = insertedCall machine visitor := rfl
      have sameHeap : (beforeCall machine visitor arguments heap).heap = heap := rfl
      simp only [Bool.not_true, Bool.false_eq_true, if_false, if_true, call, sameHeap]
      cases machine.invoke (insertedCall machine visitor) heap with
      | returned value after => cases value <;> rfl
      | threw exception after => exact uncaught rfl exception

/-- Nothing of the body has run when the class is not found. -/
theorem run_three_of_missing (missing : machine.provides logOwner = false) (arguments : List V)
    (heap : H) :
    run machine (code.after visitor.visitCode) 3 (start arguments heap) =
      .threw (machine.noClassDefFoundError logOwner) heap [] := by
  rw [run_three, callStatic_inserted, if_neg (by simp [missing])]

/-- When the class is found and the call returns a value, the stack is as it was. -/
theorem run_four_of_provided (provided : machine.provides logOwner = true) {heap after : H}
    {value : V} (returned : machine.invoke (insertedCall machine visitor) heap =
      .returned (some value) after) (arguments : List V) :
    run machine (code.after visitor.visitCode) 4 (start arguments heap) =
      (start arguments after).after 4 [insertedCall machine visitor] := by
  rw [run_succ, run_three, callStatic_inserted, if_pos provided, returned]
  rfl

/-- From there the body runs as before. -/
theorem run_body (provided : machine.provides logOwner = true) {heap after : H} {value : V}
    (returned : machine.invoke (insertedCall machine visitor) heap =
      .returned (some value) after) (arguments : List V) (count : ℕ) :
    run machine (code.after visitor.visitCode) (4 + count) (start arguments heap) =
      (run machine code count (start arguments after)).after 4
        [insertedCall machine visitor] := by
  rw [run_add, run_four_of_provided provided returned]
  exact run_after visitCode_plain count (start arguments after) [insertedCall machine visitor]

/-- Nothing of the body runs when the class is not found. -/
theorem run_of_missing (missing : machine.provides logOwner = false) (arguments : List V)
    (heap : H) (count : ℕ) :
    run machine (code.after visitor.visitCode) (3 + count) (start arguments heap) =
      .threw (machine.noClassDefFoundError logOwner) heap [] := by
  rw [run_add, run_three_of_missing missing]
  exact Function.iterate_fixed rfl count

end Inserted

/-! ## The intended meaning -/

/-- `android/util/Log`. -/
def androidLog : JString :=
  ascii ['a', 'n', 'd', 'r', 'o', 'i', 'd', '/', 'u', 't', 'i', 'l', '/', 'L', 'o', 'g']

/-- A call of `Log.i` with the names of the class and of the method. -/
structure LogCall (machine : Machine V H) (className methodName : JString) (call : Call V) :
    Prop where
  owner : call.owner = androidLog
  name : call.name = logName
  descriptor : call.descriptor = logDescriptor
  arguments : ∃ tag message, call.arguments = [tag, machine.string message] ∧
    className <:+: message ∧ methodName <:+: message

/-- A protected `onCreate(Bundle)` which is not static. -/
structure IsOnCreate (method : Method) : Prop where
  isProtected : method.access &&& accProtected ≠ 0
  notStatic : method.access &&& accStatic = 0
  name : method.name = targetName
  descriptor : method.descriptor = targetDescriptor

/-- There is something in front of the body which makes the call and leaves everything else as it
is; from there the method runs as it did before. -/
def LogsFirst (machine : Machine V H) (className methodName : JString) (code after : Code) :
    Prop :=
  ∃ inserted, after = code.after inserted ∧ ∀ arguments heap, ∃ count call heap',
    LogCall machine className methodName call ∧
      (∀ earlier < count, ∃ pc < inserted.length,
        (run machine after earlier (start arguments heap)).pc = some pc) ∧
      run machine after count (start arguments heap) =
        (start arguments heap').after inserted.length [call] ∧
      ∀ further, run machine after (count + further) (start arguments heap) =
        (run machine code further (start arguments heap')).after inserted.length [call]

/-- What a method has to become. -/
def MethodPreserved (machine : Machine V H) (className : JString) (method produced : Method) :
    Prop :=
  (∀ code, method.code = some code → IsOnCreate method →
    ∃ after, produced = { method with code := some after } ∧
      LogsFirst machine className method.name code after) ∧
    (method.code = none ∨ ¬IsOnCreate method → produced = method)

def ClassFile.classes (file : ClassFile) : List JString :=
  file.superName.toList ++ file.interfaces ++
    file.methods.flatMap fun method => method.exceptions ++ method.code.toList.flatMap Code.classes

structure ClassPreserved (machine : Machine V H) (file produced : ClassFile) : Prop where
  frame : { produced with methods := file.methods } = file
  methods : List.Forall₂ (MethodPreserved machine file.name) file.methods produced.methods
  classes : ∀ needed ∈ produced.classes, needed ∈ file.classes ∨ machine.provides needed = true

section Preservation

variable {machine : Machine V H}

theorem not_logsFirst_self [Inhabited H] (className methodName : JString) (code : Code) :
    ¬LogsFirst machine className methodName code code := by
  rintro ⟨inserted, same, runs⟩
  have nothing : inserted = [] := by
    have instructions := congrArg Code.instructions same
    exact List.self_eq_append_left.1 instructions
  subst nothing
  rcases runs [] default with ⟨count, call, heap', _, within, reached, _⟩
  cases count with
  | zero =>
      have calls := congrArg State.calls reached
      cases calls
  | succ count =>
      rcases within 0 (Nat.succ_pos count) with ⟨pc, negative, _⟩
      cases negative

/-- Where a method with the inserted instructions can be until they have ended. -/
theorem run_inserted_pc (machine : Machine V H) (visitor : LifecycleMethodVisitor) (code : Code)
    (arguments : List V) (heap : H) :
    (∀ count < 3, (run machine (code.after visitor.visitCode) count (start arguments heap)).pc =
      some count) ∧
    (run machine (code.after visitor.visitCode) 3 (start arguments heap)).pc ≠ some 4 ∧
    ((run machine (code.after visitor.visitCode) 4 (start arguments heap)).pc = none ∨
      (run machine (code.after visitor.visitCode) 4 (start arguments heap)).pc = some 4 ∧
        (run machine (code.after visitor.visitCode) 4 (start arguments heap)).calls =
          [insertedCall machine visitor]) := by
  refine ⟨?_, ?_⟩
  · intro count early
    match count with
    | 0 => rfl
    | 1 => rfl
    | 2 => rfl
  · rw [run_succ machine _ 3, run_three, callStatic_inserted]
    cases machine.provides logOwner with
    | false => exact ⟨by simp [State.pc], Or.inl rfl⟩
    | true =>
        simp only [if_true]
        cases machine.invoke (insertedCall machine visitor) heap with
        | threw exception after => exact ⟨by simp [State.pc], Or.inl rfl⟩
        | returned value after =>
            refine ⟨by simp [State.pc], ?_⟩
            cases value with
            | none => exact Or.inl rfl
            | some value => exact Or.inr ⟨rfl, rfl⟩

theorem not_logsFirst_inserted [Inhabited H] {visitor : LifecycleMethodVisitor}
    (className methodName : JString) (code : Code) :
    ¬LogsFirst machine className methodName code (code.after visitor.visitCode) := by
  rintro ⟨inserted, same, runs⟩
  have these : inserted = visitor.visitCode := by
    have instructions := congrArg Code.instructions same
    exact (List.append_left_inj _).1 instructions.symm
  subst these
  rcases runs [] default with ⟨count, call, heap', isLog, within, reached, _⟩
  rcases run_inserted_pc machine visitor code [] default with ⟨early, third, fourth⟩
  have arrives : (run machine (code.after visitor.visitCode) count (start [] default)).pc =
      some 4 := by
    rw [reached]
    rfl
  have short : count ≤ 4 := by
    by_contra long
    rcases within 4 (Nat.not_le.1 long) with ⟨pc, inside, here⟩
    rcases fourth with ended | ⟨behind, _⟩
    · rw [ended] at here
      cases here
    · rw [behind] at here
      cases here
      exact absurd inside (Nat.lt_irrefl 4)
  rcases Nat.lt_or_ge count 3 with little | most
  · rw [early count little] at arrives
    cases arrives
    exact absurd little (by decide)
  · rcases Nat.eq_or_lt_of_le most with rfl | most
    · exact third arrives
    · have all : count = 4 := Nat.le_antisymm short most
      subst all
      rcases fourth with ended | ⟨_, calls⟩
      · rw [ended] at arrives
        cases arrives
      · rw [reached] at calls
        have same : [call] = [insertedCall machine visitor] := calls
        have owner := isLog.owner
        rw [List.singleton_injective same] at owner
        revert owner
        change logOwner ≠ androidLog
        decide

/-- Only a protected `onCreate` is selected. -/
theorem isOnCreate_of_visitMethod {classVisitor : LifecycleClassVisitor} {method : Method}
    {visitor : LifecycleMethodVisitor} (selected :
      classVisitor.visitMethod method.access method.name method.descriptor = some visitor) :
    IsOnCreate method := by
  unfold LifecycleClassVisitor.visitMethod at selected
  split at selected
  · next exactly =>
      rcases exactly with ⟨access, name, descriptor⟩
      refine ⟨?_, ?_, name.symm, descriptor.symm⟩
      · rw [← access]
        decide
      · rw [← access]
        decide
  · cases selected

/-- Every other method is unchanged. -/
theorem write_of_not_isOnCreate (classVisitor : LifecycleClassVisitor) {method : Method}
    (other : ¬IsOnCreate method) :
    method.write (classVisitor.visitMethod method.access method.name method.descriptor) =
      method := by
  cases selected : classVisitor.visitMethod method.access method.name method.descriptor with
  | none => rfl
  | some visitor => exact absurd (isOnCreate_of_visitMethod selected) other

/-- Every body of a protected `onCreate` is produced in a way which does not log first. -/
theorem not_methodPreserved [Inhabited H] (classVisitor : LifecycleClassVisitor)
    (className : JString) {method : Method} {code : Code} (body : method.code = some code)
    (isOnCreate : IsOnCreate method) :
    ¬MethodPreserved machine className method
      (method.write (classVisitor.visitMethod method.access method.name method.descriptor)) := by
  rintro ⟨logs, _⟩
  rcases logs code body isOnCreate with ⟨after, produced, first⟩
  have written := congrArg Method.code produced
  cases selected : classVisitor.visitMethod method.access method.name method.descriptor with
  | none =>
      rw [selected, Method.write, body] at written
      cases written
      exact not_logsFirst_self _ _ _ first
  | some visitor =>
      rw [selected, Method.write, body] at written
      cases written
      exact not_logsFirst_inserted _ _ _ first

/-- A class without such a body is written as it was read. -/
theorem instrument_eq_self {file : ClassFile}
    (noBody : ∀ method ∈ file.methods, IsOnCreate method → method.code = none) :
    instrument file = file := by
  have methods : (file.methods.map fun method => method.write
      ((LifecycleClassVisitor.visit file).visitMethod method.access method.name
        method.descriptor)) = file.methods.map id := by
    apply List.map_congr_left
    intro method among
    by_cases isOnCreate : IsOnCreate method
    · exact write_none (noBody method among isOnCreate) _
    · exact write_of_not_isOnCreate _ isOnCreate
  rw [List.map_id] at methods
  unfold instrument
  rw [methods]

/-- A class keeps its meaning exactly when none of its methods should log. -/
theorem instrument_preserves_iff [Inhabited H] (machine : Machine V H) (file : ClassFile) :
    ClassPreserved machine file (instrument file) ↔
      ∀ method ∈ file.methods, IsOnCreate method → method.code = none := by
  constructor
  · intro preserved method among isOnCreate
    cases body : method.code with
    | none => rfl
    | some code =>
        have methods := preserved.methods
        unfold instrument at methods
        rw [List.forall₂_map_right_iff, List.forall₂_same] at methods
        exact absurd (methods method among) (not_methodPreserved _ _ body isOnCreate)
  · intro noBody
    rw [instrument_eq_self noBody]
    refine ⟨rfl, ?_, fun needed among => Or.inl among⟩
    rw [List.forall₂_same]
    intro method among
    refine ⟨?_, fun _ => rfl⟩
    intro code body isOnCreate
    rw [noBody method among isOnCreate] at body
    cases body

/-- `Log.i` is there and returns. -/
def HasLog (machine : Machine V H) : Prop :=
  machine.provides androidLog = true ∧ ∀ tag message heap, ∃ value after,
    machine.invoke ⟨androidLog, logName, logDescriptor, [tag, message]⟩ heap =
      .returned (some value) after

/-- Values are texts, which for an exception is the name of its class. -/
def android : Machine JString Unit where
  string value := value
  provides name := name = androidLog
  noClassDefFoundError name := name
  invoke _ _ := .returned (some []) ()
  effect instruction _ _ _ :=
    if instruction = .insn return' then some (.returned none, (), []) else none
  isInstance exception type := exception = type

/-- A method which returns at once. -/
def returning : Method where
  access := accProtected
  name := targetName
  descriptor := targetDescriptor
  signature := none
  exceptions := []
  code := some { instructions := [.insn return'], tryCatchBlocks := [] }

def mainActivity : ClassFile where
  version := 52
  access := 1
  name := ascii ['M', 'a', 'i', 'n']
  signature := none
  superName := none
  interfaces := []
  methods := [returning]

/-- A protected `onCreate` fails with an exception instead of logging. -/
theorem instrument_does_not_preserve :
    ¬∀ (V H : Type) (machine : Machine V H), HasLog machine → Nonempty H →
      ∀ file, ClassPreserved machine file (instrument file) := by
  intro always
  have hasLog : HasLog android := ⟨by decide, fun _ _ _ => ⟨[], (), rfl⟩⟩
  have methods := (always _ _ android hasLog ⟨()⟩ mainActivity).methods
  unfold instrument at methods
  rw [List.forall₂_map_right_iff, List.forall₂_same] at methods
  have isOnCreate : IsOnCreate returning := ⟨by decide, by decide, rfl, rfl⟩
  exact not_methodPreserved _ _ rfl isOnCreate (methods returning List.mem_cons_self)

end Preservation

end AndroidCollection.Asm
