import AndroidCollection.Java.Text
import Mathlib.Logic.Function.Iterate

/-!
# Java bytecode

The body of a method as a class reader reports it: instructions with symbolic
labels between them, and the blocks which catch exceptions. One activation of a
method is run in small steps. String constants, static calls and `POP` are
executed here; the other instructions, and the methods which are called, belong
to a machine which is a parameter. A static call of a class which is not found
throws. Every run keeps the list of the calls it has made.

Instructions without labels can be put in front of a body: from where they end,
the body runs as it did before.
-/

namespace AndroidCollection.Java.Bytecode

abbrev Label := ℕ

inductive Constant where
  | int (value : ℤ)
  | long (value : ℤ)
  | float (bits : UInt32)
  | double (bits : UInt64)
  | string (value : JString)
  | type (descriptor : JString)
deriving DecidableEq, Repr

/-- The calls which a `MethodVisitor` receives for the code of a method. -/
inductive Instruction where
  | insn (opcode : ℕ)
  | intInsn (opcode : ℕ) (operand : ℤ)
  | varInsn (opcode variable' : ℕ)
  | typeInsn (opcode : ℕ) (type : JString)
  | fieldInsn (opcode : ℕ) (owner name descriptor : JString)
  | methodInsn (opcode : ℕ) (owner name descriptor : JString) (isInterface : Bool)
  | invokeDynamicInsn (name descriptor bootstrapOwner bootstrapName : JString)
      (bootstrapArguments : List Constant)
  | jumpInsn (opcode : ℕ) (target : Label)
  | label (label : Label)
  | ldcInsn (constant : Constant)
  | iincInsn (variable' : ℕ) (increment : ℤ)
  | tableSwitchInsn (low high : ℤ) (default : Label) (targets : List Label)
  | lookupSwitchInsn (default : Label) (keys : List ℤ) (targets : List Label)
  | multiANewArrayInsn (descriptor : JString) (dimensions : ℕ)
deriving DecidableEq, Repr

/-- Catches the exceptions of a type, or all of them, between two labels. -/
structure TryCatchBlock where
  start : Label
  finish : Label
  handler : Label
  type : Option JString
deriving DecidableEq, Repr

structure Code where
  instructions : List Instruction
  tryCatchBlocks : List TryCatchBlock
deriving DecidableEq, Repr

/-- `Opcodes.POP`. -/
def pop : ℕ := 87

/-- `Opcodes.RETURN`. -/
def return' : ℕ := 177

/-- `Opcodes.INVOKESTATIC`. -/
def invokeStatic : ℕ := 184

/-- The classes which an instruction refers to. -/
def Instruction.classes : Instruction → List JString
  | .typeInsn _ type => [type]
  | .fieldInsn _ owner _ _ => [owner]
  | .methodInsn _ owner _ _ _ => [owner]
  | .invokeDynamicInsn _ _ bootstrapOwner _ _ => [bootstrapOwner]
  | .ldcInsn (.type descriptor) => [descriptor]
  | .multiANewArrayInsn descriptor _ => [descriptor]
  | _ => []

def Code.classes (code : Code) : List JString :=
  code.instructions.flatMap Instruction.classes ++
    code.tryCatchBlocks.filterMap TryCatchBlock.type

/-- The number of the parameters in a descriptor after its opening bracket; the flag says that the
name of a class is not complete yet. -/
def parameters : Bool → JString → ℕ
  | _, [] => 0
  | true, unit :: rest => parameters (unit ≠ 0x3B) rest
  | false, unit :: rest =>
      if unit = 0x29 then 0
      else if unit = 0x5B then parameters false rest
      else parameters (unit = 0x4C) rest + 1

/-- The number of values which a call takes from the stack. -/
def argumentCount (descriptor : JString) : ℕ :=
  parameters false (descriptor.drop 1)

example : argumentCount (ascii ['(', 'I', '[', 'L', 'a', ';', 'J', ')', 'V']) = 3 := by
  decide

/-! ## Running a method -/

universe u v

variable {V : Type u} {H : Type v}

/-- A call with its arguments. -/
structure Call (V : Type u) where
  owner : JString
  name : JString
  descriptor : JString
  arguments : List V
deriving DecidableEq, Repr

inductive Invoked (V : Type u) (H : Type v) where
  | returned (value : Option V) (heap : H)
  | threw (exception : V) (heap : H)

/-- What an instruction of the machine does. -/
inductive Effect (V : Type u) where
  | next (stack locals : List V)
  | jump (target : Label) (stack : List V)
  | threw (exception : V)
  | returned (value : Option V)

structure Machine (V : Type u) (H : Type v) where
  /-- The reference to a string constant. -/
  string : JString → V
  /-- The class is found. -/
  provides : JString → Bool
  noClassDefFoundError : JString → V
  invoke : Call V → H → Invoked V H
  /-- The instructions which are not executed here, with the calls which they lead to; some do not
  go on. -/
  effect : Instruction → List V → List V → H → Option (Effect V × H × List (Call V))
  isInstance : V → JString → Bool

structure Frame (V : Type u) (H : Type v) where
  pc : ℕ
  stack : List V
  locals : List V
  heap : H
  calls : List (Call V)

inductive State (V : Type u) (H : Type v) where
  | running (frame : Frame V H)
  | returned (value : Option V) (heap : H) (calls : List (Call V))
  | threw (exception : V) (heap : H) (calls : List (Call V))
  | stuck

/-- The position of the next instruction, if the method has not ended. -/
def State.pc : State V H → Option ℕ
  | .running frame => some frame.pc
  | _ => none

def State.calls : State V H → List (Call V)
  | .running frame => frame.calls
  | .returned _ _ calls => calls
  | .threw _ _ calls => calls
  | .stuck => []

section Steps

variable (machine : Machine V H) (code : Code)

def Code.position (label : Label) : Option ℕ :=
  code.instructions.findIdx? fun instruction => instruction = .label label

def Code.covers (block : TryCatchBlock) (pc : ℕ) : Bool :=
  match code.position block.start, code.position block.finish with
  | some start, some finish => start ≤ pc && pc < finish
  | _, _ => false

def Machine.catches (block : TryCatchBlock) (exception : V) : Bool :=
  match block.type with
  | none => true
  | some type => machine.isInstance exception type

/-- The first block which catches the exception goes on with it, if there is one. -/
def raise (frame : Frame V H) (exception : V) : State V H :=
  match code.tryCatchBlocks.find? fun block =>
      code.covers block frame.pc && machine.catches block exception with
  | none => .threw exception frame.heap frame.calls
  | some block =>
      match code.position block.handler with
      | none => .stuck
      | some pc => .running { frame with pc := pc, stack := [exception] }

def callStatic (frame : Frame V H) (owner name descriptor : JString) : State V H :=
  let count := argumentCount descriptor
  if frame.stack.length < count then .stuck
  else if !machine.provides owner then
    raise machine code frame (machine.noClassDefFoundError owner)
  else
    let call := Call.mk owner name descriptor (frame.stack.take count).reverse
    let calls := frame.calls ++ [call]
    match machine.invoke call frame.heap with
    | .returned value heap =>
        .running { frame with
          pc := frame.pc + 1
          stack := value.toList ++ frame.stack.drop count
          heap := heap
          calls := calls }
    | .threw exception heap =>
        raise machine code { frame with heap := heap, calls := calls } exception

def callMachine (frame : Frame V H) (instruction : Instruction) : State V H :=
  match machine.effect instruction frame.stack frame.locals frame.heap with
  | none => .stuck
  | some (effect, heap, calls) =>
      let after := { frame with heap := heap, calls := frame.calls ++ calls }
      match effect with
      | .next stack locals =>
          .running { after with pc := frame.pc + 1, stack := stack, locals := locals }
      | .jump target stack =>
          match code.position target with
          | none => .stuck
          | some pc => .running { after with pc := pc, stack := stack }
      | .threw exception => raise machine code after exception
      | .returned value => .returned value heap after.calls

def execute (frame : Frame V H) : Instruction → State V H
  | .label _ => .running { frame with pc := frame.pc + 1 }
  | .ldcInsn (.string value) =>
      .running { frame with pc := frame.pc + 1, stack := machine.string value :: frame.stack }
  | .insn opcode =>
      if opcode = pop then
        match frame.stack with
        | [] => .stuck
        | _ :: stack => .running { frame with pc := frame.pc + 1, stack := stack }
      else callMachine machine code frame (.insn opcode)
  | .methodInsn opcode owner name descriptor isInterface =>
      if opcode = invokeStatic then callStatic machine code frame owner name descriptor
      else callMachine machine code frame (.methodInsn opcode owner name descriptor isInterface)
  | instruction => callMachine machine code frame instruction

def step : State V H → State V H
  | .running frame =>
      match code.instructions[frame.pc]? with
      | none => .stuck
      | some instruction => execute machine code frame instruction
  | state => state

def run (count : ℕ) (state : State V H) : State V H :=
  (step machine code)^[count] state

/-- A method starts with its arguments in its local variables. -/
def start (arguments : List V) (heap : H) : State V H :=
  .running { pc := 0, stack := [], locals := arguments, heap := heap, calls := [] }

end Steps

theorem run_succ (machine : Machine V H) (code : Code) (count : ℕ) (state : State V H) :
    run machine code (count + 1) state = step machine code (run machine code count state) :=
  Function.iterate_succ_apply' _ _ _

theorem run_add (machine : Machine V H) (code : Code) (first second : ℕ) (state : State V H) :
    run machine code (first + second) state =
      run machine code second (run machine code first state) := by
  unfold run
  rw [Nat.add_comm, Function.iterate_add_apply]

/-! ## Instructions in front -/

def Code.after (code : Code) (inserted : List Instruction) : Code :=
  { code with instructions := inserted ++ code.instructions }

/-- The same moment of a run which has something behind it. -/
def Frame.after (frame : Frame V H) (offset : ℕ) (earlier : List (Call V)) : Frame V H :=
  { frame with pc := frame.pc + offset, calls := earlier ++ frame.calls }

def State.after (offset : ℕ) (earlier : List (Call V)) : State V H → State V H
  | .running frame => .running (frame.after offset earlier)
  | .returned value heap calls => .returned value heap (earlier ++ calls)
  | .threw exception heap calls => .threw exception heap (earlier ++ calls)
  | .stuck => .stuck

section Inserted

variable {machine : Machine V H} {code : Code} {inserted : List Instruction}

theorem position_after (plain : ∀ label, .label label ∉ inserted) (label : Label) :
    (code.after inserted).position label =
      (code.position label).map (· + inserted.length) := by
  unfold Code.position Code.after
  rw [List.findIdx?_append]
  have absent : inserted.findIdx? (fun instruction => instruction = .label label) = none := by
    rw [List.findIdx?_eq_none_iff]
    intro instruction among
    apply decide_eq_false
    rintro rfl
    exact plain label among
  rw [absent, Option.none_or]

theorem covers_after (plain : ∀ label, .label label ∉ inserted) (block : TryCatchBlock)
    (pc : ℕ) :
    (code.after inserted).covers block (pc + inserted.length) = code.covers block pc := by
  unfold Code.covers
  rw [position_after plain, position_after plain]
  cases code.position block.start with
  | none => rfl
  | some start =>
      cases code.position block.finish with
      | none => rfl
      | some finish => simp

theorem not_covers_inserted (plain : ∀ label, .label label ∉ inserted) (block : TryCatchBlock)
    {pc : ℕ} (within : pc < inserted.length) : (code.after inserted).covers block pc = false := by
  unfold Code.covers
  rw [position_after plain, position_after plain]
  cases code.position block.start with
  | none => rfl
  | some start =>
      cases code.position block.finish with
      | none => rfl
      | some finish =>
          simp only [Option.map_some, Bool.and_eq_false_iff, decide_eq_false_iff_not]
          omega

theorem raise_after (plain : ∀ label, .label label ∉ inserted) (frame : Frame V H)
    (exception : V) (earlier : List (Call V)) :
    raise machine (code.after inserted) (frame.after inserted.length earlier) exception =
      (raise machine code frame exception).after inserted.length earlier := by
  unfold raise
  have same : ((code.after inserted).tryCatchBlocks.find? fun block =>
      (code.after inserted).covers block (frame.after inserted.length earlier).pc &&
        machine.catches block exception) =
      code.tryCatchBlocks.find? fun block =>
        code.covers block frame.pc && machine.catches block exception := by
    congr 1
    funext block
    rw [Frame.after, covers_after plain]
  rw [same]
  split
  · rfl
  · next block _ =>
      rw [position_after plain]
      cases code.position block.handler <;> rfl

theorem callStatic_after (plain : ∀ label, .label label ∉ inserted) (frame : Frame V H)
    (owner name descriptor : JString) (earlier : List (Call V)) :
    callStatic machine (code.after inserted) (frame.after inserted.length earlier) owner name
        descriptor =
      (callStatic machine code frame owner name descriptor).after inserted.length earlier := by
  unfold callStatic
  simp only [Frame.after, List.append_assoc]
  by_cases few : frame.stack.length < argumentCount descriptor
  · simp only [if_pos few]
    rfl
  · by_cases missing : (!machine.provides owner) = true
    · simp only [if_neg few, if_pos missing]
      exact raise_after plain frame _ earlier
    · simp only [if_neg few, if_neg missing]
      generalize machine.invoke _ _ = invoked
      cases invoked with
      | returned value heap => simp [State.after, Frame.after, Nat.add_right_comm]
      | threw exception heap =>
          exact raise_after plain { frame with heap := heap, calls := _ } exception earlier

theorem callMachine_after (plain : ∀ label, .label label ∉ inserted) (frame : Frame V H)
    (instruction : Instruction) (earlier : List (Call V)) :
    callMachine machine (code.after inserted) (frame.after inserted.length earlier) instruction =
      (callMachine machine code frame instruction).after inserted.length earlier := by
  unfold callMachine
  simp only [Frame.after]
  cases machine.effect instruction frame.stack frame.locals frame.heap with
  | none => rfl
  | some result =>
      rcases result with ⟨effect, heap, calls⟩
      simp only [List.append_assoc]
      cases effect with
      | next stack locals => simp [State.after, Frame.after, Nat.add_right_comm]
      | jump target stack =>
          simp only [position_after plain]
          cases code.position target <;> rfl
      | threw exception =>
          exact raise_after plain { frame with heap := heap, calls := _ } exception earlier
      | returned value => rfl

theorem execute_after (plain : ∀ label, .label label ∉ inserted) (frame : Frame V H)
    (instruction : Instruction) (earlier : List (Call V)) :
    execute machine (code.after inserted) (frame.after inserted.length earlier) instruction =
      (execute machine code frame instruction).after inserted.length earlier := by
  have other : callMachine machine (code.after inserted) (frame.after inserted.length earlier)
      instruction = (callMachine machine code frame instruction).after inserted.length earlier :=
    callMachine_after plain frame instruction earlier
  cases instruction with
  | label label => simp [execute, State.after, Frame.after, Nat.add_right_comm]
  | ldcInsn constant =>
      cases constant with
      | string value => simp [execute, State.after, Frame.after, Nat.add_right_comm]
      | _ => exact other
  | insn opcode =>
      unfold execute
      by_cases isPop : opcode = pop
      · simp only [if_pos isPop, Frame.after]
        cases frame.stack with
        | nil => rfl
        | cons value stack => simp [State.after, Frame.after, Nat.add_right_comm]
      · simp only [if_neg isPop]
        exact other
  | methodInsn opcode owner name descriptor isInterface =>
      unfold execute
      by_cases isStatic : opcode = invokeStatic
      · simp only [if_pos isStatic]
        exact callStatic_after plain frame owner name descriptor earlier
      · simp only [if_neg isStatic]
        exact other
  | _ => exact other

/-- One step of the body is the same step behind the inserted instructions. -/
theorem step_after (plain : ∀ label, .label label ∉ inserted) (state : State V H)
    (earlier : List (Call V)) :
    step machine (code.after inserted) (state.after inserted.length earlier) =
      (step machine code state).after inserted.length earlier := by
  cases state with
  | running frame =>
      have here : (code.after inserted).instructions[(frame.after inserted.length earlier).pc]? =
          code.instructions[frame.pc]? := by
        unfold Code.after Frame.after
        rw [List.getElem?_append_right (Nat.le_add_left _ _), Nat.add_sub_cancel]
      simp only [State.after, step, here]
      cases code.instructions[frame.pc]? with
      | none => rfl
      | some instruction => exact execute_after plain frame instruction earlier
  | returned => rfl
  | threw => rfl
  | stuck => rfl

theorem run_after (plain : ∀ label, .label label ∉ inserted) (count : ℕ) (state : State V H)
    (earlier : List (Call V)) :
    run machine (code.after inserted) count (state.after inserted.length earlier) =
      (run machine code count state).after inserted.length earlier := by
  induction count with
  | zero => rfl
  | succ count ih => rw [run_succ, ih, step_after plain, run_succ]

end Inserted

end AndroidCollection.Java.Bytecode
