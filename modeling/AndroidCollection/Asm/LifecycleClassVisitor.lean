import AndroidCollection.Java.Bytecode

/-!
# Instrumenting lifecycle methods

The class visitor stands between a class reader and a class writer. It passes on
everything, and for the methods which it selects it gives the code to a method
visitor, which inserts four instructions where the code begins. A method without
code never comes to that point.
-/

namespace AndroidCollection.Asm

open Java Bytecode

structure Method where
  access : ℕ
  name : JString
  descriptor : JString
  signature : Option JString
  exceptions : List JString
  code : Option Code
deriving DecidableEq, Repr

structure ClassFile where
  version : ℕ
  access : ℕ
  name : JString
  signature : Option JString
  superName : Option JString
  interfaces : List JString
  methods : List Method
deriving DecidableEq, Repr

/-- `Opcodes.ACC_PROTECTED`. -/
def accProtected : ℕ := 4

/-- `Opcodes.ACC_STATIC`. -/
def accStatic : ℕ := 8

def targetDescriptor : JString :=
  ascii ['(', 'L', 'a', 'n', 'd', 'r', 'o', 'i', 'd', '/', 'o', 's', '/', 'B', 'u', 'n', 'd', 'l',
    'e', ';', ')', 'V']

def targetName : JString :=
  ascii ['o', 'n', 'C', 'r', 'e', 'a', 't', 'e']

/-- The class whose method is called. -/
def logOwner : JString :=
  ascii ['a', 'n', 'd', 'o', 'r', 'i', 'd', '/', 'u', 't', 'i', 'l', '/', 'L', 'o', 'g']

def logName : JString :=
  ascii ['i']

def logDescriptor : JString :=
  ascii ['(', 'L', 'j', 'a', 'v', 'a', '/', 'l', 'a', 'n', 'g', '/', 'S', 't', 'r', 'i', 'n', 'g',
    ';', 'L', 'j', 'a', 'v', 'a', '/', 'l', 'a', 'n', 'g', '/', 'S', 't', 'r', 'i', 'n', 'g', ';',
    ')', 'I']

structure LifecycleMethodVisitor where
  className : JString
  methodName : JString

namespace LifecycleMethodVisitor

variable (visitor : LifecycleMethodVisitor)

def tag : JString :=
  ascii ['T', 'A', 'G']

def message : JString :=
  visitor.className ++ ascii ['-', '-', '-', '>'] ++ visitor.methodName

/-- What is passed on before the first instruction. -/
def visitCode : List Instruction :=
  [.ldcInsn (.string tag),
    .ldcInsn (.string visitor.message),
    .methodInsn invokeStatic logOwner logName logDescriptor false,
    .insn pop]

end LifecycleMethodVisitor

structure LifecycleClassVisitor where
  className : JString
  superClassName : Option JString

namespace LifecycleClassVisitor

def visit (read : ClassFile) : LifecycleClassVisitor where
  className := read.name
  superClassName := read.superName

/-- No result stands for the method visitor of the class writer. -/
def visitMethod (visitor : LifecycleClassVisitor) (access : ℕ) (name descriptor : JString) :
    Option LifecycleMethodVisitor :=
  if accProtected = access ∧ targetName = name ∧ targetDescriptor = descriptor then
    some { className := visitor.className, methodName := name }
  else none

end LifecycleClassVisitor

/-- What is written for a method. -/
def Method.write (method : Method) : Option LifecycleMethodVisitor → Method
  | none => method
  | some visitor =>
      { method with code := method.code.map fun code => code.after visitor.visitCode }

theorem write_none {method : Method} (none' : method.code = none)
    (visitor : Option LifecycleMethodVisitor) : method.write visitor = method := by
  cases method
  cases none'
  cases visitor <;> rfl

/-- `classReader.accept`, and what the class writer has then. -/
def instrument (read : ClassFile) : ClassFile :=
  { read with methods := read.methods.map fun method =>
      method.write ((LifecycleClassVisitor.visit read).visitMethod method.access method.name
        method.descriptor) }

end AndroidCollection.Asm
