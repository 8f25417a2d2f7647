import AndroidCollection.Lib.LabelledSystem
import Mathlib.Algebra.Ring.Nat
import Mathlib.Data.List.Basic
import Mathlib.Logic.Function.Basic

/-!
# Hooks of GOT slots

A GOT slot which is hooked points to a trampoline. The trampoline looks up the run list of its
id, the original function first and the newest hook last, and calls the last of it; each
hook calls the one before it through `get_previous_from_hook`.

Whoever modifies slots holds a lock, but callers do not: the steps of one modification and
the steps of the calling threads interleave. A run list is read and changed under locks, in
one step. Memory of code is not modelled; a pointer to a trampoline is its id.
-/

universe u v

namespace AndroidCollection.Linker

abbrev HookId :=
  UInt32

abbrev Address :=
  UInt32

inductive Pointer (φ : Type u) where
  | null
  | function (function : φ)
  | trampoline (id : HookId)
deriving DecidableEq

structure HookInfo (φ : Type u) where
  outId : HookId
  gotAddress : Address
  newFunction : Pointer φ
  previousFunction : Pointer φ

inductive HookResult where
  | wrongHookInfo
  | newHook
  | alreadyHookedAppended
  | removedStillHooked
  | removedTrivial
  | removedFully
deriving DecidableEq

structure InternalHookInfo (φ : Type u) where
  id : HookId
  gotAddress : Address
  hooks : List (Pointer φ)

/-- The infos which were ever made, in their order; a shared pointer is an index. -/
structure Globals (φ : Type u) where
  infos : List (InternalHookInfo φ)
  hooksById : HookId → Option ℕ
  hooksByGotAddress : Address → Option ℕ
  nextId : HookId

namespace Globals

variable {φ : Type u}

def init : Globals φ where
  infos := []
  hooksById _ := none
  hooksByGotAddress _ := none
  nextId := 1

def isHooked (globals : Globals φ) (address : Address) : Bool :=
  (globals.hooksByGotAddress address).isSome

def listSize (globals : Globals φ) (id : HookId) : Int :=
  match (globals.hooksById id).bind (globals.infos[·]?) with
  | none => -1
  | some info => info.hooks.length

def getRunList (globals : Globals φ) (id : HookId) : List (Pointer φ) :=
  match (globals.hooksById id).bind (globals.infos[·]?) with
  | none => []
  | some info => info.hooks

def setHooks (globals : Globals φ) (index : ℕ) (hooks : List (Pointer φ) → List (Pointer φ)) :
    Globals φ :=
  { globals with infos := globals.infos.modify index fun info =>
      { info with hooks := hooks info.hooks } }

variable [DecidableEq φ]

/-- `emplace`, which does not replace an entry. -/
def emplace {κ : Type*} [DecidableEq κ] (map : κ → Option ℕ) (key : κ) (index : ℕ) :
    κ → Option ℕ :=
  match map key with
  | some _ => map
  | none => Function.update map key (some index)

def add (globals : Globals φ) (info : HookInfo φ) : HookResult × HookInfo φ × Globals φ :=
  if info.previousFunction = .null ∨ info.newFunction = .null ∨ info.gotAddress = 0 then
    (.wrongHookInfo, info, globals)
  else
    match globals.hooksByGotAddress info.gotAddress with
    | some index =>
        (.alreadyHookedAppended, info, globals.setHooks index (· ++ [info.newFunction]))
    | none =>
        let id := globals.nextId
        (.newHook, { info with outId := id },
          { infos := globals.infos ++
              [⟨id, info.gotAddress, [info.previousFunction, info.newFunction]⟩]
            hooksById := emplace globals.hooksById id globals.infos.length
            hooksByGotAddress :=
              emplace globals.hooksByGotAddress info.gotAddress globals.infos.length
            nextId := id + 1 })

def remove (globals : Globals φ) (info : HookInfo φ) : HookResult × HookInfo φ × Globals φ :=
  if info.newFunction = .null ∨ info.gotAddress = 0 then (.wrongHookInfo, info, globals)
  else
    match globals.hooksByGotAddress info.gotAddress with
    | none => (.wrongHookInfo, info, globals)
    | some index =>
        match globals.infos[index]? with
        | none => (.wrongHookInfo, info, globals)
        | some internal =>
            if internal.hooks.length = 1 then
              if internal.hooks.head? ≠ some info.newFunction then (.wrongHookInfo, info, globals)
              else
                -- Another thread may be entering the trampoline, so its id stays known.
                (.removedFully, info, { globals with
                  hooksByGotAddress :=
                    Function.update globals.hooksByGotAddress info.gotAddress none })
            else if info.newFunction ∉ internal.hooks then (.wrongHookInfo, info, globals)
            else if internal.hooks.head? = some info.newFunction then
              (.wrongHookInfo, info, globals)
            else
              let hooks := internal.hooks.erase info.newFunction
              (if hooks.length = 1 then .removedTrivial else .removedStillHooked,
                { info with previousFunction := hooks.head?.getD .null },
                globals.setHooks index fun _ => hooks)

end Globals

/-! ## Modifications and calls -/

/-- What the one with `g_got_modification_lock` does next. -/
inductive Modification (φ : Type u) where
  | idle
  | patching (address : Address) (id : HookId)
  | restoring (address : Address) (original : Pointer φ)
  | forgetting (address : Address) (original : Pointer φ)
deriving DecidableEq

inductive Abort where
  /-- "Run list for trampoline is empty" -/
  | emptyRunList
  /-- "CALL_PREV call outside of an active hook" -/
  | outsideHook
  /-- "CALL_PREV call by original function?!" -/
  | byOriginal
  /-- "CALL_PREV call by an unknown hook? How did we get here?" -/
  | byUnknown
  /-- "Unable to unhook GOT slot" -/
  | unableToUnhook
  /-- "GOT slot modified while we were working on it" -/
  | slotModified
deriving DecidableEq

structure TrampolineHookInfo (φ : Type u) where
  id : HookId
  returnAddress : Address
  runList : List (Pointer φ)

/-- A thread has loaded the id of a trampoline from a slot. -/
structure Entering where
  slot : Address
  id : HookId
  returnAddress : Address

structure Process (φ : Type u) (τ : Type v) where
  globals : Globals φ
  got : Address → Pointer φ
  modification : Modification φ
  entering : τ → Option Entering
  hookStack : τ → List (TrampolineHookInfo φ)
  aborted : Option Abort

inductive LinkerEvent (φ : Type u) where
  | hooked (address : Address) (hook : Pointer φ)
  | unhooked (address : Address) (hook : Pointer φ)
  /-- The slot of a new hook could not be written. -/
  | unpatched (address : Address)

inductive LinkerInput (φ : Type u) (τ : Type v) where
  | hook (address : Address) (hook : Pointer φ)
  | unhook (address : Address) (hook : Pointer φ)
  /-- The modification goes on; a slot is written or not. -/
  | modify (writes : Bool)
  | call (thread : τ) (slot : Address) (returnAddress : Address)
  | push (thread : τ)
  | previous (thread : τ) (hook : Pointer φ)
  | pop (thread : τ)

/-- `get_previous_from_hook` for the run list of the active hook. -/
def previousFromHook {φ : Type u} [DecidableEq φ] (runList : List (Pointer φ)) (hook : Pointer φ) :
    Except Abort (Pointer φ) :=
  match runList.findIdx? (· = hook) with
  | none => .error .byUnknown
  | some 0 => .error .byOriginal
  | some (index + 1) => .ok (runList.getD index .null)

namespace Process

variable {φ : Type u} {τ : Type v}

def init (got : Address → Pointer φ) : Process φ τ where
  globals := .init
  got := got
  modification := .idle
  entering _ := none
  hookStack _ := []
  aborted := none

variable [DecidableEq φ]

/-- `patch_relocation_address_for_hook`, up to the trampoline. -/
def hook (process : Process φ τ) (address : Address) (hook : Pointer φ) :
    Option (LinkerEvent φ) × Process φ τ :=
  match process.globals.add ⟨0, address, hook, process.got address⟩ with
  | (.alreadyHookedAppended, _, globals) =>
      (some (.hooked address hook), { process with globals := globals })
  | (.newHook, info, globals) =>
      (some (.hooked address hook),
        { process with globals := globals, modification := .patching address info.outId })
  | _ => (none, process)

/-- A slot in `unhook_single_lib`, up to the first removal. -/
def unhook (process : Process φ τ) (address : Address) (hook : Pointer φ) :
    Option (LinkerEvent φ) × Process φ τ :=
  if process.globals.isHooked address then
    match process.globals.remove ⟨0, address, hook, .null⟩ with
    | (.removedStillHooked, _, globals) =>
        (some (.unhooked address hook), { process with globals := globals })
    | (.removedTrivial, info, globals) =>
        (some (.unhooked address hook), { process with
          globals := globals
          modification := .restoring address info.previousFunction })
    | _ => (none, process)
  else (none, process)

def abort (process : Process φ τ) (reason : Abort) : Process φ τ :=
  { process with aborted := some reason }

def modify (process : Process φ τ) (writes : Bool) :
    Option (Option (LinkerEvent φ) × Process φ τ) :=
  match process.modification with
  | .idle => none
  | .patching address id =>
      if writes then
        some (none, { process with
          got := Function.update process.got address (.trampoline id)
          modification := .idle })
      else some (some (.unpatched address), { process with modification := .idle })
  | .restoring address original =>
      if writes then
        some (none, { process with
          got := Function.update process.got address original
          modification := .forgetting address original })
      else some (none, process.abort .unableToUnhook)
  | .forgetting address original =>
      match process.globals.remove ⟨0, address, original, .null⟩ with
      | (.removedFully, _, globals) =>
          some (none, { process with globals := globals, modification := .idle })
      | _ => some (none, process.abort .slotModified)

variable [DecidableEq τ]

omit [DecidableEq φ] in
/-- `push_hook_stack`. -/
def pushHookStack (process : Process φ τ) (thread : τ) : Option (Process φ τ) :=
  match process.entering thread with
  | none => none
  | some entering =>
      match process.globals.getRunList entering.id with
      | [] => some (process.abort .emptyRunList)
      | first :: rest =>
          some { process with
            entering := Function.update process.entering thread none
            hookStack := Function.update process.hookStack thread
              (⟨entering.id, entering.returnAddress, first :: rest⟩ :: process.hookStack thread) }

omit [DecidableEq τ] in
def getPreviousFromHook (process : Process φ τ) (thread : τ) (hook : Pointer φ) : Process φ τ :=
  match process.hookStack thread with
  | [] => process.abort .outsideHook
  | info :: _ =>
      match previousFromHook info.runList hook with
      | .error reason => process.abort reason
      | .ok _ => process

/-- The one with the lock modifies alone; a process which has aborted does nothing. -/
def react (process : Process φ τ) :
    LinkerInput φ τ → Option (Option (LinkerEvent φ) × Process φ τ)
  | .hook address hook =>
      if process.aborted = none ∧ process.modification = .idle then
        some (process.hook address hook)
      else none
  | .unhook address hook =>
      if process.aborted = none ∧ process.modification = .idle then
        some (process.unhook address hook)
      else none
  | .modify writes => if process.aborted = none then process.modify writes else none
  | .call thread slot returnAddress =>
      if process.aborted = none ∧ (process.entering thread).isNone then
        match process.got slot with
        | .trampoline id =>
            some (none, { process with
              entering :=
                Function.update process.entering thread (some ⟨slot, id, returnAddress⟩) })
        | _ => some (none, process)
      else none
  | .push thread =>
      if process.aborted = none then (process.pushHookStack thread).map fun next => (none, next)
      else none
  | .previous thread hook =>
      if process.aborted = none then some (none, process.getPreviousFromHook thread hook) else none
  | .pop thread =>
      match process.hookStack thread with
      | [] => none
      | _ :: rest =>
          if process.aborted = none then
            some (none, { process with
              hookStack := Function.update process.hookStack thread rest })
          else none

end Process

/-- Every hook that was ever new got an id of its own. -/
def IdsFit {φ : Type u} {τ : Type v} (process : Process φ τ) : Prop :=
  process.globals.infos.length < 2 ^ 32

def linkerSystem (φ : Type u) (τ : Type v) [DecidableEq φ] [DecidableEq τ]
    (got : Address → Pointer φ) : LabelledSystem (LinkerEvent φ) (Process φ τ) :=
  LabelledSystem.within
    { initial := fun process => process = Process.init got
      step := fun process label next => ∃ input, process.react input = some (label, next) } IdsFit

instance {φ : Type u} {τ : Type v} : DecidablePred (IdsFit : Process φ τ → Prop) := fun process =>
  inferInstanceAs (Decidable (process.globals.infos.length < 2 ^ 32))

theorem realizes_linkerSystem {φ : Type u} {τ : Type v} [DecidableEq φ] [DecidableEq τ]
    {got : Address → Pointer φ} :
    (linkerSystem φ τ got).Realizes (LabelledSystem.restrict Process.react IdsFit) := by
  refine LabelledSystem.Realizes.restrict ?_ IdsFit
  exact fun _ input _ _ reacts => ⟨input, reacts⟩

end AndroidCollection.Linker
