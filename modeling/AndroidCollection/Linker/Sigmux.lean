import AndroidCollection.Lib.GracePeriod
import AndroidCollection.Lib.LinkedRing
import Mathlib.Data.Finset.Basic

/-!
# The signal multiplexer

`sigmux` keeps its registrations in a ring whose sentinel is `sigmux_global.handlers`. Those
who register and unregister take turns by a mutex, but a signal handler walks through the
ring without it, inside a critical section of a phaser. Each access to shared memory is a
step; the steps of all handlings and of all owners of registrations interleave. A node which
is read or assigned while it is not allocated is a fault.

The phaser is not part of this model. The events of entering, exiting and draining are
labels, which a phaser takes together with the multiplexer. What `sigmux_sigaction`
exchanges is left out, but not that it holds the mutex and drains.
-/

universe u v w

namespace AndroidCollection.Linker

open GracePeriod (Event)

def SIGMUX_LOW_PRIORITY : UInt32 :=
  (1 : UInt32) <<< 0

def SIGMUX_HANDLE_SIGNAL_NORMAL_PRIORITY : UInt32 :=
  (1 : UInt32) <<< 0

def SIGMUX_HANDLE_SIGNAL_LOW_PRIORITY : UInt32 :=
  (1 : UInt32) <<< 1

inductive SigmuxAction where
  | continueSearch
  | continueExecution
deriving DecidableEq

/-- A `sigmux_registration`; `none` is the sentinel. The handler includes its data. -/
structure Registration (ρ : Type v) (η : Type w) where
  prev : Option ρ
  next : Option ρ
  signals : Finset ℕ
  handler : η
  flags : UInt32

/-- What the owner of a registration does next in `sigmux_register` or `sigmux_unregister`. -/
inductive Stage where
  | absent
  /-- Allocated, and waiting for the mutex. -/
  | allocated
  | linking
  | settingBack
  | publishing
  | unlockingNew
  | registered
  /-- `sigmux_unregister` waits for the mutex. -/
  | leaving
  | bypassing
  | unhooking
  | startingDrain
  | draining
  | unlocking
  | freeing
deriving DecidableEq

/-- Who has the mutex; the last three are the stages of `sigmux_sigaction`. -/
inductive Holder (ρ : Type v) where
  | nobody
  | owner (registration : ρ)
  | exchanging
  | draining
  | drained
deriving DecidableEq

structure Request where
  signum : ℕ
  flags : UInt32
deriving DecidableEq

/-- The loop over the registrations of normal priority, and that over those of low priority. -/
inductive Pass where
  | normal
  | low
deriving DecidableEq

/-- What a call of `sigmux_handle_signal` does next. -/
inductive Handling (ρ : Type v) where
  | outside
  | entering (request : Request)
  | loading (request : Request)
  | scanning (request : Request) (reglist : Option ρ) (pass : Pass) (it : Option ρ)
  | calling (request : Request) (reglist : Option ρ) (pass : Pass) (it : ρ)
  | advancing (request : Request) (reglist : Option ρ) (pass : Pass) (it : ρ)
      (action : SigmuxAction)
  | exiting (request : Request) (action : SigmuxAction)
deriving DecidableEq

/-- The calls of the handlers are recorded. -/
structure Sigmux (α : Type u) (ρ : Type v) (η : Type w) where
  memory : ρ → Option (Registration ρ η)
  first : Option ρ
  last : Option ρ
  holder : Holder ρ
  stage : ρ → Stage
  handling : α → Handling ρ
  calls : α → List ρ
  fault : Bool

inductive SigmuxInput (α : Type u) (ρ : Type v) (η : Type w) where
  | signal (activity : α) (request : Request)
  | enter (activity : α)
  | run (activity : α)
  /-- The handler returns. -/
  | answer (activity : α) (action : SigmuxAction)
  /-- The handler calls `sigmux_longjmp`. -/
  | longjmp (activity : α)
  | exit (activity : α)
  | register (registration : ρ) (signals : Finset ℕ) (handler : η) (flags : UInt32)
  | unregister (registration : ρ)
  | work (registration : ρ)
  | sigaction

def Request.Wants (request : Request) : Pass → Prop
  | .normal => request.flags &&& SIGMUX_HANDLE_SIGNAL_NORMAL_PRIORITY ≠ 0
  | .low => request.flags &&& SIGMUX_HANDLE_SIGNAL_LOW_PRIORITY ≠ 0

instance (request : Request) (pass : Pass) : Decidable (request.Wants pass) :=
  match pass with
  | .normal => inferInstanceAs (Decidable (_ ≠ _))
  | .low => inferInstanceAs (Decidable (_ ≠ _))

namespace Registration

variable {ρ : Type v} {η : Type w}

def pass (registration : Registration ρ η) : Pass :=
  if registration.flags &&& SIGMUX_LOW_PRIORITY = 0 then .normal else .low

end Registration

namespace Handling

variable {ρ : Type v}

def startLow (request : Request) (reglist : Option ρ) : Handling ρ :=
  if request.Wants .low then .scanning request reglist .low reglist
  else .exiting request .continueSearch

def startNormal (request : Request) (reglist : Option ρ) : Handling ρ :=
  if request.Wants .normal then .scanning request reglist .normal reglist
  else startLow request reglist

/-- The loop has come to the sentinel. -/
def passed (request : Request) (reglist : Option ρ) : Pass → Handling ρ
  | .normal => startLow request reglist
  | .low => .exiting request .continueSearch

end Handling

namespace Sigmux

variable {α : Type u} {ρ : Type v} {η : Type w}

def init : Sigmux α ρ η where
  memory _ := none
  first := none
  last := none
  holder := .nobody
  stage _ := .absent
  handling _ := .outside
  calls _ := []
  fault := false

def next (sigmux : Sigmux α ρ η) : Option ρ → Option ρ
  | none => sigmux.first
  | some registration => (sigmux.memory registration).bind Registration.next

def prev (sigmux : Sigmux α ρ η) : Option ρ → Option ρ
  | none => sigmux.last
  | some registration => (sigmux.memory registration).bind Registration.prev

variable [DecidableEq ρ]

def update (sigmux : Sigmux α ρ η) (registration : ρ)
    (change : Registration ρ η → Registration ρ η) : Sigmux α ρ η :=
  match sigmux.memory registration with
  | some node =>
      { sigmux with memory := Function.update sigmux.memory registration (some (change node)) }
  | none => { sigmux with fault := true }

def setNext (sigmux : Sigmux α ρ η) (node target : Option ρ) : Sigmux α ρ η :=
  match node with
  | none => { sigmux with first := target }
  | some registration => sigmux.update registration fun node => { node with next := target }

def setPrev (sigmux : Sigmux α ρ η) (node target : Option ρ) : Sigmux α ρ η :=
  match node with
  | none => { sigmux with last := target }
  | some registration => sigmux.update registration fun node => { node with prev := target }

def setStage (sigmux : Sigmux α ρ η) (registration : ρ) (stage : Stage) : Sigmux α ρ η :=
  { sigmux with stage := Function.update sigmux.stage registration stage }

/-- `calloc`, and the assignments to the fields before the mutex is taken. -/
def sigmuxRegister (sigmux : Sigmux α ρ η) (registration : ρ) (signals : Finset ℕ) (handler : η)
    (flags : UInt32) : Option (Sigmux α ρ η) :=
  if sigmux.stage registration = .absent then
    some { sigmux.setStage registration .allocated with
      memory := Function.update sigmux.memory registration
        (some ⟨none, none, signals, handler, flags⟩) }
  else none

def lock (sigmux : Sigmux α ρ η) (registration : ρ) (stage : Stage) : Option (Sigmux α ρ η) :=
  match sigmux.holder with
  | .nobody => some { sigmux.setStage registration stage with holder := .owner registration }
  | _ => none

/-- The next step of the owner of a registration. -/
def work (sigmux : Sigmux α ρ η) (registration : ρ) :
    Option (Option (Event α) × Sigmux α ρ η) :=
  match sigmux.stage registration with
  | .absent => none
  | .allocated => (sigmux.lock registration .linking).map fun next => (none, next)
  -- Nobody else reads the links of a node which is not yet published.
  | .linking =>
      some (none, ((sigmux.setNext (some registration) (sigmux.next none)).setPrev
        (some registration) none).setStage registration .settingBack)
  | .settingBack =>
      some (none, (sigmux.setPrev (sigmux.next (some registration)) (some registration)).setStage
        registration .publishing)
  | .publishing =>
      some (none, (sigmux.setNext none (some registration)).setStage registration .unlockingNew)
  | .unlockingNew =>
      some (none, { sigmux.setStage registration .registered with holder := .nobody })
  | .registered => none
  | .leaving => (sigmux.lock registration .bypassing).map fun next => (none, next)
  | .bypassing =>
      some (none, (sigmux.setNext (sigmux.prev (some registration))
        (sigmux.next (some registration))).setStage registration .unhooking)
  | .unhooking =>
      some (none, (sigmux.setPrev (sigmux.next (some registration))
        (sigmux.prev (some registration))).setStage registration .startingDrain)
  | .startingDrain => some (some .drain, sigmux.setStage registration .draining)
  | .draining => some (some .drained, sigmux.setStage registration .unlocking)
  | .unlocking =>
      some (none, { sigmux.setStage registration .freeing with holder := .nobody })
  | .freeing =>
      some (none, { sigmux.setStage registration .absent with
        memory := Function.update sigmux.memory registration none })

def sigmuxUnregister (sigmux : Sigmux α ρ η) (registration : ρ) : Option (Sigmux α ρ η) :=
  if sigmux.stage registration = .registered then some (sigmux.setStage registration .leaving)
  else none

omit [DecidableEq ρ] in
/-- The next step of a call of `sigmux_sigaction`. -/
def sigmuxSigaction (sigmux : Sigmux α ρ η) : Option (Option (Event α) × Sigmux α ρ η) :=
  match sigmux.holder with
  | .nobody => some (none, { sigmux with holder := .exchanging })
  | .owner _ => none
  | .exchanging => some (some .drain, { sigmux with holder := .draining })
  | .draining => some (some .drained, { sigmux with holder := .drained })
  | .drained => some (none, { sigmux with holder := .nobody })

variable [DecidableEq α]

omit [DecidableEq ρ] in
def setHandling (sigmux : Sigmux α ρ η) (activity : α) (handling : Handling ρ) : Sigmux α ρ η :=
  { sigmux with handling := Function.update sigmux.handling activity handling }

omit [DecidableEq ρ] in
def record (sigmux : Sigmux α ρ η) (activity : α) (calls : List ρ) : Sigmux α ρ η :=
  { sigmux with calls := Function.update sigmux.calls activity calls }

omit [DecidableEq ρ] in
/-- The next step of a handling between `phaser_enter` and `phaser_exit`. -/
def run (sigmux : Sigmux α ρ η) (activity : α) : Option (Sigmux α ρ η) :=
  match sigmux.handling activity with
  | .loading request =>
      some (sigmux.setHandling activity (.startNormal request (sigmux.next none)))
  | .scanning request reglist pass none =>
      some (sigmux.setHandling activity (.passed request reglist pass))
  | .scanning request reglist pass (some it) =>
      match sigmux.memory it with
      | none => some { sigmux with fault := true }
      | some node =>
          if node.pass = pass ∧ request.signum ∈ node.signals then
            some ((sigmux.setHandling activity (.calling request reglist pass it)).record activity
              (sigmux.calls activity ++ [it]))
          else
            some (sigmux.setHandling activity
              (.advancing request reglist pass it .continueSearch))
  | .advancing request reglist pass it action =>
      match sigmux.memory it with
      | none => some { sigmux with fault := true }
      | some node =>
          match action with
          | .continueSearch =>
              some (sigmux.setHandling activity (.scanning request reglist pass node.next))
          | .continueExecution => some (sigmux.setHandling activity (.exiting request action))
  | _ => none

def react (sigmux : Sigmux α ρ η) :
    SigmuxInput α ρ η → Option (Option (Event α) × Sigmux α ρ η)
  | .signal activity request =>
      match sigmux.handling activity with
      | .outside =>
          some (none, (sigmux.setHandling activity (.entering request)).record activity [])
      | _ => none
  | .enter activity =>
      match sigmux.handling activity with
      | .entering request =>
          some (some (.enter activity), sigmux.setHandling activity (.loading request))
      | _ => none
  | .run activity => (sigmux.run activity).map fun next => (none, next)
  | .answer activity action =>
      match sigmux.handling activity with
      | .calling request reglist pass it =>
          some (none, sigmux.setHandling activity (.advancing request reglist pass it action))
      | _ => none
  | .longjmp activity =>
      match sigmux.handling activity with
      | .calling _ _ _ _ => some (some (.exit activity), sigmux.setHandling activity .outside)
      | _ => none
  | .exit activity =>
      match sigmux.handling activity with
      | .exiting _ _ => some (some (.exit activity), sigmux.setHandling activity .outside)
      | _ => none
  | .register registration signals handler flags =>
      (sigmux.sigmuxRegister registration signals handler flags).map fun next => (none, next)
  | .unregister registration =>
      (sigmux.sigmuxUnregister registration).map fun next => (none, next)
  | .work registration => sigmux.work registration
  | .sigaction => sigmux.sigmuxSigaction

end Sigmux

def sigmuxSystem (α : Type u) (ρ : Type v) (η : Type w) [DecidableEq α] [DecidableEq ρ] :
    LabelledSystem (Event α) (Sigmux α ρ η) where
  initial sigmux := sigmux = Sigmux.init
  step sigmux label next := ∃ input, sigmux.react input = some (label, next)

theorem realizes_sigmuxSystem {α : Type u} {ρ : Type v} {η : Type w} [DecidableEq α]
    [DecidableEq ρ] : (sigmuxSystem α ρ η).Realizes Sigmux.react :=
  fun _ input _ _ reacts => ⟨input, reacts⟩

/-! ## What a step does -/

namespace Handling

variable {ρ : Type v}

/-- Between `phaser_enter` and `phaser_exit`. -/
def inside : Handling ρ → Bool
  | .outside | .entering _ => false
  | _ => true

/-- The registrations which the handling has pointers to. -/
def pointers : Handling ρ → List ρ
  | .scanning _ reglist _ it => reglist.toList ++ it.toList
  | .calling _ reglist _ it | .advancing _ reglist _ it _ => reglist.toList ++ [it]
  | _ => []

end Handling

namespace Sigmux

variable {α : Type u} {ρ : Type v} {η : Type w} [DecidableEq ρ] [DecidableEq α]

/-- A step of a handling: the label, what it does next, and its calls. -/
inductive Reads (sigmux : Sigmux α ρ η) (activity : α) :
    Option (Event α) → Handling ρ → List ρ → Prop where
  | signal {request : Request} (was : sigmux.handling activity = .outside) :
      Reads sigmux activity none (.entering request) []
  | enter {request : Request} (was : sigmux.handling activity = .entering request) :
      Reads sigmux activity (some (.enter activity)) (.loading request) (sigmux.calls activity)
  | load {request : Request} (was : sigmux.handling activity = .loading request) :
      Reads sigmux activity none (.startNormal request (sigmux.next none)) (sigmux.calls activity)
  | pass {request : Request} {reglist : Option ρ} {pass : Pass}
      (was : sigmux.handling activity = .scanning request reglist pass none) :
      Reads sigmux activity none (.passed request reglist pass) (sigmux.calls activity)
  | call {request : Request} {reglist : Option ρ} {pass : Pass} {it : ρ} {node : Registration ρ η}
      (was : sigmux.handling activity = .scanning request reglist pass (some it))
      (present : sigmux.memory it = some node)
      (wants : node.pass = pass ∧ request.signum ∈ node.signals) :
      Reads sigmux activity none (.calling request reglist pass it)
        (sigmux.calls activity ++ [it])
  | skip {request : Request} {reglist : Option ρ} {pass : Pass} {it : ρ} {node : Registration ρ η}
      (was : sigmux.handling activity = .scanning request reglist pass (some it))
      (present : sigmux.memory it = some node)
      (refuses : ¬ (node.pass = pass ∧ request.signum ∈ node.signals)) :
      Reads sigmux activity none (.advancing request reglist pass it .continueSearch)
        (sigmux.calls activity)
  | answer {request : Request} {reglist : Option ρ} {pass : Pass} {it : ρ} {action : SigmuxAction}
      (was : sigmux.handling activity = .calling request reglist pass it) :
      Reads sigmux activity none (.advancing request reglist pass it action)
        (sigmux.calls activity)
  | advance {request : Request} {reglist : Option ρ} {pass : Pass} {it : ρ}
      (was : sigmux.handling activity = .advancing request reglist pass it .continueSearch) :
      Reads sigmux activity none (.scanning request reglist pass (sigmux.next (some it)))
        (sigmux.calls activity)
  | stop {request : Request} {reglist : Option ρ} {pass : Pass} {it : ρ}
      (was : sigmux.handling activity = .advancing request reglist pass it .continueExecution) :
      Reads sigmux activity none (.exiting request .continueExecution) (sigmux.calls activity)
  | exit (inside : (sigmux.handling activity).inside) :
      Reads sigmux activity (some (.exit activity)) .outside (sigmux.calls activity)

inductive Moves (sigmux : Sigmux α ρ η) : Option (Event α) → Sigmux α ρ η → Prop where
  | read {activity : α} {label : Option (Event α)} {handling : Handling ρ} {calls : List ρ}
      (reads : sigmux.Reads activity label handling calls) :
      Moves sigmux label ((sigmux.setHandling activity handling).record activity calls)
  /-- The handling comes to a registration which is not allocated. -/
  | fail {activity : α} {it : ρ} (pointer : it ∈ (sigmux.handling activity).pointers)
      (absent : sigmux.memory it = none) : Moves sigmux none { sigmux with fault := true }
  | register {registration : ρ} {node : Registration ρ η}
      (was : sigmux.stage registration = .absent) :
      Moves sigmux none { sigmux.setStage registration .allocated with
        memory := Function.update sigmux.memory registration (some node) }
  | unregister {registration : ρ} (was : sigmux.stage registration = .registered) :
      Moves sigmux none (sigmux.setStage registration .leaving)
  | lock {registration : ρ} (was : sigmux.stage registration = .allocated)
      (free : sigmux.holder = .nobody) :
      Moves sigmux none
        { sigmux.setStage registration .linking with holder := .owner registration }
  | prepare {registration : ρ} (was : sigmux.stage registration = .linking) :
      Moves sigmux none (((sigmux.setNext (some registration) (sigmux.next none)).setPrev
        (some registration) none).setStage registration .settingBack)
  | setBack {registration : ρ} (was : sigmux.stage registration = .settingBack) :
      Moves sigmux none ((sigmux.setPrev (sigmux.next (some registration))
        (some registration)).setStage registration .publishing)
  | publish {registration : ρ} (was : sigmux.stage registration = .publishing) :
      Moves sigmux none
        ((sigmux.setNext none (some registration)).setStage registration .unlockingNew)
  | unlockNew {registration : ρ} (was : sigmux.stage registration = .unlockingNew) :
      Moves sigmux none { sigmux.setStage registration .registered with holder := .nobody }
  | lockAgain {registration : ρ} (was : sigmux.stage registration = .leaving)
      (free : sigmux.holder = .nobody) :
      Moves sigmux none
        { sigmux.setStage registration .bypassing with holder := .owner registration }
  | bypass {registration : ρ} (was : sigmux.stage registration = .bypassing) :
      Moves sigmux none ((sigmux.setNext (sigmux.prev (some registration))
        (sigmux.next (some registration))).setStage registration .unhooking)
  | unhook {registration : ρ} (was : sigmux.stage registration = .unhooking) :
      Moves sigmux none ((sigmux.setPrev (sigmux.next (some registration))
        (sigmux.prev (some registration))).setStage registration .startingDrain)
  | drain {registration : ρ} (was : sigmux.stage registration = .startingDrain) :
      Moves sigmux (some .drain) (sigmux.setStage registration .draining)
  | drained {registration : ρ} (was : sigmux.stage registration = .draining) :
      Moves sigmux (some .drained) (sigmux.setStage registration .unlocking)
  | unlock {registration : ρ} (was : sigmux.stage registration = .unlocking) :
      Moves sigmux none { sigmux.setStage registration .freeing with holder := .nobody }
  | free {registration : ρ} (was : sigmux.stage registration = .freeing) :
      Moves sigmux none { sigmux.setStage registration .absent with
        memory := Function.update sigmux.memory registration none }
  /-- A step of `sigmux_sigaction`. -/
  | exchange {label : Option (Event α)} {holder : Holder ρ}
      (was : ∀ registration, sigmux.holder ≠ .owner registration)
      (stays : ∀ registration, holder ≠ .owner registration)
      (drains : label = none ∨ label = some .drain ∨ label = some .drained) :
      Moves sigmux label { sigmux with holder := holder }

variable {sigmux next : Sigmux α ρ η} {label : Option (Event α)}

omit [DecidableEq ρ] in
theorem record_self (sigmux : Sigmux α ρ η) (activity : α) (handling : Handling ρ) :
    (sigmux.setHandling activity handling).record activity (sigmux.calls activity) =
      sigmux.setHandling activity handling := by
  simp [record, setHandling]

theorem Reads.moves {activity : α} {handling : Handling ρ}
    (reads : sigmux.Reads activity label handling (sigmux.calls activity)) :
    Moves sigmux label (sigmux.setHandling activity handling) := by
  rw [← record_self]
  exact .read reads

theorem moves_of_run {activity : α} (ran : sigmux.run activity = some next) :
    Moves sigmux none next := by
  unfold run at ran
  split at ran
  · next request was =>
      cases ran
      exact (Reads.load was).moves
  · next request reglist pass was =>
      cases ran
      exact (Reads.pass was).moves
  · next request reglist pass it was =>
      split at ran
      · next absent =>
          cases ran
          exact .fail (by rw [was]; simp [Handling.pointers]) absent
      · next node present =>
          split at ran
          · next wants =>
              cases ran
              exact .read (.call was present wants)
          · next refuses =>
              cases ran
              exact (Reads.skip was present refuses).moves
  · next request reglist pass it action was =>
      split at ran
      · next absent =>
          cases ran
          exact .fail (by rw [was]; simp [Handling.pointers]) absent
      · next node present =>
          cases action with
          | continueSearch =>
              have leads : sigmux.next (some it) = node.next := by simp [Sigmux.next, present]
              cases ran
              rw [← leads]
              exact (Reads.advance was).moves
          | continueExecution =>
              cases ran
              exact (Reads.stop was).moves
  · cases ran

theorem moves_of_lock {registration : ρ} {stage : Stage}
    (moves : sigmux.holder = .nobody →
      Moves sigmux none { sigmux.setStage registration stage with holder := .owner registration })
    (locked : (sigmux.lock registration stage).map (fun next => (none, next)) =
      some (label, next)) :
    Moves sigmux label next := by
  unfold lock at locked
  split at locked
  · next free =>
      cases locked
      exact moves free
  · cases locked

theorem moves_of_work {registration : ρ} (worked : sigmux.work registration = some (label, next)) :
    Moves sigmux label next := by
  unfold work at worked
  split at worked
  · cases worked
  · next was => exact moves_of_lock (.lock was) worked
  · next was =>
      cases worked
      exact .prepare was
  · next was =>
      cases worked
      exact .setBack was
  · next was =>
      cases worked
      exact .publish was
  · next was =>
      cases worked
      exact .unlockNew was
  · cases worked
  · next was => exact moves_of_lock (.lockAgain was) worked
  · next was =>
      cases worked
      exact .bypass was
  · next was =>
      cases worked
      exact .unhook was
  · next was =>
      cases worked
      exact .drain was
  · next was =>
      cases worked
      exact .drained was
  · next was =>
      cases worked
      exact .unlock was
  · next was =>
      cases worked
      exact .free was

theorem moves_of_sigmuxSigaction (worked : sigmux.sigmuxSigaction = some (label, next)) :
    Moves sigmux label next := by
  unfold sigmuxSigaction at worked
  split at worked
  · next was =>
      cases worked
      exact .exchange (by simp [was]) (by simp) (by simp)
  · cases worked
  · next was =>
      cases worked
      exact .exchange (by simp [was]) (by simp) (by simp)
  · next was =>
      cases worked
      exact .exchange (by simp [was]) (by simp) (by simp)
  · next was =>
      cases worked
      exact .exchange (by simp [was]) (by simp) (by simp)

theorem moves_of_react {input : SigmuxInput α ρ η}
    (reacts : sigmux.react input = some (label, next)) : Moves sigmux label next := by
  cases input with
  | signal activity request =>
      simp only [react] at reacts
      split at reacts
      · next was =>
          cases reacts
          exact .read (.signal was)
      · cases reacts
  | enter activity =>
      simp only [react] at reacts
      split at reacts
      · next request was =>
          cases reacts
          exact (Reads.enter was).moves
      · cases reacts
  | run activity =>
      rcases Option.map_eq_some_iff.1 reacts with ⟨_, ran, same⟩
      cases same
      exact moves_of_run ran
  | answer activity action =>
      simp only [react] at reacts
      split at reacts
      · next was =>
          cases reacts
          exact (Reads.answer was).moves
      · cases reacts
  | longjmp activity =>
      simp only [react] at reacts
      split at reacts
      · next was =>
          cases reacts
          exact (Reads.exit (by rw [was]; rfl)).moves
      · cases reacts
  | exit activity =>
      simp only [react] at reacts
      split at reacts
      · next was =>
          cases reacts
          exact (Reads.exit (by rw [was]; rfl)).moves
      · cases reacts
  | register registration signals handler flags =>
      rcases Option.map_eq_some_iff.1 reacts with ⟨_, registered, same⟩
      cases same
      unfold sigmuxRegister at registered
      split at registered
      · next was =>
          cases registered
          exact .register was
      · cases registered
  | unregister registration =>
      rcases Option.map_eq_some_iff.1 reacts with ⟨_, left, same⟩
      cases same
      unfold sigmuxUnregister at left
      split at left
      · next was =>
          cases left
          exact .unregister was
      · cases left
  | work registration => exact moves_of_work reacts
  | sigaction => exact moves_of_sigmuxSigaction reacts

end Sigmux

end AndroidCollection.Linker
