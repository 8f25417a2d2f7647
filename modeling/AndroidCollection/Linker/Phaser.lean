import AndroidCollection.Lib.GracePeriod
import Mathlib.Algebra.Ring.Nat
import Mathlib.Data.Fintype.Card
import Mathlib.Logic.Function.Basic

/-!
# Phasers

A phaser counts the activities in its two phases. An activity is one use of the phaser
by a thread or by a signal handler, from `phaser_enter` to `phaser_exit`; a thread has
several of them when handlers interrupt it. Its position says which atomic operation
comes next, and the operations of all activities and of the one drain interleave in
any order. Both ABIs of the library have a `size_t` of 32 bits.

A counter with the bit `DRAINING` admits nobody. The drain sets the bit of one phase
after the other and sleeps on its futex until the count is zero.
-/

universe u

namespace AndroidCollection.Linker

open GracePeriod (Event)

abbrev SizeT :=
  UInt32

def SIZE_MAX : SizeT :=
  0xFFFFFFFF

def SIZE_T_HIGH_BIT : SizeT :=
  SIZE_MAX - SIZE_MAX >>> 1

def DRAINING : SizeT :=
  SIZE_T_HIGH_BIT

def COUNT_DRAINED : SizeT :=
  SIZE_T_HIGH_BIT ||| 0

abbrev Phase :=
  Fin 2

inductive Position where
  | outside
  /-- `phaser_counter_try_inc` is about to load the counter. -/
  | loading (phase : Phase)
  /-- It has found no `DRAINING` bit. -/
  | adding (phase : Phase)
  | inside (phase : Phase)
  /-- `phaser_exit` has counted down to `COUNT_DRAINED`. -/
  | waking (phase : Phase)
deriving DecidableEq

inductive Drainer where
  | idle
  | setting (phase : Phase)
  /-- The test of the loop, with the value which was last seen. -/
  | waiting (phase : Phase) (value : SizeT)
  | sleeping (phase : Phase)
  | reloading (phase : Phase)
  | clearing (phase : Phase)
deriving DecidableEq

structure Phaser (α : Type u) where
  counter : Phase → SizeT
  position : α → Position
  drainer : Drainer

inductive Action (α : Type u) where
  | enter (activity : α)
  | run (activity : α)
  | exit (activity : α)
  | drain
  | runDrain
  /-- A signal ends `FUTEX_WAIT`. -/
  | interrupt
deriving DecidableEq

namespace Phaser

variable {α : Type u}

def init : Phaser α where
  counter _ := 0
  position _ := .outside
  drainer := .idle

def store (phaser : Phaser α) (phase : Phase) (value : SizeT) : Phaser α :=
  { phaser with counter := Function.update phaser.counter phase value }

@[simp]
theorem position_store (phaser : Phaser α) (phase : Phase) (value : SizeT) :
    (phaser.store phase value).position = phaser.position :=
  rfl

@[simp]
theorem drainer_store (phaser : Phaser α) (phase : Phase) (value : SizeT) :
    (phaser.store phase value).drainer = phaser.drainer :=
  rfl

variable [DecidableEq α]

def move (phaser : Phaser α) (activity : α) (position : Position) : Phaser α :=
  { phaser with position := Function.update phaser.position activity position }

@[simp]
theorem counter_move (phaser : Phaser α) (activity : α) (position : Position) :
    (phaser.move activity position).counter = phaser.counter :=
  rfl

@[simp]
theorem drainer_move (phaser : Phaser α) (activity : α) (position : Position) :
    (phaser.move activity position).drainer = phaser.drainer :=
  rfl

def phaserEnter (phaser : Phaser α) (activity : α) : Option (Phaser α) :=
  if phaser.position activity = .outside then some (phaser.move activity (.loading 0)) else none

/-- The load of `phaser_counter_try_inc`; a refused activity tries the next phase. -/
def tryInc (phaser : Phaser α) (activity : α) (phase : Phase) : Phaser α :=
  if phaser.counter phase &&& DRAINING = 0 then phaser.move activity (.adding phase)
  else phaser.move activity (.loading (phase + 1))

def futexWake (phaser : Phaser α) (phase : Phase) : Phaser α :=
  if phaser.drainer = .sleeping phase then { phaser with drainer := .reloading phase } else phaser

def phaserExit (phaser : Phaser α) (activity : α) :
    Option (Option (Event α) × Phaser α) :=
  match phaser.position activity with
  | .inside phase =>
      let value := phaser.counter phase + -1
      some (some (.exit activity),
        (phaser.store phase value).move activity
          (if value = COUNT_DRAINED then .waking phase else .outside))
  | _ => none

/-- The next operation of an activity in `phaser_enter` or at the end of `phaser_exit`. -/
def run (phaser : Phaser α) (activity : α) : Option (Option (Event α) × Phaser α) :=
  match phaser.position activity with
  | .loading phase => some (none, phaser.tryInc activity phase)
  | .adding phase =>
      some (some (.enter activity),
        (phaser.store phase (phaser.counter phase + 1)).move activity (.inside phase))
  | .waking phase => some (none, (phaser.futexWake phase).move activity .outside)
  | .outside => none
  | .inside _ => none

omit [DecidableEq α] in
/-- The next operation of `phaser_drain`, which calls `phaser_drain_counter` for each phase. -/
def phaserDrain (phaser : Phaser α) : Option (Option (Event α) × Phaser α) :=
  match phaser.drainer with
  | .idle => none
  | .setting phase =>
      let value := phaser.counter phase ||| DRAINING
      some (none, { phaser.store phase value with drainer := .waiting phase value })
  | .waiting phase value =>
      if value = COUNT_DRAINED then some (none, { phaser with drainer := .clearing phase })
      else if phaser.counter phase = value then
        some (none, { phaser with drainer := .sleeping phase })
      else some (none, { phaser with drainer := .reloading phase })
  | .sleeping _ => none
  | .reloading phase =>
      some (none, { phaser with drainer := .waiting phase (phaser.counter phase) })
  | .clearing phase =>
      let cleared := phaser.store phase (phaser.counter phase &&& ~~~DRAINING)
      if phase.val + 1 < 2 then some (none, { cleared with drainer := .setting (phase + 1) })
      else some (some .drained, { cleared with drainer := .idle })

def react (phaser : Phaser α) : Action α → Option (Option (Event α) × Phaser α)
  | .enter activity => (phaser.phaserEnter activity).map fun next => (none, next)
  | .run activity => phaser.run activity
  | .exit activity => phaser.phaserExit activity
  | .drain =>
      if phaser.drainer = .idle then some (some .drain, { phaser with drainer := .setting 0 })
      else none
  | .runDrain => phaser.phaserDrain
  | .interrupt =>
      match phaser.drainer with
      | .sleeping phase => some (none, { phaser with drainer := .reloading phase })
      | _ => none

end Phaser

/-- At most `2 ^ 31 - 1` activities are inside at once. -/
def Fits {α : Type u} (phaser : Phaser α) : Prop :=
  ∀ activities : Finset α,
    (∀ activity ∈ activities, ∃ phase, phaser.position activity = .inside phase) →
      activities.card < 2 ^ 31

def anyPhaser (α : Type u) [DecidableEq α] : LabelledSystem (Event α) (Phaser α) where
  initial phaser := phaser = Phaser.init
  step phaser label next := ∃ action, phaser.react action = some (label, next)

/-- A phaser whose counts do not reach the bit `DRAINING`. -/
def phaserSystem (α : Type u) [DecidableEq α] : LabelledSystem (Event α) (Phaser α) :=
  (anyPhaser α).within Fits

theorem fits_of_card {α : Type u} [Fintype α] (few : Fintype.card α < 2 ^ 31)
    (phaser : Phaser α) : Fits phaser :=
  fun activities _ => lt_of_le_of_lt (Finset.card_le_univ activities) few

theorem realizes_phaserSystem {α : Type u} [DecidableEq α] [Fintype α]
    (few : Fintype.card α < 2 ^ 31) : (phaserSystem α).Realizes Phaser.react :=
  fun _ action _ next reacts => ⟨⟨action, reacts⟩, fits_of_card few next⟩

/-! ## What an operation does -/

namespace Phaser

variable {α : Type u} [DecidableEq α]

inductive Moves (phaser : Phaser α) : Option (Event α) → Phaser α → Prop where
  | call {activity : α} (was : phaser.position activity = .outside) :
      Moves phaser none (phaser.move activity (.loading 0))
  | letIn {activity : α} {phase : Phase} (was : phaser.position activity = .loading phase)
      (admits : phaser.counter phase &&& DRAINING = 0) :
      Moves phaser none (phaser.move activity (.adding phase))
  | refuse {activity : α} {phase : Phase} (was : phaser.position activity = .loading phase)
      (refuses : phaser.counter phase &&& DRAINING ≠ 0) :
      Moves phaser none (phaser.move activity (.loading (phase + 1)))
  | add {activity : α} {phase : Phase} (was : phaser.position activity = .adding phase) :
      Moves phaser (some (.enter activity))
        ((phaser.store phase (phaser.counter phase + 1)).move activity (.inside phase))
  | leave {activity : α} {phase : Phase} (was : phaser.position activity = .inside phase)
      (remain : phaser.counter phase + -1 ≠ COUNT_DRAINED) :
      Moves phaser (some (.exit activity))
        ((phaser.store phase (phaser.counter phase + -1)).move activity .outside)
  | leaveLast {activity : α} {phase : Phase} (was : phaser.position activity = .inside phase)
      (last : phaser.counter phase + -1 = COUNT_DRAINED) :
      Moves phaser (some (.exit activity))
        ((phaser.store phase (phaser.counter phase + -1)).move activity (.waking phase))
  | wake {activity : α} {phase : Phase} (was : phaser.position activity = .waking phase) :
      Moves phaser none ((phaser.futexWake phase).move activity .outside)
  | drain (was : phaser.drainer = .idle) :
      Moves phaser (some .drain) { phaser with drainer := .setting 0 }
  | set {phase : Phase} (was : phaser.drainer = .setting phase) :
      Moves phaser none { phaser.store phase (phaser.counter phase ||| DRAINING) with
        drainer := .waiting phase (phaser.counter phase ||| DRAINING) }
  | found {phase : Phase} (was : phaser.drainer = .waiting phase COUNT_DRAINED) :
      Moves phaser none { phaser with drainer := .clearing phase }
  | sleep {phase : Phase} (was : phaser.drainer = .waiting phase (phaser.counter phase))
      (undrained : phaser.counter phase ≠ COUNT_DRAINED) :
      Moves phaser none { phaser with drainer := .sleeping phase }
  | miss {phase : Phase} {value : SizeT} (was : phaser.drainer = .waiting phase value)
      (undrained : value ≠ COUNT_DRAINED) :
      Moves phaser none { phaser with drainer := .reloading phase }
  | interrupt {phase : Phase} (was : phaser.drainer = .sleeping phase) :
      Moves phaser none { phaser with drainer := .reloading phase }
  | reload {phase : Phase} (was : phaser.drainer = .reloading phase) :
      Moves phaser none { phaser with drainer := .waiting phase (phaser.counter phase) }
  | clear (was : phaser.drainer = .clearing 0) :
      Moves phaser none { phaser.store 0 (phaser.counter 0 &&& ~~~DRAINING) with
        drainer := .setting 1 }
  | finish (was : phaser.drainer = .clearing 1) :
      Moves phaser (some .drained) { phaser.store 1 (phaser.counter 1 &&& ~~~DRAINING) with
        drainer := .idle }

variable {phaser next : Phaser α} {label : Option (Event α)}

theorem moves_of_run {activity : α} (ran : phaser.run activity = some (label, next)) :
    Moves phaser label next := by
  unfold run at ran
  split at ran
  · next phase was =>
      cases ran
      unfold tryInc
      split
      · next admits => exact .letIn was admits
      · next refuses => exact .refuse was refuses
  · next phase was =>
      cases ran
      exact .add was
  · next phase was =>
      cases ran
      exact .wake was
  · cases ran
  · cases ran

theorem moves_of_phaserExit {activity : α}
    (left : phaser.phaserExit activity = some (label, next)) :
    Moves phaser label next := by
  unfold phaserExit at left
  split at left
  · next phase was =>
      cases left
      split
      · next last => exact .leaveLast was last
      · next remain => exact .leave was remain
  · cases left

theorem moves_of_phaserDrain (ran : phaser.phaserDrain = some (label, next)) :
    Moves phaser label next := by
  unfold phaserDrain at ran
  split at ran
  · cases ran
  · next phase was =>
      cases ran
      exact .set was
  · next phase value was =>
      split at ran
      · next drained =>
          cases ran
          exact .found (by rw [was, drained])
      · next undrained =>
          split at ran
          · next same =>
              cases ran
              exact .sleep (by rw [was, same]) (by rwa [same])
          · cases ran
            exact .miss was undrained
  · cases ran
  · next phase was =>
      cases ran
      exact .reload was
  · next phase was =>
      match phase, was, ran with
      | 0, was, ran =>
          cases ran
          exact .clear was
      | 1, was, ran =>
          cases ran
          exact .finish was

theorem moves_of_react {action : Action α} (reacts : phaser.react action = some (label, next)) :
    Moves phaser label next := by
  cases action with
  | enter activity =>
      rcases Option.map_eq_some_iff.1 reacts with ⟨_, entered, same⟩
      cases same
      unfold phaserEnter at entered
      split at entered
      · next was =>
          cases entered
          exact .call was
      · cases entered
  | run activity => exact moves_of_run reacts
  | exit activity => exact moves_of_phaserExit reacts
  | drain =>
      simp only [react] at reacts
      split at reacts
      · next was =>
          cases reacts
          exact .drain was
      · cases reacts
  | runDrain => exact moves_of_phaserDrain reacts
  | interrupt =>
      simp only [react] at reacts
      split at reacts
      · next phase was =>
          cases reacts
          exact .interrupt was
      · cases reacts

end Phaser

end AndroidCollection.Linker
