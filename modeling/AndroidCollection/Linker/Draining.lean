import AndroidCollection.Linker.Phaser
import Mathlib.Data.Nat.Bitwise
import Mathlib.Order.Fin.Basic

/-!
# The grace periods of a phaser

As long as the count stays below the bit `DRAINING`, a counter is the number of the
activities inside its phase, plus that bit while the phase is drained. At most one phase
is drained at a time, so an activity always finds a phase which admits it.

The drain of a phase ends when nobody is inside it, and whoever was inside when the drain
began is still in the phase it has entered. So a phaser has the grace periods of
`GracePeriod`. A drain which sleeps is woken: if the count is zero, some activity is about
to wake it.
-/

universe u

namespace AndroidCollection.Linker

open GracePeriod (Event)

/-! ## The counter as a number -/

section Words

variable {value : SizeT}

@[simp]
theorem toNat_DRAINING : DRAINING.toNat = 2 ^ 31 :=
  rfl

theorem eq_COUNT_DRAINED_iff : value = COUNT_DRAINED ↔ value.toNat = 2 ^ 31 :=
  UInt32.toNat_inj.symm

theorem toNat_add_one (small : value.toNat + 1 < 2 ^ 32) :
    (value + 1).toNat = value.toNat + 1 := by
  have one : (1 : SizeT).toNat = 1 := rfl
  rw [UInt32.toNat_add, one, Nat.mod_eq_of_lt small]

theorem toNat_add_minus_one (positive : 0 < value.toNat) :
    (value + -1).toNat = value.toNat - 1 := by
  have bound := value.toNat_lt
  have one : (-1 : SizeT).toNat = 2 ^ 32 - 1 := rfl
  rw [UInt32.toNat_add, one]
  omega

theorem toNat_or_DRAINING (low : value.toNat < 2 ^ 31) :
    (value ||| DRAINING).toNat = value.toNat + 2 ^ 31 := by
  rw [UInt32.toNat_or, toNat_DRAINING, Nat.or_comm]
  have disjoint := Nat.two_pow_add_eq_or_of_lt low 1
  rw [Nat.mul_one] at disjoint
  omega

theorem toNat_and_not_DRAINING : (value &&& ~~~DRAINING).toNat = value.toNat % 2 ^ 31 := by
  have mask : (~~~DRAINING).toNat = 2 ^ 31 - 1 := rfl
  rw [UInt32.toNat_and, mask, Nat.and_two_pow_sub_one_eq_mod]

theorem and_DRAINING_eq_zero_iff : value &&& DRAINING = 0 ↔ value.toNat < 2 ^ 31 := by
  have bound := value.toNat_lt
  have zero : (0 : SizeT).toNat = 0 := rfl
  rw [← UInt32.toNat_inj, UInt32.toNat_and, toNat_DRAINING, Nat.and_two_pow, zero,
    Nat.testBit_eq_decide_div_mod_eq]
  simp
  omega

end Words

/-! ## Counting the activities inside -/

/-- The phase whose counter has the bit `DRAINING`. -/
def Drainer.draining : Drainer → Option Phase
  | .waiting phase _ => some phase
  | .sleeping phase => some phase
  | .reloading phase => some phase
  | .clearing phase => some phase
  | .idle => none
  | .setting _ => none

def Drainer.bit (drainer : Drainer) (phase : Phase) : ℕ :=
  if drainer.draining = some phase then 2 ^ 31 else 0

theorem Drainer.bit_of_draining {drainer : Drainer} {phase : Phase}
    (drains : drainer.draining = some phase) : drainer.bit phase = 2 ^ 31 :=
  if_pos drains

theorem Drainer.bit_of_not_draining {drainer : Drainer} {phase : Phase}
    (admits : drainer.draining ≠ some phase) : drainer.bit phase = 0 :=
  if_neg admits

namespace Phaser

variable {α : Type u} [DecidableEq α] {phaser next : Phaser α} {members : Phase → Finset α}

omit [DecidableEq α] in
structure Counted (phaser : Phaser α) (members : Phase → Finset α) : Prop where
  mem_iff : ∀ phase activity,
    activity ∈ members phase ↔ phaser.position activity = .inside phase
  counter : ∀ phase, (phaser.counter phase).toNat =
    (members phase).card + phaser.drainer.bit phase

omit [DecidableEq α] in
theorem counted_init : (init : Phaser α).Counted fun _ => ∅ where
  mem_iff phase activity := by simp [init]
  counter phase := by simp [init, Drainer.bit, Drainer.draining]

omit [DecidableEq α] in
theorem Counted.card_lt (counted : phaser.Counted members) (fits : Fits phaser) (phase : Phase) :
    (members phase).card < 2 ^ 31 :=
  fits (members phase) fun _ member => ⟨phase, (counted.mem_iff phase _).1 member⟩

omit [DecidableEq α] in
theorem Counted.of_agree (counted : phaser.Counted members)
    (positions : ∀ phase activity,
      next.position activity = .inside phase ↔ phaser.position activity = .inside phase)
    (counters : next.counter = phaser.counter)
    (drains : next.drainer.draining = phaser.drainer.draining) : next.Counted members where
  mem_iff phase activity := by rw [counted.mem_iff, positions]
  counter phase := by rw [counters, counted.counter, Drainer.bit, Drainer.bit, drains]

/-- An activity which was not inside and does not get inside. -/
theorem inside_move_iff {activity : α} {position : Position}
    (wasNot : ∀ phase, phaser.position activity ≠ .inside phase)
    (isNot : ∀ phase, position ≠ .inside phase) (phase : Phase) (other : α) :
    (phaser.move activity position).position other = .inside phase ↔
      phaser.position other = .inside phase := by
  by_cases same : other = activity
  · subst same
    simp [move, wasNot phase, isNot phase]
  · simp [move, same]

theorem Counted.move (counted : phaser.Counted members) {activity : α} {position : Position}
    (wasNot : ∀ phase, phaser.position activity ≠ .inside phase)
    (isNot : ∀ phase, position ≠ .inside phase) :
    (phaser.move activity position).Counted members :=
  counted.of_agree (inside_move_iff wasNot isNot) rfl rfl

theorem Counted.add (counted : phaser.Counted members) {activity : α} {phase : Phase}
    (wasNot : ∀ phase, phaser.position activity ≠ .inside phase)
    (fits : (members phase).card + 1 < 2 ^ 31) :
    ((phaser.store phase (phaser.counter phase + 1)).move activity (.inside phase)).Counted
      (Function.update members phase (insert activity (members phase))) where
  mem_iff other member := by
    by_cases samePhase : other = phase
    · subst samePhase
      by_cases same : member = activity
      · simp [Phaser.move, same]
      · simp [Phaser.move, same, counted.mem_iff]
    · by_cases same : member = activity
      · subst same
        simp [Phaser.move, samePhase, counted.mem_iff, wasNot, Ne.symm samePhase]
      · simp [Phaser.move, samePhase, same, counted.mem_iff]
  counter other := by
    by_cases samePhase : other = phase
    · subst samePhase
      have fresh : activity ∉ members other := fun member =>
        wasNot other ((counted.mem_iff other activity).1 member)
      have count := counted.counter other
      have small : (phaser.counter other).toNat + 1 < 2 ^ 32 := by
        rw [count, Drainer.bit]
        split <;> omega
      simp only [counter_move, drainer_move, Function.update_self, store,
        Finset.card_insert_of_notMem fresh]
      rw [toNat_add_one small, count]
      omega
    · simp [store, samePhase, counted.counter]

theorem Counted.leave (counted : phaser.Counted members) {activity : α} {phase : Phase}
    {position : Position} (was : phaser.position activity = .inside phase)
    (isNot : ∀ phase, position ≠ .inside phase) :
    ((phaser.store phase (phaser.counter phase + -1)).move activity position).Counted
      (Function.update members phase ((members phase).erase activity)) where
  mem_iff other member := by
    by_cases same : member = activity
    · subst same
      by_cases samePhase : other = phase
      · subst samePhase
        simp [Phaser.move, isNot]
      · simp [Phaser.move, isNot, samePhase, counted.mem_iff, was, Ne.symm samePhase]
    · by_cases samePhase : other = phase
      · subst samePhase
        simp [Phaser.move, same, counted.mem_iff]
      · simp [Phaser.move, same, samePhase, counted.mem_iff]
  counter other := by
    by_cases samePhase : other = phase
    · subst samePhase
      have member : activity ∈ members other := (counted.mem_iff other activity).2 was
      have count := counted.counter other
      have some := Finset.card_pos.2 ⟨activity, member⟩
      simp only [counter_move, drainer_move, Function.update_self, store,
        Finset.card_erase_of_mem member]
      rw [toNat_add_minus_one (by omega), count]
      omega
    · simp [store, samePhase, counted.counter]

omit [DecidableEq α] in
/-- The drain sets or clears the bit of one phase. -/
theorem Counted.store (counted : phaser.Counted members) {phase : Phase} {value : SizeT}
    {drainer : Drainer}
    (count : value.toNat = (members phase).card + drainer.bit phase)
    (others : ∀ other, other ≠ phase → drainer.bit other = phaser.drainer.bit other) :
    Counted { phaser.store phase value with drainer := drainer } members where
  mem_iff := counted.mem_iff
  counter other := by
    by_cases same : other = phase
    · subst same
      simpa [Phaser.store] using count
    · simp [Phaser.store, same, counted.counter, others other same]

theorem exists_counted_of_moves {label : Option (Event α)} (counted : phaser.Counted members)
    (moves : phaser.Moves label next) (fits : Fits next) :
    ∃ nextMembers, next.Counted nextMembers := by
  cases moves with
  | call was => exact ⟨members, counted.move (by simp [was]) (by simp)⟩
  | letIn was => exact ⟨members, counted.move (by simp [was]) (by simp)⟩
  | refuse was => exact ⟨members, counted.move (by simp [was]) (by simp)⟩
  | @add activity phase was =>
      have wasNot : ∀ other, phaser.position activity ≠ .inside other := by simp [was]
      have fresh : activity ∉ members phase := fun member =>
        wasNot phase ((counted.mem_iff phase activity).1 member)
      have small : (insert activity (members phase)).card < 2 ^ 31 := by
        apply fits
        intro member isMember
        refine ⟨phase, ?_⟩
        rcases Finset.mem_insert.1 isMember with rfl | before
        · simp [move]
        · have different : member ≠ activity := fun same => fresh (same ▸ before)
          simpa [move, different] using (counted.mem_iff phase member).1 before
      rw [Finset.card_insert_of_notMem fresh] at small
      exact ⟨_, counted.add wasNot small⟩
  | leave was => exact ⟨_, counted.leave was (by simp)⟩
  | leaveLast was => exact ⟨_, counted.leave was (by simp)⟩
  | @wake activity phase was =>
      refine ⟨members, (counted.of_agree ?_ ?_ ?_ : (phaser.futexWake phase).Counted members).move
        ?_ (by simp)⟩
      · intro other member
        unfold futexWake
        split <;> rfl
      · unfold futexWake
        split <;> rfl
      · unfold futexWake
        split
        · next sleeps => rw [sleeps]; rfl
        · rfl
      · unfold futexWake
        split <;> simp [was]
  | drain was =>
      exact ⟨members, counted.of_agree (fun _ _ => Iff.rfl) rfl (by rw [was]; rfl)⟩
  | @set phase was =>
      have count := counted.counter phase
      have small : (members phase).card < 2 ^ 31 := fits (members phase) fun member isMember =>
        ⟨phase, (counted.mem_iff phase member).1 isMember⟩
      rw [was, Drainer.bit_of_not_draining (by simp [Drainer.draining]), Nat.add_zero] at count
      refine ⟨members, counted.store ?_ ?_⟩
      · rw [toNat_or_DRAINING (by omega), count, Drainer.bit_of_draining rfl]
      · intro other different
        simp [was, Drainer.bit, Drainer.draining, Ne.symm different]
  | found was =>
      exact ⟨members, counted.of_agree (fun _ _ => Iff.rfl) rfl (by rw [was]; rfl)⟩
  | sleep was =>
      exact ⟨members, counted.of_agree (fun _ _ => Iff.rfl) rfl (by rw [was]; rfl)⟩
  | miss was =>
      exact ⟨members, counted.of_agree (fun _ _ => Iff.rfl) rfl (by rw [was]; rfl)⟩
  | interrupt was =>
      exact ⟨members, counted.of_agree (fun _ _ => Iff.rfl) rfl (by rw [was]; rfl)⟩
  | reload was =>
      exact ⟨members, counted.of_agree (fun _ _ => Iff.rfl) rfl (by rw [was]; rfl)⟩
  | clear was =>
      have count := counted.counter 0
      have small : (members 0).card < 2 ^ 31 := fits (members 0) fun member isMember =>
        ⟨0, (counted.mem_iff 0 member).1 isMember⟩
      rw [was, Drainer.bit_of_draining rfl] at count
      refine ⟨members, counted.store ?_ ?_⟩
      · rw [toNat_and_not_DRAINING, count,
          Drainer.bit_of_not_draining (by simp [Drainer.draining])]
        omega
      · intro other different
        simp [was, Drainer.bit, Drainer.draining, Ne.symm different]
  | finish was =>
      have count := counted.counter 1
      have small : (members 1).card < 2 ^ 31 := fits (members 1) fun member isMember =>
        ⟨1, (counted.mem_iff 1 member).1 isMember⟩
      rw [was, Drainer.bit_of_draining rfl] at count
      refine ⟨members, counted.store ?_ ?_⟩
      · rw [toNat_and_not_DRAINING, count,
          Drainer.bit_of_not_draining (by simp [Drainer.draining])]
        omega
      · intro other different
        simp [was, Drainer.bit, Drainer.draining, Ne.symm different]

omit [DecidableEq α] in
/-- Somebody inside the phase which is drained keeps the drain waiting. -/
theorem Counted.counter_ne (counted : phaser.Counted members) {phase : Phase} {activity : α}
    (drains : phaser.drainer.draining = some phase)
    (inside : phaser.position activity = .inside phase) :
    phaser.counter phase ≠ COUNT_DRAINED := by
  have member := Finset.card_pos.2 ⟨activity, (counted.mem_iff phase activity).2 inside⟩
  have count := counted.counter phase
  rw [Drainer.bit_of_draining drains] at count
  rw [ne_eq, eq_COUNT_DRAINED_iff]
  omega

end Phaser

/-! ## The grace periods -/

/-- The drain has not yet seen this phase without the activities which were inside. -/
def Drainer.Pending : Drainer → Phase → Prop
  | .idle, _ => False
  | .setting phase, other => phase ≤ other
  | .waiting phase value, other => phase ≤ other ∧ (value = COUNT_DRAINED → phase ≠ other)
  | .sleeping phase, other => phase ≤ other
  | .reloading phase, other => phase ≤ other
  | .clearing phase, other => phase < other

structure Represents {α : Type u} (phaser : Phaser α) (state : GracePeriod.State α) : Prop where
  counted : ∃ members, phaser.Counted members
  mem_inside : ∀ activity,
    activity ∈ state.inside ↔ ∃ phase, phaser.position activity = .inside phase
  awaited_eq_none : state.awaited = none ↔ phaser.drainer = .idle
  pending : ∀ activities activity, state.awaited = some activities → activity ∈ activities →
    ∃ phase, phaser.position activity = .inside phase ∧ phaser.drainer.Pending phase

namespace Represents

variable {α : Type u} [DecidableEq α] {phaser next : Phaser α} {state : GracePeriod.State α}
  {label : Option (Event α)}

omit [DecidableEq α] in
/-- A step which nobody sees from outside. -/
theorem of_agree (represents : Represents phaser state) (counted : ∃ members, next.Counted members)
    (positions : ∀ phase activity,
      next.position activity = .inside phase ↔ phaser.position activity = .inside phase)
    (idle : next.drainer = .idle ↔ phaser.drainer = .idle)
    (pending : ∀ phase activity, phaser.position activity = .inside phase →
      phaser.drainer.Pending phase → next.drainer.Pending phase) : Represents next state where
  counted := counted
  mem_inside activity := by simp only [positions, represents.mem_inside]
  awaited_eq_none := represents.awaited_eq_none.trans idle.symm
  pending activities activity awaited member := by
    rcases represents.pending activities activity awaited member with ⟨phase, inside, waits⟩
    exact ⟨phase, (positions phase activity).2 inside, pending phase activity inside waits⟩

theorem of_move (represents : Represents phaser state) {activity : α} {position : Position}
    (counted : ∃ members, (phaser.move activity position).Counted members)
    (wasNot : ∀ phase, phaser.position activity ≠ .inside phase)
    (isNot : ∀ phase, position ≠ .inside phase) :
    Represents (phaser.move activity position) state :=
  represents.of_agree counted (Phaser.inside_move_iff wasNot isNot) Iff.rfl
    fun _ _ _ pending => pending

theorem own (represents : Represents phaser state) (moves : phaser.Moves none next)
    (fits : Fits next) : Represents next state := by
  rcases represents.counted with ⟨members, counted⟩
  have countedNext := Phaser.exists_counted_of_moves counted moves fits
  cases moves with
  | call was => exact represents.of_move countedNext (by simp [was]) (by simp)
  | letIn was => exact represents.of_move countedNext (by simp [was]) (by simp)
  | refuse was => exact represents.of_move countedNext (by simp [was]) (by simp)
  | @wake activity phase was =>
      have positions : (phaser.futexWake phase).position = phaser.position := by
        unfold Phaser.futexWake
        split <;> rfl
      refine represents.of_agree countedNext (fun other member => ?_) ?_ ?_
      · rw [← positions]
        exact Phaser.inside_move_iff (by simp [positions, was]) (by simp) other member
      · simp only [Phaser.drainer_move]
        unfold Phaser.futexWake
        split
        · next sleeps => simp [sleeps]
        · rfl
      · intro other member _ waits
        simp only [Phaser.drainer_move]
        unfold Phaser.futexWake
        split
        · next sleeps =>
            rw [sleeps] at waits
            exact waits
        · exact waits
  | @set phase was =>
      rcases countedNext with ⟨later, countedLater⟩
      refine represents.of_agree ⟨later, countedLater⟩ (fun _ _ => Iff.rfl) (by simp [was]) ?_
      intro other member inside waits
      rw [was] at waits
      refine ⟨waits, ?_⟩
      rintro drained rfl
      refine countedLater.counter_ne rfl inside ?_
      simpa [Phaser.store] using drained
  | found was =>
      refine represents.of_agree countedNext (fun _ _ => Iff.rfl) (by simp [was]) ?_
      intro other member _ waits
      rw [was] at waits
      exact lt_of_le_of_ne waits.1 (waits.2 rfl)
  | sleep was =>
      refine represents.of_agree countedNext (fun _ _ => Iff.rfl) (by simp [was]) ?_
      intro other member _ waits
      rw [was] at waits
      exact waits.1
  | miss was =>
      refine represents.of_agree countedNext (fun _ _ => Iff.rfl) (by simp [was]) ?_
      intro other member _ waits
      rw [was] at waits
      exact waits.1
  | interrupt was =>
      refine represents.of_agree countedNext (fun _ _ => Iff.rfl) (by simp [was]) ?_
      intro other member _ waits
      rw [was] at waits
      exact waits
  | reload was =>
      refine represents.of_agree countedNext (fun _ _ => Iff.rfl) (by simp [was]) ?_
      intro other member inside waits
      rw [was] at waits
      refine ⟨waits, ?_⟩
      rintro drained rfl
      exact counted.counter_ne (by rw [was]; rfl) inside drained
  | clear was =>
      refine represents.of_agree countedNext (fun _ _ => Iff.rfl) (by simp [was]) ?_
      intro other member _ waits
      rw [was] at waits
      exact Fin.le_def.2 (Fin.lt_def.1 waits)

theorem enter (represents : Represents phaser state) {activity : α}
    (moves : phaser.Moves (some (.enter activity)) next) (fits : Fits next) :
    activity ∉ state.inside ∧
      Represents next { state with inside := insert activity state.inside } := by
  rcases represents.counted with ⟨members, counted⟩
  have countedNext := Phaser.exists_counted_of_moves counted moves fits
  cases moves with
  | @add _ phase was =>
      have outside : activity ∉ state.inside := by simp [represents.mem_inside, was]
      refine ⟨outside, countedNext, ?_, represents.awaited_eq_none, ?_⟩
      · intro other
        by_cases same : other = activity
        · simp [Phaser.move, same]
        · simp [Phaser.move, same, represents.mem_inside]
      · intro activities other awaited member
        rcases represents.pending activities other awaited member with ⟨otherPhase, inside, waits⟩
        have different : other ≠ activity := by
          rintro rfl
          rw [was] at inside
          cases inside
        exact ⟨otherPhase, by simpa [Phaser.move, different] using inside, waits⟩

/-- What remains when an activity has left, wherever it goes. -/
theorem left (represents : Represents phaser state) {activity : α} {phase : Phase}
    {position : Position}
    (countedNext : ∃ members, ((phaser.store phase (phaser.counter phase + -1)).move activity
      position).Counted members)
    (isNot : ∀ phase, position ≠ .inside phase) :
    Represents ((phaser.store phase (phaser.counter phase + -1)).move activity position)
      ⟨state.inside \ {activity},
        state.awaited.map fun activities => activities \ {activity}⟩ where
  counted := countedNext
  mem_inside other := by
    by_cases same : other = activity
    · simp [Phaser.move, same, isNot]
    · simp [Phaser.move, same, represents.mem_inside]
  awaited_eq_none := by
    rw [Option.map_eq_none_iff, represents.awaited_eq_none]
    rfl
  pending activities other awaited member := by
    rcases Option.map_eq_some_iff.1 awaited with ⟨before, awaitedBefore, rfl⟩
    rcases member with ⟨memberBefore, different⟩
    rcases represents.pending before other awaitedBefore memberBefore with
      ⟨otherPhase, inside, waits⟩
    refine ⟨otherPhase, ?_, waits⟩
    simpa [Phaser.move, show other ≠ activity from different] using inside

theorem exit (represents : Represents phaser state) {activity : α}
    (moves : phaser.Moves (some (.exit activity)) next) (fits : Fits next) :
    activity ∈ state.inside ∧
      Represents next ⟨state.inside \ {activity},
        state.awaited.map fun activities => activities \ {activity}⟩ := by
  rcases represents.counted with ⟨members, counted⟩
  have countedNext := Phaser.exists_counted_of_moves counted moves fits
  cases moves with
  | leave was =>
      exact ⟨(represents.mem_inside activity).2 ⟨_, was⟩,
        represents.left countedNext (by simp)⟩
  | leaveLast was =>
      exact ⟨(represents.mem_inside activity).2 ⟨_, was⟩,
        represents.left countedNext (by simp)⟩

theorem drain (represents : Represents phaser state) (moves : phaser.Moves (some .drain) next)
    (fits : Fits next) :
    state.awaited = none ∧ Represents next { state with awaited := some state.inside } := by
  rcases represents.counted with ⟨members, counted⟩
  have countedNext := Phaser.exists_counted_of_moves counted moves fits
  cases moves with
  | drain was =>
      refine ⟨represents.awaited_eq_none.2 was, countedNext, represents.mem_inside, by simp, ?_⟩
      intro activities activity awaited member
      obtain rfl := Option.some.inj awaited
      rcases (represents.mem_inside activity).1 member with ⟨phase, inside⟩
      exact ⟨phase, inside, Fin.zero_le phase⟩

theorem drained (represents : Represents phaser state)
    (moves : phaser.Moves (some .drained) next) (fits : Fits next) :
    state.awaited = some ∅ ∧ Represents next { state with awaited := none } := by
  rcases represents.counted with ⟨members, counted⟩
  have countedNext := Phaser.exists_counted_of_moves counted moves fits
  cases moves with
  | finish was =>
      refine ⟨?_, countedNext, represents.mem_inside, by simp, by simp⟩
      cases awaited : state.awaited with
      | none =>
          have idle := represents.awaited_eq_none.1 awaited
          rw [was] at idle
          cases idle
      | some activities =>
          congr 1
          ext activity
          simp only [Set.mem_empty_iff_false, iff_false]
          intro member
          rcases represents.pending activities activity awaited member with ⟨phase, _, waits⟩
          rw [was] at waits
          exact absurd phase.isLt (Nat.not_lt.2 (Fin.lt_def.1 waits))

end Represents

theorem phaser_simulation (α : Type u) [DecidableEq α] :
    LabelledSystem.Simulation (phaserSystem α) (GracePeriod.system α) Represents where
  initial := by
    rintro phaser rfl
    exact ⟨⟨∅, none⟩, rfl, ⟨_, Phaser.counted_init⟩, by simp [Phaser.init],
      by simp [Phaser.init], by simp⟩
  own := by
    rintro phaser state next represents ⟨⟨action, reacts⟩, fits⟩
    exact Or.inl (represents.own (Phaser.moves_of_react reacts) fits)
  labelled := by
    rintro phaser state label next represents ⟨⟨action, reacts⟩, fits⟩
    have moves := Phaser.moves_of_react reacts
    cases label with
    | enter activity =>
        rcases represents.enter moves fits with ⟨outside, after⟩
        exact ⟨_, ⟨outside, rfl⟩, after⟩
    | exit activity =>
        rcases represents.exit moves fits with ⟨inside, after⟩
        exact ⟨_, ⟨inside, rfl⟩, after⟩
    | drain =>
        rcases represents.drain moves fits with ⟨idle, after⟩
        exact ⟨_, ⟨idle, rfl⟩, after⟩
    | drained =>
        rcases represents.drained moves fits with ⟨finished, after⟩
        exact ⟨_, ⟨finished, rfl⟩, after⟩

/-- Between the call of `phaser_drain` and its return, every activity calls `phaser_exit` which
was inside at the call. -/
theorem phaserDrain_waits {α : Type u} [DecidableEq α] {before between after : List (Event α)}
    {activity : α}
    (trace : (phaserSystem α).Trace (before ++ .drain :: between ++ .drained :: after))
    (inside : GracePeriod.InsideAfter activity before) : .exit activity ∈ between :=
  GracePeriod.exit_mem_of_trace ((phaser_simulation α).trace trace) inside

/-- The second activity enters while the first phase is drained, and leaves in time. -/
theorem phaserDrain_waits_bothPhases :
    (phaserSystem Bool).Trace ([.enter true] ++
      .drain :: [.enter false, .exit true, .exit false] ++ .drained :: []) ∧
    Event.exit true ∈ [Event.enter false, .exit true, .exit false] := by
  have trace : (phaserSystem Bool).Trace ([.enter true] ++
      .drain :: [.enter false, .exit true, .exit false] ++ .drained :: []) :=
    (@realizes_phaserSystem Bool _ _ (by decide)).trace rfl
      [.enter true, .run true, .run true, .drain, .runDrain, .runDrain,
        .enter false, .run false, .run false, .run false, .exit true, .run true,
        .runDrain, .runDrain, .runDrain, .runDrain, .exit false,
        .runDrain, .runDrain, .runDrain, .runDrain] (by decide)
  exact ⟨trace, phaserDrain_waits trace ⟨[], [], rfl, by simp⟩⟩

end AndroidCollection.Linker
