import AndroidCollection.Linker.Draining

/-!
# Progress of a phaser

A drain which sleeps is never forgotten: somebody is still inside the phase it drains,
or is about to wake it. While a phase is drained it gets no newcomers, except for those
who had found it admitting before; each of them passes at most once. When all are out,
the operations of the drain alone bring it to its end. An activity which enters is
refused by one phase at most.
-/

universe u

namespace AndroidCollection.Linker

open GracePeriod (Event)

namespace Phaser

variable {α : Type u} [DecidableEq α] {phaser next : Phaser α} {label : Option (Event α)}
  {phase : Phase} {activity : α}

/-! ## Waking -/

omit [DecidableEq α] in
/-- The count is not zero, or the one who made it zero is about to wake the drain. -/
def AwakeAt (phaser : Phaser α) (phase : Phase) : Prop :=
  phaser.counter phase ≠ COUNT_DRAINED ∨ ∃ activity, phaser.position activity = .waking phase

omit [DecidableEq α] in
def Awake (phaser : Phaser α) : Prop :=
  ∀ phase, phaser.drainer = .sleeping phase → phaser.AwakeAt phase

theorem AwakeAt.move (awake : phaser.AwakeAt phase) {position : Position}
    (wasNot : phaser.position activity ≠ .waking phase) :
    (phaser.move activity position).AwakeAt phase := by
  rcases awake with undrained | ⟨waker, wakes⟩
  · exact Or.inl undrained
  · have different : waker ≠ activity := by
      rintro rfl
      exact wasNot wakes
    exact Or.inr ⟨waker, by simpa [Phaser.move, different] using wakes⟩

omit [DecidableEq α] in
theorem AwakeAt.store (awake : phaser.AwakeAt phase) {other : Phase} (different : phase ≠ other)
    (value : SizeT) : (phaser.store other value).AwakeAt phase := by
  rcases awake with undrained | waker
  · exact Or.inl (by simpa [Phaser.store, different] using undrained)
  · exact Or.inr waker

theorem awake_of_moves {members : Phase → Finset α} (counted : next.Counted members)
    (awake : phaser.Awake) (moves : phaser.Moves label next) : next.Awake := by
  cases moves with
  | call was => exact fun phase sleeps => (awake phase sleeps).move (by simp [was])
  | letIn was => exact fun phase sleeps => (awake phase sleeps).move (by simp [was])
  | refuse was => exact fun phase sleeps => (awake phase sleeps).move (by simp [was])
  | @add activity phase was =>
      intro other sleeps
      by_cases same : other = phase
      · subst same
        have inside : ((phaser.store other (phaser.counter other + 1)).move activity
            (.inside other)).position activity = .inside other := by simp [Phaser.move]
        exact Or.inl (counted.counter_ne (by rw [sleeps]; rfl) inside)
      · exact ((awake other sleeps).store same _).move (by simp [was])
  | @leave activity phase was remain =>
      intro other sleeps
      by_cases same : other = phase
      · subst same
        exact Or.inl (by simpa [Phaser.store] using remain)
      · exact ((awake other sleeps).store same _).move (by simp [was])
  | @leaveLast activity phase was last =>
      intro other sleeps
      by_cases same : other = phase
      · subst same
        exact Or.inr ⟨activity, by simp [Phaser.move]⟩
      · exact ((awake other sleeps).store same _).move (by simp [was])
  | @wake activity phase was =>
      intro other sleeps
      unfold futexWake at sleeps ⊢
      split at sleeps
      · cases sleeps
      · next notHere =>
          rw [if_neg notHere]
          refine (awake other sleeps).move ?_
          rw [was]
          rintro ⟨⟩
          exact notHere sleeps
  | sleep was undrained =>
      rintro other sleeps
      cases sleeps
      exact Or.inl undrained
  | drain | set | found | miss | interrupt | reload | clear | finish =>
      intro other sleeps
      cases sleeps

/-- In every reachable state the counters are counts and the drain is not forgotten. -/
theorem counted_and_awake_of_reachable (reachable : (phaserSystem α).Reachable phaser) :
    (∃ members, phaser.Counted members) ∧ phaser.Awake := by
  refine reachable.invariant
    (fun phaser => (∃ members, phaser.Counted members) ∧ phaser.Awake) ?_ ?_
  · rintro _ rfl
    refine ⟨⟨_, counted_init⟩, fun phase sleeps => ?_⟩
    cases sleeps
  · rintro before label after ⟨⟨members, counted⟩, awake⟩ ⟨⟨action, reacts⟩, fits⟩
    have moves := moves_of_react reacts
    rcases exists_counted_of_moves counted moves fits with ⟨later, countedLater⟩
    exact ⟨⟨later, countedLater⟩, awake_of_moves countedLater awake moves⟩

/-- A drain sleeps only as long as somebody is inside the phase or is about to wake it. -/
theorem inside_or_waking_of_sleeping (reachable : (phaserSystem α).Reachable phaser)
    (sleeps : phaser.drainer = .sleeping phase) :
    ∃ activity, phaser.position activity = .inside phase ∨
      phaser.position activity = .waking phase := by
  rcases counted_and_awake_of_reachable reachable with ⟨⟨members, counted⟩, awake⟩
  rcases awake phase sleeps with undrained | ⟨waker, wakes⟩
  · have count := counted.counter phase
    rw [Drainer.bit_of_draining (by rw [sleeps]; rfl)] at count
    have some : (members phase).card ≠ 0 := by
      intro none
      rw [none, Nat.zero_add] at count
      exact undrained (eq_COUNT_DRAINED_iff.2 count)
    rcases Finset.card_pos.1 (Nat.pos_of_ne_zero some) with ⟨activity, member⟩
    exact ⟨activity, Or.inl ((counted.mem_iff phase activity).1 member)⟩
  · exact ⟨waker, Or.inr wakes⟩

theorem inside_or_waking_of_sleeping_oneInside : ∃ phaser : Phaser Bool,
    (phaserSystem Bool).Reachable phaser ∧ phaser.drainer = .sleeping 0 ∧
      ∃ activity, phaser.position activity = .inside 0 ∨ phaser.position activity = .waking 0 := by
  rcases (@realizes_phaserSystem Bool _ _ (by decide)).exists_reachable _ rfl
    [.enter true, .run true, .run true, .drain, .runDrain, .runDrain]
    (fun phaser => phaser.drainer = .sleeping 0) (by decide) with ⟨phaser, reachable, sleeps⟩
  exact ⟨phaser, reachable, sleeps, inside_or_waking_of_sleeping reachable sleeps⟩

/-! ## The end of a drain -/

omit [DecidableEq α] in
/-- The operations of the drain alone bring it to its end. -/
inductive Ends : Phaser α → Prop where
  | idle {phaser : Phaser α} (idle : phaser.drainer = .idle) : Ends phaser
  | step {phaser next : Phaser α} {label : Option (Event α)}
      (ran : phaser.phaserDrain = some (label, next)) (ends : Ends next) : Ends phaser

omit [DecidableEq α] in
structure Quiet (phaser : Phaser α) : Prop where
  counted : ∃ members, phaser.Counted members
  nobody : ∀ activity phase, phaser.position activity ≠ .inside phase

omit [DecidableEq α] in
theorem Quiet.toNat_counter (quiet : phaser.Quiet) (phase : Phase) :
    (phaser.counter phase).toNat = phaser.drainer.bit phase := by
  rcases quiet.counted with ⟨members, counted⟩
  have none : members phase = ∅ := Finset.eq_empty_of_forall_notMem fun activity member =>
    quiet.nobody activity phase ((counted.mem_iff phase activity).1 member)
  rw [counted.counter, none, Finset.card_empty, Nat.zero_add]

omit [DecidableEq α] in
theorem Quiet.counter_eq (quiet : phaser.Quiet) (drains : phaser.drainer.draining = some phase) :
    phaser.counter phase = COUNT_DRAINED := by
  rw [eq_COUNT_DRAINED_iff, quiet.toNat_counter, Drainer.bit_of_draining drains]

omit [DecidableEq α] in
theorem position_of_phaserDrain (ran : phaser.phaserDrain = some (label, next)) :
    next.position = phaser.position := by
  unfold phaserDrain at ran
  split at ran
  · cases ran
  · cases ran
    rfl
  · split at ran
    · cases ran
      rfl
    · split at ran <;> cases ran <;> rfl
  · cases ran
  · cases ran
    rfl
  · split at ran <;> cases ran <;> rfl

theorem Quiet.phaserDrain (quiet : phaser.Quiet)
    (ran : phaser.phaserDrain = some (label, next)) : next.Quiet := by
  have nobody : ∀ activity phase, next.position activity ≠ .inside phase := by
    rw [position_of_phaserDrain ran]
    exact quiet.nobody
  have fits : Fits next := by
    intro activities all
    have none : activities = ∅ := Finset.eq_empty_of_forall_notMem fun activity member => by
      rcases all activity member with ⟨phase, inside⟩
      exact nobody activity phase inside
    simp [none]
  rcases quiet.counted with ⟨members, counted⟩
  exact ⟨exists_counted_of_moves counted (moves_of_phaserDrain ran) fits, nobody⟩

theorem ends_of_reloading
    (ends : ∀ phaser : Phaser α, phaser.Quiet → phaser.drainer = .clearing phase → phaser.Ends)
    (quiet : phaser.Quiet) (reloads : phaser.drainer = .reloading phase) : phaser.Ends := by
  have drained := quiet.counter_eq (by rw [reloads]; rfl : _ = some phase)
  have reload : phaser.phaserDrain =
      some (none, { phaser with drainer := .waiting phase COUNT_DRAINED }) := by
    simp [Phaser.phaserDrain, reloads, drained]
  have found : Phaser.phaserDrain { phaser with drainer := .waiting phase COUNT_DRAINED } =
      some (none, { phaser with drainer := .clearing phase }) := by
    simp [Phaser.phaserDrain]
  exact .step reload (.step found (ends _ ((quiet.phaserDrain reload).phaserDrain found) rfl))

theorem ends_of_waiting {value : SizeT}
    (ends : ∀ phaser : Phaser α, phaser.Quiet → phaser.drainer = .clearing phase → phaser.Ends)
    (quiet : phaser.Quiet) (waits : phaser.drainer = .waiting phase value) : phaser.Ends := by
  have drained := quiet.counter_eq (by rw [waits]; rfl : _ = some phase)
  by_cases seen : value = COUNT_DRAINED
  · have found : phaser.phaserDrain = some (none, { phaser with drainer := .clearing phase }) := by
      simp [Phaser.phaserDrain, waits, seen]
    exact .step found (ends _ (quiet.phaserDrain found) rfl)
  · have miss : phaser.phaserDrain = some (none, { phaser with drainer := .reloading phase }) := by
      simp [Phaser.phaserDrain, waits, seen, drained, Ne.symm seen]
    exact .step miss (ends_of_reloading ends (quiet.phaserDrain miss) rfl)

theorem ends_of_setting
    (ends : ∀ phaser : Phaser α, phaser.Quiet → phaser.drainer = .clearing phase → phaser.Ends)
    (quiet : phaser.Quiet) (sets : phaser.drainer = .setting phase) : phaser.Ends := by
  have set : ∃ value, phaser.phaserDrain =
      some (none, { phaser.store phase value with drainer := .waiting phase value }) :=
    ⟨_, by simp only [Phaser.phaserDrain, sets]; rfl⟩
  rcases set with ⟨value, set⟩
  exact .step set (ends_of_waiting ends (quiet.phaserDrain set) rfl)

omit [DecidableEq α] in
theorem ends_of_clearing_one (clears : phaser.drainer = .clearing 1) : phaser.Ends := by
  have finish : ∃ next, phaser.phaserDrain = some (some .drained, next) ∧ next.drainer = .idle :=
    ⟨_, by simp only [Phaser.phaserDrain, clears]; rfl, rfl⟩
  rcases finish with ⟨next, finish, idle⟩
  exact .step finish (.idle idle)

theorem ends_of_clearing (phaser : Phaser α) (quiet : phaser.Quiet)
    (clears : phaser.drainer = .clearing phase) : phaser.Ends := by
  match phase, clears with
  | 1, clears => exact ends_of_clearing_one clears
  | 0, clears =>
      have clear : ∃ next, phaser.phaserDrain = some (none, next) ∧ next.drainer = .setting 1 :=
        ⟨_, by simp only [Phaser.phaserDrain, clears]; rfl, rfl⟩
      rcases clear with ⟨next, clear, sets⟩
      exact .step clear (ends_of_setting (fun _ _ => ends_of_clearing_one)
        (quiet.phaserDrain clear) sets)

/-- When nobody is inside and nobody is about to wake the drain, it ends by itself. -/
theorem ends_of_reachable (reachable : (phaserSystem α).Reachable phaser)
    (nobody : ∀ activity phase, phaser.position activity ≠ .inside phase ∧
      phaser.position activity ≠ .waking phase) : phaser.Ends := by
  have quiet : phaser.Quiet :=
    ⟨(counted_and_awake_of_reachable reachable).1, fun activity phase => (nobody activity phase).1⟩
  cases was : phaser.drainer with
  | idle => exact .idle was
  | setting phase => exact ends_of_setting ends_of_clearing quiet was
  | waiting phase value => exact ends_of_waiting ends_of_clearing quiet was
  | sleeping phase =>
      rcases inside_or_waking_of_sleeping reachable was with ⟨activity, inside | wakes⟩
      · exact absurd inside (nobody activity phase).1
      · exact absurd wakes (nobody activity phase).2
  | reloading phase => exact ends_of_reloading ends_of_clearing quiet was
  | clearing phase => exact ends_of_clearing phaser quiet was

theorem ends_of_reachable_allLeft : ∃ phaser : Phaser Bool,
    (phaserSystem Bool).Reachable phaser ∧ phaser.drainer = .reloading 0 ∧ phaser.Ends := by
  rcases (@realizes_phaserSystem Bool _ _ (by decide)).exists_reachable _ rfl
    [.enter true, .run true, .run true, .drain, .runDrain, .runDrain, .exit true, .run true]
    (fun phaser => phaser.drainer = .reloading 0 ∧ ∀ activity phase,
      phaser.position activity ≠ .inside phase ∧ phaser.position activity ≠ .waking phase)
    (by decide) with ⟨phaser, reachable, reloads, nobody⟩
  exact ⟨phaser, reachable, reloads, ends_of_reachable reachable nobody⟩

/-! ## Entering -/

/-- The operations of an activity which runs alone. -/
def runAlone (activity : α) : ℕ → Phaser α → Option (Phaser α)
  | 0, phaser => some phaser
  | steps + 1, phaser => (phaser.run activity).bind fun ran => runAlone activity steps ran.2

omit [DecidableEq α] in
theorem fits_init : Fits (init : Phaser α) := by
  intro activities all
  have none : activities = ∅ := Finset.eq_empty_of_forall_notMem fun activity member => by
    rcases all activity member with ⟨phase, inside⟩
    cases inside
  simp [none]

theorem fits_of_reachable (reachable : (phaserSystem α).Reachable phaser) : Fits phaser := by
  rcases reachable with ⟨_, labels, rfl, run⟩
  exact run.allowed fits_init

omit [DecidableEq α] in
theorem Counted.admits_iff {members : Phase → Finset α} (counted : phaser.Counted members)
    (fits : Fits phaser) :
    phaser.counter phase &&& DRAINING = 0 ↔ phaser.drainer.draining ≠ some phase := by
  have small := counted.card_lt fits phase
  rw [and_DRAINING_eq_zero_iff, counted.counter, Drainer.bit]
  split
  · next drains => simp [drains]
  · next admits => simpa [admits] using small

/-- A counter has the bit `DRAINING` exactly while its phase is drained. -/
theorem admits_iff_of_reachable (reachable : (phaserSystem α).Reachable phaser) :
    phaser.counter phase &&& DRAINING = 0 ↔ phaser.drainer.draining ≠ some phase := by
  rcases (counted_and_awake_of_reachable reachable).1 with ⟨members, counted⟩
  exact counted.admits_iff (fits_of_reachable reachable)

theorem runAlone_of_admits (was : phaser.position activity = .loading phase)
    (admits : phaser.counter phase &&& DRAINING = 0) :
    ∃ next, runAlone activity 2 phaser = some next ∧ next.position activity = .inside phase := by
  simp [runAlone, run, was, tryInc, admits, move]

/-- An activity which runs alone is inside after three operations at most. -/
theorem exists_runAlone_of_reachable (reachable : (phaserSystem α).Reachable phaser)
    (was : phaser.position activity = .loading phase) :
    ∃ steps, steps ≤ 3 ∧ ∃ next, runAlone activity steps phaser = some next ∧
      ∃ entered, next.position activity = .inside entered := by
  by_cases admits : phaser.counter phase &&& DRAINING = 0
  · rcases runAlone_of_admits was admits with ⟨next, ran, inside⟩
    exact ⟨2, by omega, next, ran, phase, inside⟩
  · have drains : phaser.drainer.draining = some phase :=
      not_not.1 (mt (admits_iff_of_reachable reachable).2 admits)
    have different : ∀ phase : Phase, phase ≠ phase + 1 := by decide
    have admitsOther : phaser.counter (phase + 1) &&& DRAINING = 0 := by
      rw [admits_iff_of_reachable reachable, drains, ne_eq, Option.some.injEq]
      exact different phase
    have refused : phaser.run activity =
        some (none, phaser.move activity (.loading (phase + 1))) := by
      simp [run, was, tryInc, admits]
    have again : (phaser.move activity (.loading (phase + 1))).position activity =
        .loading (phase + 1) := by simp [move]
    rcases runAlone_of_admits again admitsOther with ⟨next, ran, inside⟩
    refine ⟨3, le_refl 3, next, ?_, phase + 1, inside⟩
    rw [runAlone, refused]
    exact ran

theorem exists_runAlone_of_reachable_refused : ∃ phaser : Phaser Bool,
    (phaserSystem Bool).Reachable phaser ∧ phaser.drainer.draining = some 0 ∧
      phaser.position false = .loading 0 ∧
      ∃ steps, steps ≤ 3 ∧ ∃ next, runAlone false steps phaser = some next ∧
        ∃ entered, next.position false = .inside entered := by
  rcases (@realizes_phaserSystem Bool _ _ (by decide)).exists_reachable _ rfl
    [.enter true, .run true, .run true, .drain, .runDrain, .enter false]
    (fun phaser => phaser.drainer.draining = some 0 ∧ phaser.position false = .loading 0)
    (by decide) with ⟨phaser, reachable, drains, loads⟩
  exact ⟨phaser, reachable, drains, loads, exists_runAlone_of_reachable reachable loads⟩

/-! ## Newcomers -/

omit [DecidableEq α] in
/-- The activity is inside the phase, or has found that it admits it. -/
def Within (phaser : Phaser α) (phase : Phase) (activity : α) : Prop :=
  phaser.position activity = .adding phase ∨ phaser.position activity = .inside phase

theorem within_of_move {position : Position} {other : α}
    (within : (phaser.move other position).Within phase activity)
    (isNot : position ≠ .adding phase ∧ position ≠ .inside phase) :
    phaser.Within phase activity ∧ activity ≠ other := by
  have different : activity ≠ other := by
    rintro rfl
    simp [Within, move, isNot] at within
  exact ⟨by simpa [Within, move, different] using within, different⟩

/-- A phase which refuses gets nobody, and who leaves it does not come back. -/
theorem within_of_moves (moves : phaser.Moves label next)
    (refuses : phaser.counter phase &&& DRAINING ≠ 0) (within : next.Within phase activity) :
    phaser.Within phase activity ∧ label ≠ some (.exit activity) := by
  cases moves with
  | call | refuse => exact ⟨(within_of_move within (by simp)).1, by simp⟩
  | wake =>
      refine ⟨?_, by simp⟩
      have before := (within_of_move within (by simp)).1
      unfold futexWake at before
      split at before <;> exact before
  | @letIn other admitting was admits =>
      have different : admitting ≠ phase := by
        rintro rfl
        exact refuses admits
      exact ⟨(within_of_move within (by simp [different])).1, by simp⟩
  | @add other admitted was =>
      refine ⟨?_, by simp⟩
      by_cases same : activity = other
      · subst same
        have here : admitted = phase := by simpa [Within, move] using within
        exact Or.inl (by rw [was, here])
      · simpa [Within, move, same] using within
  | leave | leaveLast =>
      rcases within_of_move within (by simp) with ⟨before, different⟩
      exact ⟨before, by simp [Ne.symm different]⟩
  | drain | set | found | sleep | miss | interrupt | reload | clear | finish =>
      exact ⟨within, by simp⟩

/-- While a phase is drained nobody gets into it who had not found it admitting before, and
nobody who has left it. -/
theorem no_newcomers {labels : List (Event α)} (reachable : (phaserSystem α).Reachable phaser)
    (drains : phaser.drainer.draining = some phase)
    (run : ((phaserSystem α).within fun later => later.drainer.draining = some phase).Run
      phaser labels next)
    (within : next.Within phase activity) :
    phaser.Within phase activity ∧ .exit activity ∉ labels := by
  have refuses {middle : Phaser α} {earlier : List (Event α)}
      (part : ((phaserSystem α).within fun later => later.drainer.draining = some phase).Run
        phaser earlier middle) : middle.counter phase &&& DRAINING ≠ 0 := by
    rw [ne_eq, admits_iff_of_reachable (part.of_within.reachable reachable), not_not]
    exact part.allowed drains
  induction run with
  | refl => exact ⟨within, by simp⟩
  | own part step ih =>
      rcases step with ⟨⟨⟨action, reacts⟩, _⟩, _⟩
      exact ih (within_of_moves (moves_of_react reacts) (refuses part) within).1
  | labelled part step ih =>
      rcases step with ⟨⟨⟨action, reacts⟩, _⟩, _⟩
      rcases within_of_moves (moves_of_react reacts) (refuses part) within with ⟨before, stays⟩
      rcases ih before with ⟨since, notEarlier⟩
      refine ⟨since, ?_⟩
      rw [List.mem_append, List.mem_singleton, not_or]
      exact ⟨notEarlier, fun same => stays (by rw [same])⟩

theorem no_newcomers_nextPhase : ∃ phaser next : Phaser Bool, ∃ labels,
    (phaserSystem Bool).Reachable phaser ∧ phaser.drainer.draining = some 0 ∧
      ((phaserSystem Bool).within fun later => later.drainer.draining = some 0).Run
        phaser labels next ∧
      next.Within 0 true ∧ phaser.Within 0 true ∧ .exit true ∉ labels := by
  have realizes := @realizes_phaserSystem Bool _ _ (by decide)
  have realizesWithin := realizes.restrict fun later => later.drainer.draining = some 0
  rcases realizes.exists_reachable _ rfl [.enter true, .run true, .run true, .drain, .runDrain]
    (fun phaser => phaser.drainer.draining = some 0 ∧
      (LabelledSystem.replay (LabelledSystem.restrict react fun later =>
        later.drainer.draining = some 0) [.enter false, .run false, .run false, .run false]
          phaser).any fun (_, next) => next.position true = .inside 0)
    (by decide) with ⟨phaser, reachable, drains, replayed⟩
  rcases realizesWithin.exists_run _ _ (fun _ next => next.position true = .inside 0) replayed with
    ⟨labels, next, run, inside⟩
  exact ⟨phaser, next, labels, reachable, drains, run, Or.inr inside,
    no_newcomers reachable drains run (Or.inr inside)⟩

end Phaser

end AndroidCollection.Linker
