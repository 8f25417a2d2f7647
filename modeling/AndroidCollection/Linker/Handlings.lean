import AndroidCollection.Linker.Draining
import AndroidCollection.Linker.Registrations

/-!
# What a handling may touch

A handling takes its pointers from the ring, or from a node which it has a pointer to. All
of them are linked, or were when the handling was already inside. So a registration is freed
when nobody has a pointer to it, because its owner has drained the phaser before. This is
proved for the multiplexer with grace periods, and then holds for it with the phaser.
-/

universe u v w

namespace AndroidCollection.Linker

open GracePeriod (Event)

variable {α : Type u} {ρ : Type v} {η : Type w} {sigmux next : Sigmux α ρ η}
  {grace later : GracePeriod.State α} {label : Option (Event α)} {activity other : α}
  {registration : ρ}

namespace Sigmux

/-- Handlings with the activity may have pointers to the registration. -/
def Protected (sigmux : Sigmux α ρ η) (grace : GracePeriod.State α) (activity : α)
    (registration : ρ) : Prop :=
  (sigmux.stage registration).linked ∨
    (sigmux.stage registration).bypassed ∧
      (sigmux.stage registration = .draining →
        ∃ awaited, grace.awaited = some awaited ∧ activity ∈ awaited)

/-- The handling has a pointer to the registration, or has called its handler. -/
def Knows (sigmux : Sigmux α ρ η) (activity : α) (registration : ρ) : Prop :=
  registration ∈ (sigmux.handling activity).pointers ∨ registration ∈ sigmux.calls activity

structure Guarded (sigmux : Sigmux α ρ η) (grace : GracePeriod.State α) : Prop where
  sound : ∃ list, sigmux.Sound list
  inside_iff : ∀ activity, activity ∈ grace.inside ↔ (sigmux.handling activity).inside
  protect : ∀ activity, (sigmux.handling activity).inside → ∀ registration,
    sigmux.Knows activity registration → sigmux.Protected grace activity registration
  entering : ∀ activity request, sigmux.handling activity = .entering request →
    sigmux.calls activity = []
  fault : sigmux.fault = false

theorem Protected.linked_or_bypassed
    (protect : sigmux.Protected grace activity registration) :
    (sigmux.stage registration).linked ∨ (sigmux.stage registration).bypassed :=
  protect.imp id fun bypassed => bypassed.1

theorem Protected.of_stage (protect : sigmux.Protected grace activity registration)
    (stage : next.stage registration = sigmux.stage registration)
    (stays : ∀ awaited, grace.awaited = some awaited → activity ∈ awaited →
      sigmux.stage registration = .draining →
        ∃ awaitedLater, later.awaited = some awaitedLater ∧ activity ∈ awaitedLater) :
    next.Protected later activity registration := by
  rcases protect with linked | ⟨bypassed, waits⟩
  · exact Or.inl (by rwa [stage])
  · refine Or.inr ⟨by rwa [stage], fun draining => ?_⟩
    rw [stage] at draining
    rcases waits draining with ⟨awaited, isAwaited, member⟩
    exact stays awaited isAwaited member draining

end Sigmux

/-- The grace periods take the labelled steps together with the multiplexer. -/
def Together (label : Option (Event α)) (grace later : GracePeriod.State α) : Prop :=
  match label with
  | none => later = grace
  | some event => GracePeriod.Step grace (some event) later

namespace Handling

variable {request : Request} {reglist : Option ρ} {pass : Pass}

theorem inside_of_mem_pointers {handling : Handling ρ}
    (pointer : registration ∈ handling.pointers) : handling.inside := by
  cases handling <;> first | rfl | cases pointer

theorem mem_pointers_startLow (pointer : registration ∈ (startLow request reglist).pointers) :
    reglist = some registration := by
  unfold startLow at pointer
  split at pointer
  · simpa [pointers] using pointer
  · cases pointer

theorem mem_pointers_startNormal
    (pointer : registration ∈ (startNormal request reglist).pointers) :
    reglist = some registration := by
  unfold startNormal at pointer
  split at pointer
  · simpa [pointers] using pointer
  · exact mem_pointers_startLow pointer

theorem mem_pointers_passed (pointer : registration ∈ (passed request reglist pass).pointers) :
    reglist = some registration := by
  cases pass with
  | normal => exact mem_pointers_startLow pointer
  | low => cases pointer

theorem inside_startLow : (startLow request reglist).inside := by
  unfold startLow
  split <;> rfl

theorem inside_startNormal : (startNormal request reglist).inside := by
  unfold startNormal
  split
  · rfl
  · exact inside_startLow

theorem inside_passed : (passed request reglist pass).inside := by
  cases pass with
  | normal => exact inside_startLow
  | low => rfl

end Handling

namespace Sigmux

variable [DecidableEq α] {handling : Handling ρ} {calls : List ρ}

theorem handling_read_self :
    ((sigmux.setHandling activity handling).record activity calls).handling activity =
      handling := by
  simp [setHandling, record]

theorem handling_read_of_ne (different : other ≠ activity) :
    ((sigmux.setHandling activity handling).record activity calls).handling other =
      sigmux.handling other := by
  simp [setHandling, record, different]

theorem calls_read_self :
    ((sigmux.setHandling activity handling).record activity calls).calls activity = calls := by
  simp [setHandling, record]

theorem calls_read_of_ne (different : other ≠ activity) :
    ((sigmux.setHandling activity handling).record activity calls).calls other =
      sigmux.calls other := by
  simp [setHandling, record, different]

omit [DecidableEq α] in
/-- What a handling knows after a step it knew before, or it is linked. -/
theorem Guarded.known_of_reads (guarded : sigmux.Guarded grace)
    (reads : sigmux.Reads activity label handling calls) (inside : handling.inside)
    (knows : registration ∈ handling.pointers ∨ registration ∈ calls) :
    (sigmux.handling activity).inside ∧ sigmux.Knows activity registration ∨
      (sigmux.stage registration).linked := by
  rcases guarded.sound with ⟨list, sound⟩
  cases reads with
  | signal => cases inside
  | enter was =>
      rcases knows with pointer | called
      · cases pointer
      · rw [guarded.entering activity _ was] at called
        cases called
  | load was =>
      rcases knows with pointer | called
      · exact Or.inr (sound.first_linked (Handling.mem_pointers_startNormal pointer))
      · exact Or.inl ⟨by rw [was]; rfl, Or.inr called⟩
  | pass was =>
      refine Or.inl ⟨by rw [was]; rfl, knows.imp (fun pointer => ?_) id⟩
      rw [was, Handling.mem_pointers_passed pointer]
      simp [Handling.pointers]
  | call was =>
      refine Or.inl ⟨by rw [was]; rfl, ?_⟩
      rcases knows with pointer | called
      · exact Or.inl (by rw [was]; exact pointer)
      · rcases List.mem_append.1 called with called | here
        · exact Or.inr called
        · refine Or.inl ?_
          rw [was, List.mem_singleton.1 here]
          simp [Handling.pointers]
  | skip was =>
      exact Or.inl ⟨by rw [was]; rfl, knows.imp (fun pointer => by rw [was]; exact pointer) id⟩
  | answer was =>
      exact Or.inl ⟨by rw [was]; rfl, knows.imp (fun pointer => by rw [was]; exact pointer) id⟩
  | @advance request reglist pass it was =>
      have insideBefore : (sigmux.handling activity).inside := by rw [was]; rfl
      have protectedIt := guarded.protect activity insideBefore it
        (Or.inl (by simp [was, Handling.pointers]))
      rcases knows with pointer | called
      · rcases List.mem_append.1 pointer with inReglist | here
        · refine Or.inl ⟨insideBefore, Or.inl ?_⟩
          rw [was]
          exact List.mem_append_left _ inReglist
        · exact Or.inr (sound.next_linked protectedIt.linked_or_bypassed
            (Option.mem_toList.1 here))
      · exact Or.inl ⟨insideBefore, Or.inr called⟩
  | stop was =>
      rcases knows with pointer | called
      · cases pointer
      · exact Or.inl ⟨by rw [was]; rfl, Or.inr called⟩
  | exit => cases inside

omit [DecidableEq α] in
/-- A protected registration which a step leaves as it is stays protected. -/
theorem Protected.of_stages [DecidableEq ρ] {changed : ρ} {stage : Stage}
    (protect : sigmux.Protected grace activity registration)
    (stages : next.stage = Function.update sigmux.stage changed stage)
    (self : registration = changed → next.Protected grace activity registration) :
    next.Protected grace activity registration := by
  by_cases same : registration = changed
  · exact self same
  · exact protect.of_stage (by rw [stages, Function.update_of_ne same])
      fun awaited isAwaited member _ => ⟨awaited, isAwaited, member⟩

/-- Only its own exit takes the protection from a handling. -/
theorem Protected.of_moves [DecidableEq ρ] {list : List ρ} (sound : sigmux.Sound list)
    (protect : sigmux.Protected grace activity registration) (inside : activity ∈ grace.inside)
    (moves : sigmux.Moves label next) (together : Together label grace later)
    (stays : label ≠ some (.exit activity)) : next.Protected later activity registration := by
  have reachable := protect.linked_or_bypassed
  cases moves with
  | @read reader _ _ _ reads =>
      refine protect.of_stage rfl fun awaited isAwaited member _ => ?_
      cases reads with
      | enter =>
          rcases together with ⟨_, rfl⟩
          exact ⟨awaited, isAwaited, member⟩
      | exit =>
          rcases together with ⟨_, rfl⟩
          have different : activity ≠ reader := by
            rintro rfl
            exact stays rfl
          exact ⟨awaited \ {reader}, by simp [isAwaited], member, different⟩
      | signal | load | pass | call | skip | answer | advance | stop =>
          obtain rfl : later = grace := together
          exact ⟨awaited, isAwaited, member⟩
  | fail =>
      obtain rfl : later = grace := together
      exact protect
  | register was | lock was | free was =>
      obtain rfl : later = grace := together
      refine protect.of_stages rfl ?_
      rintro rfl
      simp [was, Stage.linked, Stage.bypassed] at reachable
  | unlock was =>
      obtain rfl : later = grace := together
      refine protect.of_stages rfl ?_
      rintro rfl
      simp [was, Stage.linked, Stage.bypassed] at reachable
  | prepare was =>
      obtain rfl : later = grace := together
      refine protect.of_stages (((relinks_setNext _ _ _).trans
        (relinks_setPrev _ _ _)).stage_setStage _) ?_
      rintro rfl
      simp [was, Stage.linked, Stage.bypassed] at reachable
  | setBack was =>
      obtain rfl : later = grace := together
      refine protect.of_stages ((relinks_setPrev _ _ _).stage_setStage _) ?_
      rintro rfl
      simp [was, Stage.linked, Stage.bypassed] at reachable
  | publish =>
      obtain rfl : later = grace := together
      refine protect.of_stages ((relinks_setNext _ _ _).stage_setStage _) ?_
      rintro rfl
      exact Or.inl (by simp [setStage, Stage.linked])
  | unregister | unlockNew | lockAgain =>
      obtain rfl : later = grace := together
      refine protect.of_stages rfl ?_
      rintro rfl
      exact Or.inl (by simp [setStage, Stage.linked])
  | bypass =>
      obtain rfl : later = grace := together
      refine protect.of_stages ((relinks_setNext _ _ _).stage_setStage _) ?_
      rintro rfl
      exact Or.inr (by simp [setStage, Stage.bypassed])
  | unhook =>
      obtain rfl : later = grace := together
      refine protect.of_stages ((relinks_setPrev _ _ _).stage_setStage _) ?_
      rintro rfl
      exact Or.inr (by simp [setStage, Stage.bypassed])
  | @drain draining was =>
      rcases together with ⟨_, rfl⟩
      by_cases same : registration = draining
      · subst same
        exact Or.inr ⟨by simp [setStage, Stage.bypassed], fun _ => ⟨_, rfl, inside⟩⟩
      · refine protect.of_stage (by simp [setStage, same]) fun awaited _ _ drains => ?_
        exact absurd (sound.eq_of_locked (by rw [drains]; rfl) (by rw [was]; rfl)) same
  | @drained draining was =>
      rcases together with ⟨finished, rfl⟩
      by_cases same : registration = draining
      · subst same
        rcases protect with linked | ⟨_, waits⟩
        · simp [was, Stage.linked] at linked
        · rcases waits was with ⟨awaited, isAwaited, member⟩
          rw [finished] at isAwaited
          cases isAwaited
          exact member.elim
      · refine protect.of_stage (by simp [setStage, same]) fun awaited _ _ drains => ?_
        exact absurd (sound.eq_of_locked (by rw [drains]; rfl) (by rw [was]; rfl)) same
  | exchange was =>
      refine protect.of_stage rfl fun awaited _ _ drains => ?_
      exact absurd (sound.locked registration (by rw [drains]; rfl)) (was registration)

/-- A step of the multiplexer is a step of one handling, or no handling changes. -/
theorem handling_of_moves [DecidableEq ρ] (moves : sigmux.Moves label next) :
    (∃ activity handling calls, sigmux.Reads activity label handling calls ∧
      next = (sigmux.setHandling activity handling).record activity calls) ∨
    next.handling = sigmux.handling ∧ next.calls = sigmux.calls ∧
      (label = none ∨ label = some .drain ∨ label = some .drained) := by
  cases moves with
  | read reads => exact Or.inl ⟨_, _, _, reads, rfl⟩
  | @prepare registration =>
      have relinks := (relinks_setNext sigmux (some registration) (sigmux.next none)).trans
        (relinks_setPrev _ (some registration) none)
      exact Or.inr ⟨relinks.handling, relinks.calls, Or.inl rfl⟩
  | setBack | unhook =>
      exact Or.inr ⟨(relinks_setPrev sigmux _ _).handling, (relinks_setPrev sigmux _ _).calls,
        Or.inl rfl⟩
  | publish | bypass =>
      exact Or.inr ⟨(relinks_setNext sigmux _ _).handling, (relinks_setNext sigmux _ _).calls,
        Or.inl rfl⟩
  | drain => exact Or.inr ⟨rfl, rfl, Or.inr (Or.inl rfl)⟩
  | drained => exact Or.inr ⟨rfl, rfl, Or.inr (Or.inr rfl)⟩
  | exchange _ _ drains => exact Or.inr ⟨rfl, rfl, drains⟩
  | fail | register | free | unregister | lock | lockAgain | unlockNew | unlock =>
      exact Or.inr ⟨rfl, rfl, Or.inl rfl⟩

omit [DecidableEq α] in
theorem inside_of_together (insideIff : activity ∈ grace.inside ↔ (sigmux.handling activity).inside)
    (together : Together label grace later)
    (drains : label = none ∨ label = some .drain ∨ label = some .drained) :
    activity ∈ later.inside ↔ (sigmux.handling activity).inside := by
  rcases drains with rfl | rfl | rfl
  · obtain rfl : later = grace := together
    exact insideIff
  · rcases together with ⟨_, rfl⟩
    exact insideIff
  · rcases together with ⟨_, rfl⟩
    exact insideIff

/-- A handling is inside for the phaser when it is for the multiplexer. -/
theorem Guarded.inside_of_reads (guarded : sigmux.Guarded grace)
    (reads : sigmux.Reads activity label handling calls) (together : Together label grace later) :
    other ∈ later.inside ↔
      (((sigmux.setHandling activity handling).record activity calls).handling other).inside := by
  have before := guarded.inside_iff
  by_cases same : other = activity
  · subst same
    rw [handling_read_self]
    cases reads with
    | signal was =>
        obtain rfl : later = grace := together
        rw [before, was]
        rfl
    | enter was =>
        rcases together with ⟨_, rfl⟩
        simp [Handling.inside]
    | load was =>
        obtain rfl : later = grace := together
        rw [before, was, Handling.inside_startNormal]
        rfl
    | pass was =>
        obtain rfl : later = grace := together
        rw [before, was, Handling.inside_passed]
        rfl
    | call was | skip was | answer was | advance was | stop was =>
        obtain rfl : later = grace := together
        simp [before, was, Handling.inside]
    | exit =>
        rcases together with ⟨_, rfl⟩
        simp [Handling.inside]
  · rw [handling_read_of_ne same]
    cases reads with
    | signal | load | pass | call | skip | answer | advance | stop =>
        obtain rfl : later = grace := together
        exact before other
    | enter =>
        rcases together with ⟨_, rfl⟩
        simp [same, before]
    | exit =>
        rcases together with ⟨_, rfl⟩
        simp [same, before]

omit [DecidableEq α] in
theorem entering_of_reads (reads : sigmux.Reads activity label handling calls) {request : Request}
    (entering : handling = .entering request) : calls = [] := by
  cases reads with
  | signal => rfl
  | load =>
      have notInside := congrArg Handling.inside entering
      rw [Handling.inside_startNormal] at notInside
      cases notInside
  | pass =>
      have notInside := congrArg Handling.inside entering
      rw [Handling.inside_passed] at notInside
      cases notInside
  | enter | call | skip | answer | advance | stop | exit => cases entering

theorem Guarded.of_reads [DecidableEq ρ] (guarded : sigmux.Guarded grace)
    (reads : sigmux.Reads activity label handling calls) (together : Together label grace later) :
    ((sigmux.setHandling activity handling).record activity calls).Guarded later := by
  rcases guarded.sound with ⟨list, sound⟩
  have moves := Moves.read reads
  have insideIff : ∀ other, other ∈ later.inside ↔ _ := fun _ =>
    guarded.inside_of_reads reads together
  refine ⟨(exists_sound_of_moves sound moves).imp fun _ => And.left, insideIff, ?_, ?_,
    guarded.fault⟩
  · intro reader inside registration knows
    by_cases same : reader = activity
    · subst same
      rw [handling_read_self] at inside
      rw [Knows, handling_read_self, calls_read_self] at knows
      rcases guarded.known_of_reads reads inside knows with ⟨insideBefore, knew⟩ | linked
      · have protect := guarded.protect reader insideBefore registration knew
        refine protect.of_moves sound ((guarded.inside_iff reader).2 insideBefore) moves together ?_
        rintro rfl
        cases reads
        cases inside
      · exact Or.inl linked
    · rw [handling_read_of_ne same] at inside
      rw [Knows, handling_read_of_ne same, calls_read_of_ne same] at knows
      have protect := guarded.protect reader inside registration knows
      refine protect.of_moves sound ((guarded.inside_iff reader).2 inside) moves together ?_
      rintro rfl
      cases reads
      exact same rfl
  · intro reader request entering
    by_cases same : reader = activity
    · subst same
      rw [handling_read_self] at entering
      rw [calls_read_self]
      exact entering_of_reads reads entering
    · rw [handling_read_of_ne same] at entering
      rw [calls_read_of_ne same]
      exact guarded.entering reader request entering

theorem Guarded.of_moves [DecidableEq ρ] (guarded : sigmux.Guarded grace)
    (moves : sigmux.Moves label next) (together : Together label grace later) :
    next.Guarded later := by
  rcases guarded.sound with ⟨list, sound⟩
  have present : ∀ activity, ∀ it ∈ (sigmux.handling activity).pointers,
      (sigmux.memory it).isSome := by
    intro activity it pointer
    have inside := Handling.inside_of_mem_pointers pointer
    have protect := guarded.protect activity inside it (Or.inl pointer)
    refine (sound.allocated it).2 fun absent => ?_
    have reachable := protect.linked_or_bypassed
    simp [absent, Stage.linked, Stage.bypassed] at reachable
  rcases handling_of_moves moves with ⟨activity, handling, calls, reads, rfl⟩ |
    ⟨handlings, callings, drains⟩
  · exact guarded.of_reads reads together
  · refine ⟨(exists_sound_of_moves sound moves).imp fun _ => And.left, fun activity => ?_, ?_, ?_,
      sound.fault_of_moves moves guarded.fault present⟩
    · rw [handlings]
      exact inside_of_together (guarded.inside_iff activity) together drains
    · intro activity inside registration knows
      rw [handlings] at inside
      rw [Knows, handlings, callings] at knows
      refine (guarded.protect activity inside registration knows).of_moves sound
        ((guarded.inside_iff activity).2 inside) moves together ?_
      rintro rfl
      simp at drains
    · intro activity request entering
      rw [handlings] at entering
      rw [callings]
      exact guarded.entering activity request entering

omit [DecidableEq α] in
theorem guarded_init : (init : Sigmux α ρ η).Guarded ⟨∅, none⟩ :=
  ⟨⟨[], sound_init⟩, by simp [init, Handling.inside], by simp [init, Handling.inside],
    by simp [init], rfl⟩

end Sigmux

/-! ## With the phaser -/

section Systems

variable [DecidableEq α] [DecidableEq ρ]

theorem together_of_step {state after : Sigmux α ρ η × GracePeriod.State α}
    (step : ((sigmuxSystem α ρ η).parallel (GracePeriod.system α)).step state label after) :
    state.1.Moves label after.1 ∧ Together label state.2 after.2 := by
  cases label with
  | none =>
      rcases step with ⟨⟨input, reacts⟩, same⟩ | ⟨_, own⟩
      · exact ⟨Sigmux.moves_of_react reacts, same⟩
      · exact own.elim
  | some event =>
      rcases step with ⟨⟨input, reacts⟩, grace⟩
      exact ⟨Sigmux.moves_of_react reacts, grace⟩

theorem guarded_of_reachable {state : Sigmux α ρ η × GracePeriod.State α}
    (reachable : ((sigmuxSystem α ρ η).parallel (GracePeriod.system α)).Reachable state) :
    state.1.Guarded state.2 := by
  refine reachable.invariant (fun state => state.1.Guarded state.2) ?_ ?_
  · rintro ⟨sigmux, grace⟩ ⟨isInit, isIdle⟩
    obtain rfl : sigmux = Sigmux.init := isInit
    obtain rfl : grace = ⟨∅, none⟩ := isIdle
    exact Sigmux.guarded_init
  · intro before label after guarded step
    rcases together_of_step step with ⟨moves, together⟩
    exact guarded.of_moves moves together

/-- The multiplexer with its phaser. -/
def sigmuxGlobal (α : Type u) (ρ : Type v) (η : Type w) [DecidableEq α] [DecidableEq ρ] :
    LabelledSystem (Event α) (Sigmux α ρ η × Phaser α) :=
  (sigmuxSystem α ρ η).parallel (phaserSystem α)

theorem realizes_sigmuxGlobal [Fintype α] (few : Fintype.card α < 2 ^ 31) :
    (sigmuxGlobal α ρ η).Realizes (LabelledSystem.together Sigmux.react Phaser.react) :=
  realizes_sigmuxSystem.parallel (realizes_phaserSystem few)

theorem exists_guarded_of_reachable {state : Sigmux α ρ η × Phaser α}
    (reachable : (sigmuxGlobal α ρ η).Reachable state) :
    ∃ grace, state.1.Guarded grace ∧ Represents state.2 grace := by
  have simulation := (phaser_simulation α).parallel (sigmuxSystem α ρ η)
  rcases simulation.reachable reachable with ⟨⟨sigmux, grace⟩, reachableImage, same, represents⟩
  obtain rfl : sigmux = state.1 := same
  exact ⟨grace, guarded_of_reachable reachableImage, represents⟩

/-- No registration is read or assigned after it has been freed, and when `sigmux_unregister`
has drained the phaser, no handling has a pointer to the registration. -/
theorem fault_eq_false_and_pointers {state : Sigmux α ρ η × Phaser α}
    (reachable : (sigmuxGlobal α ρ η).Reachable state) :
    state.1.fault = false ∧ ∀ activity, ∀ registration ∈ (state.1.handling activity).pointers,
      (state.1.stage registration).linked ∨ (state.1.stage registration).bypassed := by
  rcases exists_guarded_of_reachable reachable with ⟨grace, guarded, _⟩
  refine ⟨guarded.fault, fun activity registration pointer => ?_⟩
  have inside := Handling.inside_of_mem_pointers pointer
  exact (guarded.protect activity inside registration (Or.inl pointer)).linked_or_bypassed

end Systems

section Examples

/-- A registration is made and linked, and nothing comes between. -/
def registering (registration : Bool) (flags : UInt32) :
    List (Option (SigmuxInput Bool Bool Unit) × Option (Action Bool)) :=
  (some (.register registration {5} () flags), none) ::
    List.replicate 5 (some (.work registration), none)

/-- A signal is handled up to the load of the first registration. -/
def entering (request : Request) :
    List (Option (SigmuxInput Bool Bool Unit) × Option (Action Bool)) :=
  [(some (.signal true request), none), (none, some (.enter true)), (none, some (.run true)),
    (some (.enter true), some (.run true))]

/-- A handler is called while its registration is drained. -/
theorem fault_eq_false_and_pointers_whileDrained :
    ∃ state : Sigmux Bool Bool Unit × Phaser Bool, (sigmuxGlobal Bool Bool Unit).Reachable state ∧
      state.1.handling true = .calling ⟨5, 1⟩ (some true) .normal true ∧
      state.1.stage true = .draining ∧ state.1.fault = false ∧
      ∀ activity, ∀ registration ∈ (state.1.handling activity).pointers,
        (state.1.stage registration).linked ∨ (state.1.stage registration).bypassed := by
  rcases (@realizes_sigmuxGlobal Bool Bool Unit _ _ _ (by decide)).exists_reachable
    (Sigmux.init, Phaser.init) ⟨rfl, rfl⟩
    (registering true 0 ++ entering ⟨5, 1⟩ ++
      [(some (.run true), none), (some (.run true), none), (some (.unregister true), none),
        (some (.work true), none), (some (.work true), none), (some (.work true), none),
        (some (.work true), some .drain)])
    (fun state => state.1.handling true = .calling ⟨5, 1⟩ (some true) .normal true ∧
      state.1.stage true = .draining) (by decide) with ⟨state, reachable, calls, drains⟩
  exact ⟨state, reachable, calls, drains, fault_eq_false_and_pointers reachable⟩

end Examples

end AndroidCollection.Linker
