import AndroidCollection.Linker.Handlings

/-!
# What a handling calls

While a handling goes through the ring, registrations come and go. It calls no handler
twice, those of normal priority before those of low priority, and only for signals which they
are registered for. If it comes to the end of the ring, it has called the handlers of all
the registrations which were in the ring all the time, in the order of the ring.
-/

universe u v w

namespace AndroidCollection.Linker

open GracePeriod (Event)

open LinkedRing (Walks)

namespace Sigmux

variable {α : Type u} {ρ : Type v} {η : Type w} {sigmux next : Sigmux α ρ η}
  {label : Option (Event α)} {activity : α} {registration : ρ} {list rest ahead : List ρ}
  {handling : Handling ρ} {it : Option ρ}

/-! ## The way ahead -/

/-- What the loop has yet to come to. -/
def Ahead (sigmux : Sigmux α ρ η) : Handling ρ → List ρ → Prop
  | .scanning _ _ _ it, ahead => Walks sigmux.next it ahead
  | .calling _ _ _ it, ahead | .advancing _ _ _ it _, ahead =>
      Walks sigmux.next (some it) (it :: ahead)
  | _, ahead => ahead = []

def Reached (sigmux : Sigmux α ρ η) (registration : ρ) : Prop :=
  (sigmux.stage registration).linked ∨ (sigmux.stage registration).bypassed

theorem Sound.linked_of_walks (sound : sigmux.Sound list) (reached : sigmux.Reached registration)
    (walks : Walks sigmux.next (some registration) (registration :: rest)) :
    ∀ member ∈ rest, (sigmux.stage member).linked := by
  induction rest generalizing registration with
  | nil => exact nofun
  | cons first later ih =>
      have linked := sound.next_linked reached walks.2.1
      rintro member (_ | ⟨_, isLater⟩)
      · exact linked
      · exact ih (Or.inl linked) ⟨rfl, walks.2.2⟩ member isLater

theorem Sound.exists_walks (sound : sigmux.Sound list) (reached : sigmux.Reached registration) :
    ∃ rest, Walks sigmux.next (some registration) (registration :: rest) := by
  rcases reached with linked | bypassed
  · rcases List.append_of_mem ((sound.mem_iff registration).2 linked) with ⟨front, back, rfl⟩
    exact ⟨back, sound.ring.follows.walks.drop⟩
  · cases leads : sigmux.next (some registration) with
    | none => exact ⟨[], rfl, leads⟩
    | some first =>
        have linked := sound.next_linked (Or.inr bypassed) leads
        rcases List.append_of_mem ((sound.mem_iff first).2 linked) with ⟨front, back, rfl⟩
        refine ⟨first :: back, rfl, ?_⟩
        rw [leads]
        exact sound.ring.follows.walks.drop

theorem Sound.walks_of_memory {other : Sigmux α ρ η} (changed : ρ) (sound : sigmux.Sound list)
    (reached : sigmux.Reached registration) (outside : ¬ sigmux.Reached changed)
    (agree : ∀ node, node ≠ changed → other.next (some node) = sigmux.next (some node))
    (walks : Walks sigmux.next (some registration) (registration :: rest)) :
    Walks other.next (some registration) (registration :: rest) := by
  refine walks.congr fun member isMember => agree member ?_
  rintro rfl
  rcases List.mem_cons.1 isMember with rfl | isRest
  · exact outside reached
  · exact outside (Or.inl (sound.linked_of_walks reached walks member isRest))

variable [DecidableEq ρ] [DecidableEq α]

/-- The way from a node on after a step: it may lose a node, and gets no other. -/
theorem Sound.exists_walks_of_moves (sound : sigmux.Sound list)
    (moves : sigmux.Moves label next) (reached : sigmux.Reached registration)
    (walks : Walks sigmux.next (some registration) (registration :: rest)) :
    ∃ later, Walks next.next (some registration) (registration :: later) ∧
      later.Sublist rest ∧ next.Keeps rest later := by
  have unchanged (walks : Walks next.next (some registration) (registration :: rest)) :
      ∃ later, Walks next.next (some registration) (registration :: later) ∧
        later.Sublist rest ∧ next.Keeps rest later :=
    ⟨rest, walks, List.Sublist.refl _, .refl⟩
  cases moves with
  | read | fail | unregister | lock | lockAgain | unlockNew | unlock | drain | drained
  | exchange => exact unchanged walks
  | @register changed node was =>
      refine unchanged (sound.walks_of_memory changed reached ?_ ?_ walks)
      · simp [Reached, was, Stage.linked, Stage.bypassed]
      · intro node different
        simp [Sigmux.next, different]
  | @free changed was =>
      refine unchanged (sound.walks_of_memory changed reached ?_ ?_ walks)
      · simp [Reached, was, Stage.linked, Stage.bypassed]
      · intro node different
        simp [Sigmux.next, different]
  | @prepare changed was =>
      have own := sound.allocated_of_stage (show sigmux.stage changed ≠ .absent by simp [was])
      refine unchanged (sound.walks_of_memory changed reached ?_ ?_ walks)
      · simp [Reached, was, Stage.linked, Stage.bypassed]
      · intro node different
        rw [next_setStage, next_setPrev, next_setNext own]
        exact Function.update_of_ne (fun same => different (Option.some.inj same)) ..
  | setBack | unhook =>
      refine unchanged ?_
      rw [next_setStage, next_setPrev]
      exact walks
  | publish =>
      refine unchanged (walks.congr fun member _ => ?_)
      rw [next_setStage, next_setNext (by rintro _ ⟨⟩)]
      exact Function.update_of_ne (by simp) ..
  | @bypass bypassed was =>
      rcases sound.exists_prev was with ⟨front, back, split, before⟩
      have link : sigmux.next (sigmux.prev (some bypassed)) = some bypassed := by
        have follows := sound.ring.follows
        rw [split] at follows
        rw [before]
        exact follows.drop.1
      rcases walks.bypass link with ⟨later, walksLater, sub, keeps⟩
      refine ⟨later, ?_, sub, fun kept keptSub linked => keeps kept keptSub fun isKept => ?_⟩
      · rw [next_setStage, next_setNext (sound.allocated_prev was)]
        exact walksLater
      · have stays := linked bypassed isKept
        rw [(relinks_setNext _ _ _).stage_setStage, Function.update_self] at stays
        cases stays

/-- The way from a pointer on, which may be the sentinel. -/
theorem Sound.exists_walks_of_moves_option (sound : sigmux.Sound list)
    (moves : sigmux.Moves label next)
    (reached : ∀ registration, it = some registration → sigmux.Reached registration)
    (walks : Walks sigmux.next it rest) :
    ∃ later, Walks next.next it later ∧ later.Sublist rest ∧ next.Keeps rest later := by
  cases rest with
  | nil => exact ⟨[], walks, List.Sublist.refl _, .refl⟩
  | cons first others =>
      obtain rfl : it = some first := walks.1
      rcases sound.exists_walks_of_moves moves (reached first rfl) walks with
        ⟨later, walksLater, sub, keeps⟩
      refine ⟨first :: later, walksLater, sub.cons_cons _, fun kept keptSub linked => ?_⟩
      cases keptSub with
      | cons _ keptSub => exact (keeps _ keptSub linked).cons _
      | cons_cons _ keptSub =>
          exact (keeps _ keptSub fun member isKept =>
            linked member (List.mem_cons_of_mem _ isKept)).cons_cons _

/-- The way ahead of a handling after a step of somebody else. -/
theorem Sound.exists_ahead_of_moves (sound : sigmux.Sound list)
    (moves : sigmux.Moves label next)
    (reached : ∀ registration ∈ handling.pointers, sigmux.Reached registration)
    (before : sigmux.Ahead handling ahead) :
    ∃ later, next.Ahead handling later ∧ later.Sublist ahead ∧ next.Keeps ahead later := by
  cases handling with
  | outside | entering | loading | exiting =>
      exact ⟨ahead, before, List.Sublist.refl _, .refl⟩
  | scanning request reglist pass it =>
      refine sound.exists_walks_of_moves_option moves (fun registration same => ?_) before
      exact reached registration (by simp [Handling.pointers, same])
  | calling request reglist pass it =>
      exact sound.exists_walks_of_moves moves (reached it (by simp [Handling.pointers])) before
  | advancing request reglist pass it =>
      exact sound.exists_walks_of_moves moves (reached it (by simp [Handling.pointers])) before

/-- The signals and the flags of a registration stay. -/
theorem matching_of_moves (moves : sigmux.Moves label next)
    (reached : sigmux.Reached registration) (signum : ℕ) (pass : Pass) :
    next.matching signum pass registration = sigmux.matching signum pass registration := by
  have outside {changed : ρ} (absent : ¬ sigmux.Reached changed) : registration ≠ changed := by
    rintro rfl
    exact absent reached
  cases moves with
  | read | fail | unregister | lock | lockAgain | unlockNew | unlock | drain | drained
  | exchange => rfl
  | @register changed node was =>
      have different := @outside changed (by simp [Reached, was, Stage.linked, Stage.bypassed])
      simp [matching, different]
  | @free changed was =>
      have different := @outside changed (by simp [Reached, was, Stage.linked, Stage.bypassed])
      simp [matching, different]
  | @prepare changed was =>
      exact ((relinks_setNext sigmux (some changed) (sigmux.next none)).trans
        (relinks_setPrev _ (some changed) none)).matching signum pass registration
  | setBack | unhook => exact (relinks_setPrev sigmux _ _).matching signum pass registration
  | @publish changed =>
      exact (relinks_setNext sigmux none (some changed)).matching signum pass registration
  | bypass => exact (relinks_setNext sigmux _ _).matching signum pass registration

/-! ## Who is called -/

omit [DecidableEq ρ] [DecidableEq α] in
/-- The calls of a handling which has reached a pass: each handler once, each for a signal of
its registration, first those of normal priority and then those of low priority. -/
def Orderly (sigmux : Sigmux α ρ η) (request : Request) (reached : Pass) (calls : List ρ) : Prop :=
  ∃ normals lows, calls = normals ++ lows ∧ calls.Nodup ∧
    (∀ registration ∈ normals,
      request.Wants .normal ∧ sigmux.matching request.signum .normal registration) ∧
    (∀ registration ∈ lows,
      request.Wants .low ∧ sigmux.matching request.signum .low registration) ∧
    (reached = .normal → lows = [])

omit [DecidableEq ρ] [DecidableEq α] in
/-- The calls are orderly, and of those of this pass none is ahead again. -/
def Searching (sigmux : Sigmux α ρ η) (request : Request) (pass : Pass) (ahead calls : List ρ) :
    Prop :=
  request.Wants pass ∧ sigmux.Orderly request pass calls ∧
    ∀ registration ∈ calls, sigmux.matching request.signum pass registration →
      registration ∉ ahead

omit [DecidableEq ρ] [DecidableEq α] in
def Searched (sigmux : Sigmux α ρ η) (calls : List ρ) : Handling ρ → Prop
  | .outside => True
  | .entering _ | .loading _ => calls = []
  | .scanning request reglist pass it =>
      ∃ ahead, sigmux.Ahead (.scanning request reglist pass it) ahead ∧
        sigmux.Searching request pass ahead calls
  | .calling request reglist pass it =>
      ∃ ahead, sigmux.Ahead (.calling request reglist pass it) ahead ∧
        sigmux.Searching request pass ahead calls
  | .advancing request reglist pass it action =>
      ∃ ahead, sigmux.Ahead (.advancing request reglist pass it action) ahead ∧
        sigmux.Searching request pass ahead calls
  | .exiting request _ => sigmux.Orderly request .low calls

section Calls

variable {request : Request} {reglist : Option ρ} {pass : Pass} {calls : List ρ}

omit [DecidableEq ρ] [DecidableEq α] in
theorem orderly_nil (request : Request) (pass : Pass) : sigmux.Orderly request pass [] :=
  ⟨[], [], rfl, List.nodup_nil, by simp, by simp, fun _ => rfl⟩

omit [DecidableEq ρ] [DecidableEq α] in
theorem matching_unique {signum : ℕ} {other : Pass}
    (suits : sigmux.matching signum pass registration)
    (suitsOther : sigmux.matching signum other registration) : pass = other := by
  unfold matching at suits suitsOther
  split at suits
  · next present =>
      rw [present] at suitsOther
      exact (of_decide_eq_true suits).1.symm.trans (of_decide_eq_true suitsOther).1
  · cases suits

omit [DecidableEq ρ] [DecidableEq α] in
/-- After a pass, all calls may count as those of the last one. -/
theorem Orderly.low (orderly : sigmux.Orderly request pass calls) :
    sigmux.Orderly request .low calls := by
  rcases orderly with ⟨normals, lows, split, nodup, wantsNormal, wantsLow, _⟩
  exact ⟨normals, lows, split, nodup, wantsNormal, wantsLow, nofun⟩

omit [DecidableEq ρ] [DecidableEq α] in
theorem Orderly.congr (orderly : sigmux.Orderly request pass calls)
    (same : ∀ pass, ∀ registration ∈ calls,
      next.matching request.signum pass registration =
        sigmux.matching request.signum pass registration) :
    next.Orderly request pass calls := by
  rcases orderly with ⟨normals, lows, rfl, nodup, wantsNormal, wantsLow, first⟩
  refine ⟨normals, lows, rfl, nodup, fun registration member => ?_, fun registration member => ?_,
    first⟩
  · rw [same _ _ (List.mem_append_left _ member)]
    exact wantsNormal registration member
  · rw [same _ _ (List.mem_append_right _ member)]
    exact wantsLow registration member

omit [DecidableEq ρ] [DecidableEq α] in
/-- Another handler of this pass. -/
theorem Orderly.call (orderly : sigmux.Orderly request pass calls) (wants : request.Wants pass)
    (suits : sigmux.matching request.signum pass registration)
    (notCalled : registration ∉ calls) :
    sigmux.Orderly request pass (calls ++ [registration]) := by
  rcases orderly with ⟨normals, lows, rfl, nodup, wantsNormal, wantsLow, first⟩
  have nodupAfter : (normals ++ lows ++ [registration]).Nodup := by
    rw [List.nodup_append_comm]
    exact List.nodup_cons.2 ⟨notCalled, nodup⟩
  have both {members : List ρ} {pass : Pass} (asked : request.Wants pass)
      (own : sigmux.matching request.signum pass registration)
      (before : ∀ member ∈ members,
        request.Wants pass ∧ sigmux.matching request.signum pass member) :
      ∀ member ∈ members ++ [registration],
        request.Wants pass ∧ sigmux.matching request.signum pass member := by
    intro member isMember
    rcases List.mem_append.1 isMember with isMember | here
    · exact before member isMember
    · rw [List.mem_singleton.1 here]
      exact ⟨asked, own⟩
  cases pass with
  | normal =>
      obtain rfl := first rfl
      rw [List.append_nil] at nodupAfter ⊢
      exact ⟨normals ++ [registration], [], (List.append_nil _).symm, nodupAfter,
        both wants suits wantsNormal, by simp, fun _ => rfl⟩
  | low =>
      exact ⟨normals, lows ++ [registration], List.append_assoc .., nodupAfter, wantsNormal,
        both wants suits wantsLow, nofun⟩

omit [DecidableEq ρ] [DecidableEq α] in
/-- The pass of low priority begins. -/
theorem searched_startLow (orderly : sigmux.Orderly request .normal calls)
    (walks : ∃ ahead, Walks sigmux.next reglist ahead) :
    sigmux.Searched calls (.startLow request reglist) := by
  unfold Handling.startLow
  split
  · next wants =>
      rcases walks with ⟨ahead, walks⟩
      refine ⟨ahead, walks, wants, orderly.low, fun registration called suits => ?_⟩
      rcases orderly with ⟨normals, lows, rfl, _, wantsNormal, _, first⟩
      rw [first rfl, List.append_nil] at called
      cases matching_unique suits (wantsNormal registration called).2
  · exact orderly.low

omit [DecidableEq ρ] [DecidableEq α] in
theorem Searching.next_it {it : ρ} (searching : sigmux.Searching request pass (it :: ahead) calls) :
    sigmux.Searching request pass ahead calls :=
  ⟨searching.1, searching.2.1, fun registration called suits isAhead =>
    searching.2.2 registration called suits (List.mem_cons_of_mem _ isAhead)⟩

omit [DecidableEq ρ] [DecidableEq α] in
theorem Searching.call {it : ρ} (searching : sigmux.Searching request pass (it :: ahead) calls)
    (suits : sigmux.matching request.signum pass it) (notAhead : it ∉ ahead) :
    sigmux.Searching request pass ahead (calls ++ [it]) := by
  rcases searching with ⟨wants, orderly, once⟩
  refine ⟨wants, orderly.call wants suits fun called =>
    once it called suits List.mem_cons_self, fun registration called suitsAlso isAhead => ?_⟩
  rcases List.mem_append.1 called with called | here
  · exact once registration called suitsAlso (List.mem_cons_of_mem _ isAhead)
  · exact notAhead (List.mem_singleton.1 here ▸ isAhead)

omit [DecidableEq α] [DecidableEq ρ] in
theorem matching_of_memory {signum : ℕ} {node : Registration ρ η}
    (present : sigmux.memory registration = some node) :
    sigmux.matching signum pass registration ↔ node.pass = pass ∧ signum ∈ node.signals := by
  simp [matching, present]

omit [DecidableEq ρ] [DecidableEq α] in
theorem Sound.exists_walks_option (sound : sigmux.Sound list)
    (reached : ∀ registration, reglist = some registration → sigmux.Reached registration) :
    ∃ ahead, Walks sigmux.next reglist ahead := by
  cases reglist with
  | none => exact ⟨[], rfl⟩
  | some first =>
      rcases sound.exists_walks (reached first rfl) with ⟨rest, walks⟩
      exact ⟨first :: rest, walks⟩

omit [DecidableEq ρ] [DecidableEq α] in
/-- A step of the handling itself. -/
theorem Sound.searched_of_reads (sound : sigmux.Sound list)
    (reads : sigmux.Reads activity label handling calls)
    (reached : ∀ registration ∈ (sigmux.handling activity).pointers, sigmux.Reached registration)
    (before : sigmux.Searched (sigmux.calls activity) (sigmux.handling activity)) :
    sigmux.Searched calls handling := by
  cases reads with
  | signal => exact rfl
  | enter was =>
      rw [was] at before
      exact before
  | load was =>
      rw [was] at before
      have none : sigmux.calls activity = [] := before
      have walks : ∃ ahead, Walks sigmux.next (sigmux.next Option.none) ahead :=
        ⟨list, sound.ring.follows.walks⟩
      rw [none]
      unfold Handling.startNormal
      split
      · next wants =>
          rcases walks with ⟨ahead, walks⟩
          exact ⟨ahead, walks, wants, orderly_nil _ _, by simp⟩
      · exact searched_startLow (orderly_nil _ _) walks
  | @pass request reglist pass was =>
      rw [was] at before reached
      rcases before with ⟨ahead, _, _, orderly, _⟩
      cases pass with
      | normal =>
          refine searched_startLow orderly (sound.exists_walks_option fun registration same => ?_)
          exact reached registration (by simp [Handling.pointers, same])
      | low => exact orderly
  | call was present wants =>
      rw [was] at before
      rcases before with ⟨_ | ⟨first, rest⟩, walks, searching⟩
      · cases (show some _ = none from walks)
      · obtain rfl := Option.some.inj walks.1
        exact ⟨rest, walks, searching.call ((matching_of_memory present).2 wants)
          (List.nodup_cons.1 (Walks.nodup walks)).1⟩
  | skip was present refuses =>
      rw [was] at before
      rcases before with ⟨_ | ⟨first, rest⟩, walks, searching⟩
      · cases (show some _ = none from walks)
      · obtain rfl := Option.some.inj walks.1
        exact ⟨rest, walks, searching.next_it⟩
  | answer was =>
      rw [was] at before
      exact before
  | advance was =>
      rw [was] at before
      rcases before with ⟨ahead, walks, searching⟩
      exact ⟨ahead, walks.2, searching⟩
  | stop was =>
      rw [was] at before
      rcases before with ⟨_, _, _, orderly, _⟩
      exact orderly.low
  | exit => trivial

theorem Sound.searching_of_moves (sound : sigmux.Sound list) (moves : sigmux.Moves label next)
    (reached : ∀ registration ∈ handling.pointers, sigmux.Reached registration)
    (reachedCalls : ∀ registration ∈ calls, sigmux.Reached registration)
    (before : ∃ ahead, sigmux.Ahead handling ahead ∧
      sigmux.Searching request pass ahead calls) :
    ∃ ahead, next.Ahead handling ahead ∧ next.Searching request pass ahead calls := by
  rcases before with ⟨ahead, isAhead, wants, orderly, once⟩
  rcases sound.exists_ahead_of_moves moves reached isAhead with ⟨later, isLater, sub, _⟩
  have same : ∀ pass, ∀ registration ∈ calls, next.matching request.signum pass registration =
      sigmux.matching request.signum pass registration := fun pass registration called =>
    matching_of_moves moves (reachedCalls registration called) _ pass
  refine ⟨later, isLater, wants, orderly.congr same, fun registration called suits again => ?_⟩
  rw [same pass registration called] at suits
  exact once registration called suits (sub.subset again)

/-- A step of somebody else. -/
theorem Sound.searched_of_moves (sound : sigmux.Sound list) (moves : sigmux.Moves label next)
    (reached : ∀ registration ∈ handling.pointers, sigmux.Reached registration)
    (reachedCalls : handling.inside → ∀ registration ∈ calls, sigmux.Reached registration)
    (before : sigmux.Searched calls handling) : next.Searched calls handling := by
  cases handling with
  | outside => trivial
  | entering | loading => exact before
  | scanning | calling | advancing =>
      exact sound.searching_of_moves moves reached (reachedCalls rfl) before
  | exiting request action =>
      exact before.congr fun pass registration called =>
        matching_of_moves moves (reachedCalls rfl registration called) _ pass

omit [DecidableEq ρ] [DecidableEq α] in
theorem Guarded.reached {grace : GracePeriod.State α} (guarded : sigmux.Guarded grace)
    (knows : (sigmux.handling activity).inside ∧ sigmux.Knows activity registration) :
    sigmux.Reached registration :=
  (guarded.protect activity knows.1 registration knows.2).linked_or_bypassed

theorem Guarded.searched_of_moves {grace : GracePeriod.State α} (guarded : sigmux.Guarded grace)
    (moves : sigmux.Moves label next)
    (before : ∀ activity, sigmux.Searched (sigmux.calls activity) (sigmux.handling activity))
    (activity : α) : next.Searched (next.calls activity) (next.handling activity) := by
  rcases guarded.sound with ⟨list, sound⟩
  have reached : ∀ registration ∈ (sigmux.handling activity).pointers,
      sigmux.Reached registration := fun registration pointer =>
    guarded.reached ⟨Handling.inside_of_mem_pointers pointer, Or.inl pointer⟩
  have bystander : next.Searched (sigmux.calls activity) (sigmux.handling activity) :=
    sound.searched_of_moves moves reached
      (fun inside registration called => guarded.reached ⟨inside, Or.inr called⟩) (before activity)
  rcases handling_of_moves moves with ⟨reader, handling, calls, reads, rfl⟩ |
    ⟨handlings, callings, _⟩
  · by_cases same : activity = reader
    · subst same
      rw [handling_read_self, calls_read_self]
      exact sound.searched_of_reads reads reached (before activity)
    · rw [handling_read_of_ne same, calls_read_of_ne same]
      exact bystander
  · rw [handlings, callings]
    exact bystander

end Calls

end Sigmux

def Handling.request {ρ : Type v} : Handling ρ → Option Request
  | .outside => none
  | .entering request | .loading request | .scanning request _ _ _ | .calling request _ _ _
  | .advancing request _ _ _ _ | .exiting request _ => some request

section Systems

variable {α : Type u} {ρ : Type v} {η : Type w} [DecidableEq α] [DecidableEq ρ]
  {state next : Sigmux α ρ η × Phaser α} {label : Option (Event α)} {activity : α}

theorem moves_of_step (step : (sigmuxGlobal α ρ η).step state label next) :
    state.1.Moves label next.1 ∨ next.1 = state.1 := by
  cases label with
  | none =>
      rcases step with ⟨⟨input, reacts⟩, _⟩ | ⟨same, _⟩
      · exact Or.inl (Sigmux.moves_of_react reacts)
      · exact Or.inr same
  | some event =>
      rcases step with ⟨⟨input, reacts⟩, _⟩
      exact Or.inl (Sigmux.moves_of_react reacts)

theorem searched_of_reachable (reachable : (sigmuxGlobal α ρ η).Reachable state) (activity : α) :
    state.1.Searched (state.1.calls activity) (state.1.handling activity) := by
  refine (reachable.invariant (fun state => (sigmuxGlobal α ρ η).Reachable state ∧
    ∀ activity, state.1.Searched (state.1.calls activity) (state.1.handling activity)) ?_ ?_).2
      activity
  · intro state initial
    refine ⟨⟨state, [], initial, .refl⟩, ?_⟩
    rcases state with ⟨sigmux, phaser⟩
    rcases initial with ⟨isInit, _⟩
    obtain rfl : sigmux = Sigmux.init := isInit
    exact fun _ => trivial
  · rintro before label after ⟨reachableBefore, searched⟩ step
    refine ⟨reachableBefore.step step, ?_⟩
    rcases moves_of_step step with moves | same
    · rcases exists_guarded_of_reachable reachableBefore with ⟨grace, guarded, _⟩
      exact guarded.searched_of_moves moves searched
    · rw [same]
      exact searched

/-- A handling calls no handler twice for its signal, calls only those which are registered for
it and have one of the priorities it was asked for, and those of normal priority first. -/
theorem orderly_of_reachable {request : Request} (reachable : (sigmuxGlobal α ρ η).Reachable state)
    (handles : (state.1.handling activity).request = some request) :
    state.1.Orderly request .low (state.1.calls activity) := by
  have searched := searched_of_reachable reachable activity
  cases was : state.1.handling activity <;> rw [was] at handles searched <;> cases handles
  · rw [show state.1.calls activity = [] from searched]
    exact Sigmux.orderly_nil _ _
  · rw [show state.1.calls activity = [] from searched]
    exact Sigmux.orderly_nil _ _
  · rcases searched with ⟨_, _, _, orderly, _⟩
    exact orderly.low
  · rcases searched with ⟨_, _, _, orderly, _⟩
    exact orderly.low
  · rcases searched with ⟨_, _, _, orderly, _⟩
    exact orderly.low
  · exact searched

/-- The registration which came last has a low priority, and is called last. -/
theorem orderly_of_reachable_bothPriorities :
    ∃ state : Sigmux Bool Bool Unit × Phaser Bool, (sigmuxGlobal Bool Bool Unit).Reachable state ∧
      (state.1.handling true).request = some ⟨5, 3⟩ ∧ state.1.calls true = [true, false] ∧
      state.1.Orderly ⟨5, 3⟩ .low (state.1.calls true) := by
  rcases (@realizes_sigmuxGlobal Bool Bool Unit _ _ _ (by decide)).exists_reachable
    (Sigmux.init, Phaser.init) ⟨rfl, rfl⟩
    (registering true 0 ++ registering false 1 ++ entering ⟨5, 3⟩ ++
      List.replicate 4 (some (.run true), none) ++
      [(some (.answer true .continueSearch), none)] ++
      List.replicate 3 (some (.run true), none))
    (fun state => (state.1.handling true).request = some ⟨5, 3⟩ ∧
      state.1.calls true = [true, false]) (by decide) with ⟨state, reachable, handles, calls⟩
  exact ⟨state, reachable, handles, calls, orderly_of_reachable reachable handles⟩

end Systems

end AndroidCollection.Linker
