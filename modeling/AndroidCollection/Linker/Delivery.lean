import AndroidCollection.Linker.Search

/-!
# Who is called without fail

A handling which comes to the end of the ring has called the handlers of all registrations
which were linked when it loaded the first one and have been linked since, as far as they
are registered for the signal. Those of one priority are called in the order of the ring, whatever
comes and goes between them.
-/

universe u v w

namespace AndroidCollection.Linker

open GracePeriod (Event)

open LinkedRing (Walks Follows)

variable {α : Type u} {ρ : Type v} {η : Type w} {sigmux next : Sigmux α ρ η}
  {label : Option (Event α)} {activity : α} {request : Request} {suits : Pass → ρ → Bool}
  {kept list calls : List ρ} {reglist : Option ρ} {pass : Pass} {handling : Handling ρ}

/-- The part of a list which a pass has to call. -/
def Request.wanted (request : Request) (suits : Pass → ρ → Bool) (pass : Pass) (list : List ρ) :
    List ρ :=
  if request.Wants pass then list.filter (suits pass) else []

/-- What has been called when a pass has come past the first ones of the list. -/
def Request.due (request : Request) (suits : Pass → ρ → Bool) (kept : List ρ) :
    Pass → List ρ → List ρ
  | .normal, done => request.wanted suits .normal done
  | .low, done => request.wanted suits .normal kept ++ request.wanted suits .low done

theorem Request.wanted_nil : request.wanted suits pass [] = [] := by
  unfold wanted
  split <;> rfl

theorem Request.wanted_sublist : (request.wanted suits pass list).Sublist list := by
  unfold wanted
  split
  · exact List.filter_sublist
  · exact List.nil_sublist _

theorem Request.wanted_append {done todo : List ρ} :
    request.wanted suits pass (done ++ todo) =
      request.wanted suits pass done ++ request.wanted suits pass todo := by
  unfold wanted
  split
  · exact List.filter_append ..
  · rfl

theorem Request.due_append {done todo : List ρ} :
    request.due suits kept pass (done ++ todo) =
      request.due suits kept pass done ++ request.wanted suits pass todo := by
  cases pass with
  | normal => exact wanted_append
  | low => rw [due, due, wanted_append, List.append_assoc]

namespace Sigmux

/-- The walk from a pointer on comes past the registrations. -/
def Covers (sigmux : Sigmux α ρ η) (it : Option ρ) (kept : List ρ) : Prop :=
  ∃ walk, Walks sigmux.next it walk ∧ kept.Sublist walk

/-- The pass has come past the first ones, and will come to the others. -/
def Delivering (sigmux : Sigmux α ρ η) (request : Request) (suits : Pass → ρ → Bool)
    (kept calls : List ρ) (handling : Handling ρ) (reglist : Option ρ) (pass : Pass) : Prop :=
  request.Wants pass ∧ sigmux.Covers reglist kept ∧ ∃ done todo, kept = done ++ todo ∧
    (∃ ahead, sigmux.Ahead handling ahead ∧ todo.Sublist ahead) ∧
    (request.due suits kept pass done).Sublist calls

def Delivered (sigmux : Sigmux α ρ η) (request : Request) (suits : Pass → ρ → Bool)
    (kept calls : List ρ) : Handling ρ → Prop
  | .outside | .entering _ => False
  | .loading asked => asked = request ∧ calls = [] ∧
      ∃ list, sigmux.Sound list ∧ kept.Sublist list
  | .scanning asked reglist pass it => asked = request ∧
      sigmux.Delivering request suits kept calls (.scanning asked reglist pass it) reglist pass
  | .calling asked reglist pass it => asked = request ∧
      sigmux.Delivering request suits kept calls (.calling asked reglist pass it) reglist pass
  | .advancing asked reglist pass it action => asked = request ∧
      sigmux.Delivering request suits kept calls (.advancing asked reglist pass it action)
        reglist pass
  | .exiting asked action => asked = request ∧
      (action = .continueSearch → (request.due suits kept .low kept).Sublist calls)

theorem delivered_startLow (covers : sigmux.Covers reglist kept)
    (called : (request.wanted suits .normal kept).Sublist calls) :
    sigmux.Delivered request suits kept calls (.startLow request reglist) := by
  unfold Handling.startLow
  split
  · next wants =>
      refine ⟨rfl, wants, covers, [], kept, rfl, covers, ?_⟩
      rw [Request.due, Request.wanted_nil, List.append_nil]
      exact called
  · next declines =>
      refine ⟨rfl, fun _ => ?_⟩
      rw [Request.due, Request.wanted, Request.wanted, if_neg declines, List.append_nil]
      exact called

/-- The pass comes past one more node, which it calls if it must. -/
theorem exists_done {it : ρ} {done todo rest : List ρ} (called : List ρ)
    (split : kept = done ++ todo) (sub : todo.Sublist (it :: rest))
    (due : (request.due suits kept pass done).Sublist calls)
    (calling : it ∈ kept → (calls ++ request.wanted suits pass [it]).Sublist called)
    (more : calls.Sublist called) :
    ∃ done todo, kept = done ++ todo ∧ todo.Sublist rest ∧
      (request.due suits kept pass done).Sublist called := by
  cases sub with
  | cons _ sub => exact ⟨done, todo, split, sub, due.trans more⟩
  | @cons_cons todo _ _ sub =>
      refine ⟨done ++ [it], todo, by rw [split, List.append_assoc]; rfl, sub, ?_⟩
      rw [Request.due_append]
      exact (due.append_right _).trans (calling (by simp [split]))

/-- A step of the handling itself. -/
theorem delivered_of_reads (reads : sigmux.Reads activity label handling calls)
    (inside : handling.inside)
    (agree : ∀ registration ∈ kept, ∀ pass,
      sigmux.matching request.signum pass registration = suits pass registration)
    (before : sigmux.Delivered request suits kept (sigmux.calls activity)
      (sigmux.handling activity)) : sigmux.Delivered request suits kept calls handling := by
  cases reads with
  | signal was => cases inside
  | enter was =>
      rw [was] at before
      exact before.elim
  | load was =>
      rw [was] at before
      rcases before with ⟨rfl, none, ring, soundRing, sub⟩
      have covers : sigmux.Covers (sigmux.next Option.none) kept :=
        ⟨ring, soundRing.ring.follows.walks, sub⟩
      unfold Handling.startNormal
      split
      · next wants =>
          refine ⟨rfl, wants, covers, [], kept, rfl, covers, ?_⟩
          rw [Request.due, Request.wanted_nil]
          exact List.nil_sublist _
      · next declines =>
          refine delivered_startLow covers ?_
          rw [Request.wanted, if_neg declines]
          exact List.nil_sublist _
  | @pass _ _ pass was =>
      rw [was] at before
      rcases before with ⟨rfl, _, covers, done, todo, split, ⟨ahead, isAhead, sub⟩, due⟩
      have finished : ahead = [] := Walks.unique isAhead rfl
      rw [finished, List.sublist_nil] at sub
      rw [sub, List.append_nil] at split
      rw [← split] at due
      cases pass with
      | normal => exact delivered_startLow covers due
      | low => exact ⟨rfl, fun _ => due⟩
  | @call asked _ pass it node was present wants =>
      rw [was] at before
      rcases before with ⟨rfl, asks, covers, done, todo, split, ⟨ahead, isAhead, sub⟩, due⟩
      cases ahead with
      | nil => cases (show some it = none from isAhead)
      | cons first rest =>
          obtain rfl := Option.some.inj isAhead.1
          have calling : (sigmux.calls activity ++ asked.wanted suits pass [it]).Sublist
              (sigmux.calls activity ++ [it]) :=
            Request.wanted_sublist.append_left _
          rcases exists_done _ split sub due (fun _ => calling) (List.sublist_append_left ..) with
            ⟨done, todo, split, sub, due⟩
          exact ⟨rfl, asks, covers, done, todo, split, ⟨rest, isAhead, sub⟩, due⟩
  | @skip asked _ pass it node was present refuses =>
      rw [was] at before
      rcases before with ⟨rfl, asks, covers, done, todo, split, ⟨ahead, isAhead, sub⟩, due⟩
      cases ahead with
      | nil => cases (show some it = none from isAhead)
      | cons first rest =>
          obtain rfl := Option.some.inj isAhead.1
          have calling (isKept : it ∈ kept) : (sigmux.calls activity ++
              asked.wanted suits pass [it]).Sublist (sigmux.calls activity) := by
            have notSuits : ¬ suits pass it := by
              rw [← agree it isKept, matching_of_memory present]
              exact refuses
            simp [Request.wanted, notSuits]
          rcases exists_done _ split sub due calling (List.Sublist.refl _) with
            ⟨done, todo, split, sub, due⟩
          exact ⟨rfl, asks, covers, done, todo, split, ⟨rest, isAhead, sub⟩, due⟩
  | answer was =>
      rw [was] at before
      exact before
  | advance was =>
      rw [was] at before
      rcases before with ⟨rfl, asks, covers, done, todo, split, ⟨ahead, isAhead, sub⟩, due⟩
      exact ⟨rfl, asks, covers, done, todo, split, ⟨ahead, isAhead.2, sub⟩, due⟩
  | stop was =>
      rw [was] at before
      exact ⟨before.1, nofun⟩
  | exit => cases inside

variable [DecidableEq α] [DecidableEq ρ]

theorem Sound.delivering_of_moves (sound : sigmux.Sound list) (moves : sigmux.Moves label next)
    (reached : ∀ registration ∈ handling.pointers, sigmux.Reached registration)
    (pointer : ∀ registration, reglist = some registration → registration ∈ handling.pointers)
    (linked : ∀ registration ∈ kept, (next.stage registration).linked)
    (before : sigmux.Delivering request suits kept calls handling reglist pass) :
    next.Delivering request suits kept calls handling reglist pass := by
  rcases before with
    ⟨asks, ⟨walk, walks, keptSub⟩, done, todo, split, ⟨ahead, isAhead, sub⟩, due⟩
  rcases sound.exists_walks_of_moves_option moves
    (fun registration same => reached registration (pointer registration same)) walks with
    ⟨walkLater, walksLater, _, keepsWalk⟩
  rcases sound.exists_ahead_of_moves moves reached isAhead with ⟨later, isLater, _, keeps⟩
  refine ⟨asks, ⟨walkLater, walksLater, keepsWalk kept keptSub linked⟩, done, todo, split,
    ⟨later, isLater, keeps todo sub fun registration isTodo => ?_⟩, due⟩
  exact linked registration (by rw [split]; exact List.mem_append_right _ isTodo)

/-- A step of somebody else. -/
theorem Sound.delivered_of_moves (sound : sigmux.Sound list) (moves : sigmux.Moves label next)
    (reached : ∀ registration ∈ handling.pointers, sigmux.Reached registration)
    (linked : ∀ registration ∈ kept, (next.stage registration).linked)
    (before : sigmux.Delivered request suits kept calls handling) :
    next.Delivered request suits kept calls handling := by
  cases handling with
  | outside | entering => exact before
  | loading =>
      rcases before with ⟨same, none, ring, soundRing, sub⟩
      rcases exists_sound_of_moves soundRing moves with ⟨later, soundLater, keeps⟩
      exact ⟨same, none, later, soundLater, keeps kept sub linked⟩
  | scanning | calling | advancing =>
      exact ⟨before.1, sound.delivering_of_moves moves reached
        (fun registration same => by simp [Handling.pointers, same]) linked before.2⟩
  | exiting => exact before

theorem Guarded.delivered_of_moves {grace : GracePeriod.State α} (guarded : sigmux.Guarded grace)
    (moves : sigmux.Moves label next) (inside : (next.handling activity).inside)
    (linked : ∀ registration ∈ kept, (next.stage registration).linked)
    (agree : ∀ registration ∈ kept, ∀ pass,
      sigmux.matching request.signum pass registration = suits pass registration)
    (before : sigmux.Delivered request suits kept (sigmux.calls activity)
      (sigmux.handling activity)) :
    next.Delivered request suits kept (next.calls activity) (next.handling activity) := by
  rcases guarded.sound with ⟨list, sound⟩
  have reached : ∀ registration ∈ (sigmux.handling activity).pointers,
      sigmux.Reached registration := fun registration pointer =>
    guarded.reached ⟨Handling.inside_of_mem_pointers pointer, Or.inl pointer⟩
  have bystander : next.Delivered request suits kept (sigmux.calls activity)
      (sigmux.handling activity) := sound.delivered_of_moves moves reached linked before
  rcases handling_of_moves moves with ⟨reader, handling, calls, reads, rfl⟩ |
    ⟨handlings, callings, _⟩
  · by_cases same : activity = reader
    · subst same
      rw [handling_read_self] at inside ⊢
      rw [calls_read_self]
      refine sound.delivered_of_moves moves (fun registration pointer => ?_) linked
        (delivered_of_reads reads inside agree before)
      rcases guarded.known_of_reads reads inside (Or.inl pointer) with knew | isLinked
      · exact guarded.reached knew
      · exact Or.inl isLinked
    · rw [handling_read_of_ne same, calls_read_of_ne same]
      exact bystander
  · rw [handlings, callings]
    exact bystander

end Sigmux

section Systems

variable [DecidableEq α] [DecidableEq ρ] {state first last : Sigmux α ρ η × Phaser α}
  {labels : List (Event α)}

/-- The activity is handling a signal, and the registrations are linked. -/
def Holds (activity : α) (kept : List ρ) (state : Sigmux α ρ η × Phaser α) : Prop :=
  (state.1.handling activity).inside ∧ ∀ registration ∈ kept, (state.1.stage registration).linked

omit [DecidableEq α] [DecidableEq ρ] in
instance : DecidablePred (Holds activity kept : Sigmux α ρ η × Phaser α → Prop) :=
  fun state => inferInstanceAs (Decidable ((state.1.handling activity).inside ∧
    ∀ registration ∈ kept, (state.1.stage registration).linked))

structure Delivers (request : Request) (suits : Pass → ρ → Bool) (kept : List ρ) (activity : α)
    (state : Sigmux α ρ η × Phaser α) : Prop where
  reachable : (sigmuxGlobal α ρ η).Reachable state
  linked : ∀ registration ∈ kept, (state.1.stage registration).linked
  agree : ∀ registration ∈ kept, ∀ pass,
    state.1.matching request.signum pass registration = suits pass registration
  delivered : state.1.Delivered request suits kept (state.1.calls activity)
    (state.1.handling activity)

theorem Delivers.step {next : Sigmux α ρ η × Phaser α}
    (delivers : Delivers request suits kept activity state)
    (step : (sigmuxGlobal α ρ η).step state label next) (holds : Holds activity kept next) :
    Delivers request suits kept activity next := by
  have reachable := delivers.reachable.step step
  rcases moves_of_step step with moves | same
  · rcases exists_guarded_of_reachable delivers.reachable with ⟨grace, guarded, _⟩
    refine ⟨reachable, holds.2, fun registration isKept pass => ?_,
      guarded.delivered_of_moves moves holds.1 holds.2 delivers.agree delivers.delivered⟩
    rw [Sigmux.matching_of_moves moves (Or.inl (delivers.linked registration isKept)),
      delivers.agree registration isKept]
  · refine ⟨reachable, holds.2, ?_, ?_⟩
    · rw [same]
      exact delivers.agree
    · rw [same]
      exact delivers.delivered

theorem delivers_of_loading (reachable : (sigmuxGlobal α ρ η).Reachable first)
    (loads : first.1.handling activity = .loading request)
    (ring : Follows first.1.next none list) (sub : kept.Sublist list) :
    Delivers request (first.1.matching request.signum) kept activity first := by
  rcases exists_guarded_of_reachable reachable with ⟨grace, guarded, _⟩
  rcases guarded.sound with ⟨own, sound⟩
  obtain rfl := ring.unique sound.ring.follows
  refine ⟨reachable, fun registration isKept => (sound.mem_iff _).1 (sub.subset isKept),
    fun _ _ _ => rfl, ?_⟩
  have searched := searched_of_reachable reachable activity
  rw [loads] at searched ⊢
  exact ⟨rfl, searched, list, sound, sub⟩

/-- Registrations which are in the ring when a handling loads the first one, and stay in it until
the handling has come to the end of the ring, have been called: first those of normal priority,
then those of low priority, each of them in the order of the ring. -/
theorem wanted_sublist_calls {asked : Request}
    (reachable : (sigmuxGlobal α ρ η).Reachable first)
    (loads : first.1.handling activity = .loading request)
    (ring : Follows first.1.next none list) (sub : kept.Sublist list)
    (run : ((sigmuxGlobal α ρ η).within (Holds activity kept)).Run first labels last)
    (exits : last.1.handling activity = .exiting asked .continueSearch) :
    (request.wanted (first.1.matching request.signum) .normal kept ++
      request.wanted (first.1.matching request.signum) .low kept).Sublist
        (last.1.calls activity) := by
  have delivers : Delivers request (first.1.matching request.signum) kept activity last := by
    refine run.invariant _ ?_ (delivers_of_loading reachable loads ring sub)
    rintro before label after delivers ⟨step, holds⟩
    exact delivers.step step holds
  have delivered := delivers.delivered
  rw [exits] at delivered
  exact delivered.2 rfl

/-- The first registration of the ring goes while its handler is called. -/
theorem wanted_sublist_calls_besideOneLeaving :
    ∃ first last : Sigmux Bool Bool Unit × Phaser Bool, ∃ labels,
      (sigmuxGlobal Bool Bool Unit).Reachable first ∧
      first.1.handling true = .loading ⟨5, 1⟩ ∧ Follows first.1.next none [false, true] ∧
      ((sigmuxGlobal Bool Bool Unit).within (Holds true [true])).Run first labels last ∧
      last.1.stage false = .draining ∧
      last.1.handling true = .exiting ⟨5, 1⟩ .continueSearch ∧
      (Request.wanted ⟨5, 1⟩ (first.1.matching 5) .normal [true] ++
        Request.wanted ⟨5, 1⟩ (first.1.matching 5) .low [true]).Sublist (last.1.calls true) := by
  have realizes := @realizes_sigmuxGlobal Bool Bool Unit _ _ _ (by decide)
  rcases realizes.exists_reachable (Sigmux.init, Phaser.init) ⟨rfl, rfl⟩
    (registering true 0 ++ registering false 0 ++ entering ⟨5, 1⟩)
    (fun state => (state.1.handling true = .loading ⟨5, 1⟩ ∧ state.1.next none = some false ∧
        state.1.next (some false) = some true ∧ state.1.next (some true) = none) ∧
      (LabelledSystem.replay (LabelledSystem.restrict
        (LabelledSystem.together Sigmux.react Phaser.react) (Holds true [true]))
        ([(some (.run true), none), (some (.run true), none), (some (.unregister false), none),
          (some (.work false), none), (some (.work false), none), (some (.work false), none),
          (some (.work false), some .drain), (some (.answer true .continueSearch), none)] ++
          List.replicate 2 (some (.run true), none) ++
          [(some (.answer true .continueSearch), none)] ++
          List.replicate 2 (some (.run true), none)) state).any fun (_, last) =>
            last.1.stage false = .draining ∧
              last.1.handling true = .exiting ⟨5, 1⟩ .continueSearch)
    (by decide) with ⟨first, reachable, ⟨loads, links⟩, replayed⟩
  have ring : Follows first.1.next none [false, true] := links
  rcases (realizes.restrict (Holds true [true])).exists_run _ _
    (fun _ last => last.1.stage false = .draining ∧
      last.1.handling true = .exiting ⟨5, 1⟩ .continueSearch) replayed with
    ⟨labels, last, run, drains, exits⟩
  exact ⟨first, last, labels, reachable, loads, ring, run, drains, exits,
    wanted_sublist_calls reachable loads ring (by simp) run exits⟩

end Systems

end AndroidCollection.Linker
