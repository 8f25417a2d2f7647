import AndroidCollection.Linker.Sigmux

/-!
# The ring of registrations

Whatever the owners of the registrations and the handlings do, the registrations which are
linked make a ring in both directions, except for what the one with the mutex is changing.
A registration which has been bypassed still leads into the ring.
-/

universe u v w

namespace AndroidCollection.Linker

open GracePeriod (Event)

open LinkedRing (Edit Ring)

namespace Stage

/-- The links from the sentinel on reach the registration. -/
def linked : Stage → Bool
  | .unlockingNew | .registered | .leaving | .bypassing => true
  | _ => false

/-- The owner of the registration has the mutex. -/
def locked : Stage → Bool
  | .linking | .settingBack | .publishing | .unlockingNew | .bypassing | .unhooking
  | .startingDrain | .draining | .unlocking => true
  | _ => false

/-- It is bypassed, and the drain after that is not over. -/
def bypassed : Stage → Bool
  | .unhooking | .startingDrain | .draining => true
  | _ => false

def edit {ρ : Type v} (registration : ρ) : Stage → Edit ρ
  | .settingBack => .prepared registration
  | .publishing => .pushed registration
  | .unhooking => .bypassed registration
  | .startingDrain | .draining => .removed registration
  | _ => .whole

theorem eq_of_bypassed {stage : Stage} (bypassed : stage.bypassed) :
    stage = .unhooking ∨ stage = .startingDrain ∨ stage = .draining := by
  revert bypassed
  cases stage <;> simp [Stage.bypassed]

theorem locked_of_bypassed {stage : Stage} (bypassed : stage.bypassed) : stage.locked := by
  rcases eq_of_bypassed bypassed with rfl | rfl | rfl <;> rfl

end Stage

namespace Sigmux

variable {α : Type u} {ρ : Type v} {η : Type w} {sigmux next : Sigmux α ρ η}

def edit (sigmux : Sigmux α ρ η) : Edit ρ :=
  match sigmux.holder with
  | .owner registration => (sigmux.stage registration).edit registration
  | _ => .whole

/-- A handling of the signal calls the handler of the registration in this pass. -/
def matching (sigmux : Sigmux α ρ η) (signum : ℕ) (pass : Pass) (registration : ρ) : Bool :=
  match sigmux.memory registration with
  | some node => node.pass = pass ∧ signum ∈ node.signals
  | none => false

/-- The list is the ring of the linked registrations, the newest one first. -/
structure Sound (sigmux : Sigmux α ρ η) (list : List ρ) : Prop where
  nodup : list.Nodup
  mem_iff : ∀ registration, registration ∈ list ↔ (sigmux.stage registration).linked
  ring : Ring sigmux.next sigmux.prev list sigmux.edit
  allocated : ∀ registration,
    (sigmux.memory registration).isSome ↔ sigmux.stage registration ≠ .absent
  locked : ∀ registration, (sigmux.stage registration).locked →
    sigmux.holder = .owner registration

theorem edit_of_owner {registration : ρ} (owner : sigmux.holder = .owner registration) :
    sigmux.edit = (sigmux.stage registration).edit registration := by
  rw [edit, owner]

theorem sound_init : (init : Sigmux α ρ η).Sound [] :=
  ⟨List.nodup_nil, by simp [init, Stage.linked], ⟨rfl, rfl⟩, by simp [init],
    by simp [init, Stage.locked]⟩

namespace Sound

variable {list : List ρ} {registration other : ρ}

theorem ring_of_locked (sound : sigmux.Sound list)
    (locked : (sigmux.stage registration).locked) :
    Ring sigmux.next sigmux.prev list ((sigmux.stage registration).edit registration) := by
  rw [← edit_of_owner (sound.locked registration locked)]
  exact sound.ring

/-- Only one owner has the mutex. -/
theorem eq_of_locked (sound : sigmux.Sound list) (locked : (sigmux.stage registration).locked)
    (lockedOther : (sigmux.stage other).locked) : registration = other := by
  have same := (sound.locked registration locked).symm.trans (sound.locked other lockedOther)
  cases same
  rfl

/-- From a registration which is linked or was bypassed the links lead into the ring. -/
theorem next_linked (sound : sigmux.Sound list)
    (reachable : (sigmux.stage registration).linked ∨ (sigmux.stage registration).bypassed)
    {follower : ρ} (leads : sigmux.next (some registration) = some follower) :
    (sigmux.stage follower).linked := by
  rw [← sound.mem_iff]
  rcases reachable with linked | bypassed
  · rcases List.append_of_mem ((sound.mem_iff registration).2 linked) with ⟨front, back, rfl⟩
    have after := sound.ring.follows.drop.2.next_eq.symm.trans leads
    exact List.mem_append_right _ (List.mem_cons_of_mem _ (List.mem_of_mem_head? after))
  · have ring := sound.ring_of_locked (Stage.locked_of_bypassed bypassed)
    have own : ∃ front back, list = front ++ back ∧
        sigmux.next (some registration) = back.head? := by
      rcases Stage.eq_of_bypassed bypassed with stage | stage | stage <;> rw [stage] at ring
      · exact Ring.bypassed_next ring
      · exact Ring.removed_next ring
      · exact Ring.removed_next ring
    rcases own with ⟨front, back, rfl, own⟩
    exact List.mem_append_right _ (List.mem_of_mem_head? (own.symm.trans leads))

theorem first_linked (sound : sigmux.Sound list) {follower : ρ}
    (leads : sigmux.next none = some follower) : (sigmux.stage follower).linked := by
  rw [← sound.mem_iff]
  exact List.mem_of_mem_head? (sound.ring.follows.next_eq.symm.trans leads)

end Sound

/-! ## Assignments -/

section Assignments

variable [DecidableEq ρ] {registration other : ρ} {node target : Option ρ}
  {change : Registration ρ η → Registration ρ η}

theorem update_cases (sigmux : Sigmux α ρ η) (registration : ρ)
    (change : Registration ρ η → Registration ρ η) :
    (∃ node, sigmux.memory registration = some node ∧ sigmux.update registration change =
      { sigmux with memory := Function.update sigmux.memory registration (some (change node)) }) ∨
    sigmux.memory registration = none ∧
      sigmux.update registration change = { sigmux with fault := true } := by
  unfold update
  split
  · next node allocated => exact Or.inl ⟨node, allocated, rfl⟩
  · next absent => exact Or.inr ⟨absent, rfl⟩

/-- An assignment to a link changes nothing but links. -/
structure Relinks (sigmux next : Sigmux α ρ η) : Prop where
  stage : next.stage = sigmux.stage
  holder : next.holder = sigmux.holder
  handling : next.handling = sigmux.handling
  calls : next.calls = sigmux.calls
  allocated : ∀ registration,
    (next.memory registration).isSome = (sigmux.memory registration).isSome
  matching : ∀ signum pass registration,
    next.matching signum pass registration = sigmux.matching signum pass registration

omit [DecidableEq ρ] in
theorem Relinks.trans {last : Sigmux α ρ η} (first : Relinks sigmux next)
    (second : Relinks next last) : Relinks sigmux last where
  stage := second.stage.trans first.stage
  holder := second.holder.trans first.holder
  handling := second.handling.trans first.handling
  calls := second.calls.trans first.calls
  allocated registration := (second.allocated registration).trans (first.allocated registration)
  matching signum pass registration :=
    (second.matching signum pass registration).trans (first.matching signum pass registration)

theorem Relinks.stage_setStage (relinks : Relinks sigmux next) (stage : Stage) :
    (next.setStage registration stage).stage = Function.update sigmux.stage registration stage := by
  rw [setStage, relinks.stage]

theorem relinks_update (same : ∀ node, (change node).signals = node.signals ∧
    (change node).pass = node.pass) :
    Relinks sigmux (sigmux.update registration change) := by
  rcases update_cases sigmux registration change with ⟨node, allocated, eq⟩ | ⟨_, eq⟩
  · rw [eq]
    refine ⟨rfl, rfl, rfl, rfl, fun other => ?_, fun signum pass other => ?_⟩
    · by_cases here : other = registration
      · subst here
        simp [allocated]
      · simp [here]
    · by_cases here : other = registration
      · subst here
        simp only [matching, Function.update_self, allocated]
        exact decide_eq_decide.2 (by rw [(same node).1, (same node).2])
      · simp [matching, here]
  · rw [eq]
    exact ⟨rfl, rfl, rfl, rfl, fun _ => rfl, fun _ _ _ => rfl⟩

theorem relinks_setNext (sigmux : Sigmux α ρ η) (node target : Option ρ) :
    Relinks sigmux (sigmux.setNext node target) := by
  cases node with
  | none => exact ⟨rfl, rfl, rfl, rfl, fun _ => rfl, fun _ _ _ => rfl⟩
  | some registration => exact relinks_update fun _ => ⟨rfl, rfl⟩

theorem relinks_setPrev (sigmux : Sigmux α ρ η) (node target : Option ρ) :
    Relinks sigmux (sigmux.setPrev node target) := by
  cases node with
  | none => exact ⟨rfl, rfl, rfl, rfl, fun _ => rfl, fun _ _ _ => rfl⟩
  | some registration => exact relinks_update fun _ => ⟨rfl, rfl⟩

theorem next_setStage (stage : Stage) : (sigmux.setStage registration stage).next = sigmux.next :=
  rfl

theorem prev_setStage (stage : Stage) : (sigmux.setStage registration stage).prev = sigmux.prev :=
  rfl

omit [DecidableEq ρ] in
/-- The sentinel is never freed. -/
def Allocated (sigmux : Sigmux α ρ η) (node : Option ρ) : Prop :=
  ∀ registration, node = some registration → (sigmux.memory registration).isSome

theorem update_of_allocated (allocated : sigmux.Allocated (some registration)) :
    ∃ node, sigmux.memory registration = some node ∧ sigmux.update registration change =
      { sigmux with
        memory := Function.update sigmux.memory registration (some (change node)) } := by
  rcases update_cases sigmux registration change with found | ⟨absent, _⟩
  · exact found
  · have present := allocated registration rfl
    rw [absent] at present
    cases present

theorem next_setNext (allocated : sigmux.Allocated node) :
    (sigmux.setNext node target).next = Function.update sigmux.next node target := by
  funext at_
  cases node with
  | none => cases at_ <;> simp [setNext, Sigmux.next]
  | some registration =>
      rcases update_of_allocated allocated with ⟨was, present, eq⟩
      rw [setNext, eq]
      cases at_ with
      | none => simp [Sigmux.next]
      | some other =>
          by_cases same : other = registration
          · simp [Sigmux.next, same]
          · simp [Sigmux.next, same]

theorem prev_setNext : (sigmux.setNext node target).prev = sigmux.prev := by
  funext at_
  cases node with
  | none => cases at_ <;> rfl
  | some registration =>
      rcases update_cases sigmux registration fun node => { node with next := target } with
        ⟨was, present, eq⟩ | ⟨_, eq⟩
      · rw [setNext, eq]
        cases at_ with
        | none => rfl
        | some other =>
            by_cases same : other = registration
            · simp [prev, same, present]
            · simp [prev, same]
      · rw [setNext, eq]
        cases at_ <;> rfl

theorem prev_setPrev (allocated : sigmux.Allocated node) :
    (sigmux.setPrev node target).prev = Function.update sigmux.prev node target := by
  funext at_
  cases node with
  | none => cases at_ <;> simp [setPrev, prev]
  | some registration =>
      rcases update_of_allocated allocated with ⟨was, present, eq⟩
      rw [setPrev, eq]
      cases at_ with
      | none => simp [prev]
      | some other =>
          by_cases same : other = registration
          · simp [prev, same]
          · simp [prev, same]

theorem next_setPrev : (sigmux.setPrev node target).next = sigmux.next := by
  funext at_
  cases node with
  | none => cases at_ <;> rfl
  | some registration =>
      rcases update_cases sigmux registration fun node => { node with prev := target } with
        ⟨was, present, eq⟩ | ⟨_, eq⟩
      · rw [setPrev, eq]
        cases at_ with
        | none => rfl
        | some other =>
            by_cases same : other = registration
            · simp [Sigmux.next, same, present]
            · simp [Sigmux.next, same]
      · rw [setPrev, eq]
        cases at_ <;> rfl

theorem fault_setNext (allocated : sigmux.Allocated node) :
    (sigmux.setNext node target).fault = sigmux.fault := by
  cases node with
  | none => rfl
  | some registration =>
      rcases update_of_allocated allocated with ⟨_, _, eq⟩
      rw [setNext, eq]

theorem fault_setPrev (allocated : sigmux.Allocated node) :
    (sigmux.setPrev node target).fault = sigmux.fault := by
  cases node with
  | none => rfl
  | some registration =>
      rcases update_of_allocated allocated with ⟨_, _, eq⟩
      rw [setPrev, eq]

end Assignments

/-! ## Steps -/

section Steps

variable [DecidableEq ρ] {list later : List ρ} {registration : ρ} {stage : Stage}

/-- The stage of one registration changes, and nothing else but links. -/
structure Works (sigmux next : Sigmux α ρ η) (registration : ρ) (stage : Stage) : Prop where
  stages : next.stage = Function.update sigmux.stage registration stage
  allocated : ∀ other, (next.memory other).isSome = (sigmux.memory other).isSome
  present : sigmux.stage registration ≠ .absent
  stays : stage ≠ .absent

theorem Works.stage_self (works : Works sigmux next registration stage) :
    next.stage registration = stage := by
  rw [works.stages, Function.update_self]

theorem Works.stage_of_ne (works : Works sigmux next registration stage) {other : ρ}
    (different : other ≠ registration) : next.stage other = sigmux.stage other := by
  rw [works.stages, Function.update_of_ne different]

theorem Works.setStage (present : sigmux.stage registration ≠ .absent) (stays : stage ≠ .absent) :
    Works sigmux (sigmux.setStage registration stage) registration stage :=
  ⟨rfl, fun _ => rfl, present, stays⟩

theorem Relinks.works (relinks : Relinks sigmux next)
    (present : sigmux.stage registration ≠ .absent) (stays : stage ≠ .absent) :
    Works sigmux (next.setStage registration stage) registration stage where
  stages := relinks.stage_setStage stage
  allocated := relinks.allocated
  present := present
  stays := stays

/-- A step of the owner who has the mutex after it. -/
theorem Sound.of_works (sound : sigmux.Sound list) (works : Works sigmux next registration stage)
    (alone : ∀ other ≠ registration, ¬ (sigmux.stage other).locked)
    (holder : next.holder = .owner registration) (nodup : later.Nodup)
    (mem_self : registration ∈ later ↔ stage.linked)
    (mem_other : ∀ other ≠ registration, (other ∈ later ↔ other ∈ list))
    (ring : Ring next.next next.prev later (stage.edit registration)) : next.Sound later where
  nodup := nodup
  mem_iff other := by
    by_cases same : other = registration
    · rw [same, works.stage_self, mem_self]
    · rw [works.stage_of_ne same, mem_other other same, sound.mem_iff]
  ring := by
    rw [edit_of_owner holder, works.stage_self]
    exact ring
  allocated other := by
    rw [works.allocated, sound.allocated]
    by_cases same : other = registration
    · simp [same, works.stage_self, works.present, works.stays]
    · rw [works.stage_of_ne same]
  locked other locked := by
    by_cases same : other = registration
    · rw [same, holder]
    · rw [works.stage_of_ne same] at locked
      exact absurd locked (alone other same)

/-- The list stays as it is. -/
theorem Sound.of_works_same (sound : sigmux.Sound list)
    (works : Works sigmux next registration stage)
    (alone : ∀ other ≠ registration, ¬ (sigmux.stage other).locked)
    (holder : next.holder = .owner registration)
    (linked : stage.linked = (sigmux.stage registration).linked)
    (ring : Ring next.next next.prev list (stage.edit registration)) : next.Sound list :=
  sound.of_works works alone holder sound.nodup (by rw [sound.mem_iff, linked])
    (fun _ _ => Iff.rfl) ring

omit [DecidableEq ρ] in
theorem Sound.alone (sound : sigmux.Sound list) (locked : (sigmux.stage registration).locked) :
    ∀ other ≠ registration, ¬ (sigmux.stage other).locked :=
  fun _ different lockedOther => different (sound.eq_of_locked lockedOther locked)

omit [DecidableEq ρ] in
theorem Sound.unlocked_of_nobody (sound : sigmux.Sound list) (free : sigmux.holder = .nobody)
    (other : ρ) : ¬ (sigmux.stage other).locked := by
  intro locked
  have owner := (sound.locked other locked).symm.trans free
  cases owner

/-- A step at which nobody has the mutex before or after. -/
theorem Sound.of_unlocked (sound : sigmux.Sound list)
    (works : Works sigmux next registration stage)
    (alone : ∀ other ≠ registration, ¬ (sigmux.stage other).locked)
    (unlocked : ¬ stage.locked) (holder : next.holder = .nobody)
    (linked : stage.linked = (sigmux.stage registration).linked)
    (ring : Ring next.next next.prev list .whole) : next.Sound list where
  nodup := sound.nodup
  mem_iff other := by
    by_cases same : other = registration
    · rw [same, works.stage_self, sound.mem_iff, linked]
    · rw [works.stage_of_ne same, sound.mem_iff]
  ring := by
    rw [edit, holder]
    exact ring
  allocated other := by
    rw [works.allocated, sound.allocated]
    by_cases same : other = registration
    · simp [same, works.stage_self, works.present, works.stays]
    · rw [works.stage_of_ne same]
  locked other locked := by
    by_cases same : other = registration
    · rw [same, works.stage_self] at locked
      exact absurd locked unlocked
    · rw [works.stage_of_ne same] at locked
      exact absurd locked (alone other same)

/-- A step of an owner without the mutex. -/
theorem Sound.of_unowned (sound : sigmux.Sound list)
    (stages : next.stage = Function.update sigmux.stage registration stage)
    (unlocked : ¬ (sigmux.stage registration).locked ∧ ¬ stage.locked)
    (holder : next.holder = sigmux.holder)
    (linked : stage.linked = (sigmux.stage registration).linked)
    (allocated : ∀ other, (next.memory other).isSome ↔ next.stage other ≠ .absent)
    (ring : sigmux.edit.edited ≠ some registration → Ring next.next next.prev list sigmux.edit) :
    next.Sound list where
  nodup := sound.nodup
  mem_iff other := by
    rw [stages, sound.mem_iff]
    by_cases same : other = registration
    · rw [same, Function.update_self, linked]
    · rw [Function.update_of_ne same]
  ring := by
    have element (stage : Stage) (unlocked : ¬ stage.locked) :
        stage.edit registration = .whole := by
      cases stage <;> first | rfl | exact absurd rfl unlocked
    have edits : next.edit = sigmux.edit := by
      rw [edit, edit, holder, stages]
      split
      · next owner _ =>
          by_cases same : owner = registration
          · rw [same, Function.update_self, element _ unlocked.1, element _ unlocked.2]
          · rw [Function.update_of_ne same]
      · rfl
    rw [edits]
    refine ring ?_
    rw [edit]
    split
    · next owner _ =>
        by_cases same : owner = registration
        · rw [same, element _ unlocked.1]
          exact nofun
        · intro isElement
          refine same ?_
          cases stage : sigmux.stage owner <;> rw [stage] at isElement <;>
            first
            | exact Option.some.inj isElement
            | cases isElement
    · exact nofun
  allocated := allocated
  locked other locked := by
    rw [stages] at locked
    by_cases same : other = registration
    · rw [same, Function.update_self] at locked
      exact absurd locked unlocked.2
    · rw [Function.update_of_ne same] at locked
      rw [holder]
      exact sound.locked other locked

end Steps

section Moves

variable [DecidableEq ρ] [DecidableEq α] {list : List ρ} {registration : ρ}
  {label : Option (Event α)}

omit [DecidableEq ρ] [DecidableEq α] in
theorem Sound.allocated_of_stage (sound : sigmux.Sound list)
    (present : sigmux.stage registration ≠ .absent) : sigmux.Allocated (some registration) := by
  intro other same
  cases same
  exact (sound.allocated registration).2 present

omit [DecidableEq ρ] [DecidableEq α] in
theorem Sound.allocated_of_mem (sound : sigmux.Sound list) {node : Option ρ}
    (member : ∀ registration, node = some registration → registration ∈ list) :
    sigmux.Allocated node := by
  intro registration same
  have linked := (sound.mem_iff registration).1 (member registration same)
  refine (sound.allocated registration).2 fun absent => ?_
  rw [absent] at linked
  cases linked

omit [DecidableEq ρ] [DecidableEq α] in
theorem Sound.allocated_next (sound : sigmux.Sound list) {front back : List ρ}
    (split : list = front ++ back) : sigmux.Allocated back.head? := by
  refine sound.allocated_of_mem fun registration same => ?_
  rw [split]
  exact List.mem_append_right _ (List.mem_of_mem_head? same)

omit [DecidableEq α] in
theorem Sound.prepare (sound : sigmux.Sound list)
    (was : sigmux.stage registration = .linking) :
    (((sigmux.setNext (some registration) (sigmux.next none)).setPrev
      (some registration) none).setStage registration .settingBack).Sound list := by
  have locked : (sigmux.stage registration).locked := by rw [was]; rfl
  have present : sigmux.stage registration ≠ .absent := by rw [was]; exact nofun
  have own := sound.allocated_of_stage present
  have relinks := (relinks_setNext sigmux (some registration) (sigmux.next none)).trans
    (relinks_setPrev _ (some registration) none)
  have stillOwn : (sigmux.setNext (some registration) (sigmux.next none)).Allocated
      (some registration) := fun other same => by
    rw [(relinks_setNext _ _ _).allocated]
    exact own other same
  refine sound.of_works_same (relinks.works present (by simp)) (sound.alone locked)
    (relinks.holder.trans (sound.locked registration locked)) (by rw [was]; rfl) ?_
  have ring := sound.ring_of_locked locked
  rw [was] at ring
  have notMem : registration ∉ list := by rw [sound.mem_iff, was]; exact nofun
  rw [next_setStage, prev_setStage, next_setPrev, next_setNext own, prev_setPrev stillOwn,
    prev_setNext]
  exact ring.prepare notMem

omit [DecidableEq ρ] [DecidableEq α] in
theorem Sound.allocated_of_settingBack (sound : sigmux.Sound list)
    (was : sigmux.stage registration = .settingBack) :
    sigmux.Allocated (sigmux.next (some registration)) := by
  have ring := sound.ring_of_locked (show (sigmux.stage registration).locked by rw [was]; rfl)
  rw [was] at ring
  rw [ring.2.2.2.1]
  exact sound.allocated_next (List.nil_append list).symm

omit [DecidableEq ρ] [DecidableEq α] in
theorem Sound.allocated_of_unhooking (sound : sigmux.Sound list)
    (was : sigmux.stage registration = .unhooking) :
    sigmux.Allocated (sigmux.next (some registration)) := by
  have ring := sound.ring_of_locked (show (sigmux.stage registration).locked by rw [was]; rfl)
  rw [was] at ring
  rcases Ring.bypassed_next ring with ⟨front, back, split, after⟩
  rw [after]
  exact sound.allocated_next split

omit [DecidableEq α] in
theorem Sound.setBack (sound : sigmux.Sound list)
    (was : sigmux.stage registration = .settingBack) :
    ((sigmux.setPrev (sigmux.next (some registration)) (some registration)).setStage
      registration .publishing).Sound list := by
  have locked : (sigmux.stage registration).locked := by rw [was]; rfl
  have relinks := relinks_setPrev sigmux (sigmux.next (some registration))
    (some registration)
  have ring := sound.ring_of_locked locked
  rw [was] at ring
  have own := sound.allocated_of_settingBack was
  refine sound.of_works_same (relinks.works (by rw [was]; exact nofun) (by simp))
    (sound.alone locked) (relinks.holder.trans (sound.locked registration locked))
    (by rw [was]; rfl) ?_
  rw [next_setStage, prev_setStage, next_setPrev, prev_setPrev own]
  exact ring.setBack sound.nodup

omit [DecidableEq α] in
theorem Sound.publish (sound : sigmux.Sound list)
    (was : sigmux.stage registration = .publishing) :
    ((sigmux.setNext none (some registration)).setStage registration .unlockingNew).Sound
      (registration :: list) := by
  have locked : (sigmux.stage registration).locked := by rw [was]; rfl
  have relinks := relinks_setNext sigmux none (some registration)
  have ring := sound.ring_of_locked locked
  rw [was] at ring
  have notMem : registration ∉ list := by rw [sound.mem_iff, was]; exact nofun
  refine sound.of_works (relinks.works (by rw [was]; exact nofun) (by simp)) (sound.alone locked)
    (relinks.holder.trans (sound.locked registration locked))
    (List.nodup_cons.2 ⟨notMem, sound.nodup⟩) (by simp [Stage.linked])
    (fun other different => by simp [different]) ?_
  rw [next_setStage, prev_setStage, next_setNext nofun, prev_setNext]
  exact ring.publish

omit [DecidableEq ρ] [DecidableEq α] in
theorem Sound.exists_prev (sound : sigmux.Sound list)
    (was : sigmux.stage registration = .bypassing) : ∃ front back,
    list = front ++ registration :: back ∧
      sigmux.prev (some registration) = LinkedRing.lastOf none front := by
  have ring := sound.ring_of_locked (show (sigmux.stage registration).locked by rw [was]; rfl)
  rw [was] at ring
  have mem : registration ∈ list := by rw [sound.mem_iff, was]; rfl
  rcases List.append_of_mem mem with ⟨front, back, rfl⟩
  exact ⟨front, back, rfl, ring.2.prev_eq⟩

omit [DecidableEq ρ] [DecidableEq α] in
theorem Sound.allocated_prev (sound : sigmux.Sound list)
    (was : sigmux.stage registration = .bypassing) :
    sigmux.Allocated (sigmux.prev (some registration)) := by
  rcases sound.exists_prev was with ⟨front, back, rfl, before⟩
  rw [before]
  refine sound.allocated_of_mem fun other same => ?_
  rcases @LinkedRing.lastOf_mem _ none front with isNone | ⟨last, member, isLast⟩
  · cases isNone.symm.trans same
  · obtain rfl := Option.some.inj (isLast.symm.trans same)
    exact List.mem_append_left _ member

omit [DecidableEq α] in
theorem Sound.bypass (sound : sigmux.Sound list)
    (was : sigmux.stage registration = .bypassing) :
    ((sigmux.setNext (sigmux.prev (some registration))
      (sigmux.next (some registration))).setStage registration .unhooking).Sound
        (list.erase registration) := by
  have locked : (sigmux.stage registration).locked := by rw [was]; rfl
  have relinks := relinks_setNext sigmux (sigmux.prev (some registration))
    (sigmux.next (some registration))
  have ring := sound.ring_of_locked locked
  rw [was] at ring
  have mem : registration ∈ list := by rw [sound.mem_iff, was]; rfl
  refine sound.of_works (relinks.works (by rw [was]; exact nofun) (by simp)) (sound.alone locked)
    (relinks.holder.trans (sound.locked registration locked)) (sound.nodup.erase registration)
    (by simp [Stage.linked, sound.nodup.not_mem_erase])
    (fun other different => List.mem_erase_of_ne different) ?_
  rw [next_setStage, prev_setStage, next_setNext (sound.allocated_prev was), prev_setNext]
  exact ring.bypass sound.nodup mem

omit [DecidableEq α] in
theorem Sound.unhook (sound : sigmux.Sound list)
    (was : sigmux.stage registration = .unhooking) :
    ((sigmux.setPrev (sigmux.next (some registration))
      (sigmux.prev (some registration))).setStage registration .startingDrain).Sound list := by
  have locked : (sigmux.stage registration).locked := by rw [was]; rfl
  have relinks := relinks_setPrev sigmux (sigmux.next (some registration))
    (sigmux.prev (some registration))
  have ring := sound.ring_of_locked locked
  rw [was] at ring
  have own := sound.allocated_of_unhooking was
  refine sound.of_works_same (relinks.works (by rw [was]; exact nofun) (by simp))
    (sound.alone locked) (relinks.holder.trans (sound.locked registration locked))
    (by rw [was]; rfl) ?_
  rw [next_setStage, prev_setStage, next_setPrev, prev_setPrev own]
  exact ring.unhook

omit [DecidableEq α] in
/-- A registration comes or goes outside the ring. -/
theorem Sound.of_memory (sound : sigmux.Sound list) {stage : Stage}
    {node : Option (Registration ρ η)} (outside : ¬ (sigmux.stage registration).linked)
    (unlocked : ¬ (sigmux.stage registration).locked ∧ ¬ stage.locked)
    (stays : ¬ stage.linked) (present : node.isSome ↔ stage ≠ .absent) :
    Sound { sigmux.setStage registration stage with
      memory := Function.update sigmux.memory registration node } list := by
  refine sound.of_unowned rfl unlocked rfl (by simp [stays, outside]) (fun other => ?_)
    fun notEdited => ?_
  · by_cases same : other = registration
    · simp [setStage, same, present]
    · simp [setStage, same, sound.allocated]
  · refine sound.ring.congr (mt (sound.mem_iff registration).1 outside) notEdited ?_ ?_
    · rintro (_ | other) different
      · rfl
      · have ne : other ≠ registration := fun same => different (congrArg some same)
        simp [Sigmux.next, ne]
    · rintro (_ | other) different
      · rfl
      · have ne : other ≠ registration := fun same => different (congrArg some same)
        simp [prev, ne]

omit [DecidableEq ρ] [DecidableEq α] in
/-- What was in order in the first list and is linked is in this order in the second one. -/
def Keeps (sigmux : Sigmux α ρ η) (list later : List ρ) : Prop :=
  ∀ kept : List ρ, kept.Sublist list → (∀ registration ∈ kept, (sigmux.stage registration).linked) →
    kept.Sublist later

omit [DecidableEq ρ] [DecidableEq α] in
theorem Keeps.refl : sigmux.Keeps list list :=
  fun _ sub _ => sub

/-- The ring after a step. -/
theorem exists_sound_of_moves (sound : sigmux.Sound list) (moves : sigmux.Moves label next) :
    ∃ later, next.Sound later ∧ next.Keeps list later := by
  cases moves with
  | read | fail =>
      exact ⟨list, ⟨sound.nodup, sound.mem_iff, sound.ring, sound.allocated, sound.locked⟩, .refl⟩
  | register was => exact ⟨list, sound.of_memory (by simp [was, Stage.linked])
      (by simp [was, Stage.locked]) (by simp [Stage.linked]) (by simp), .refl⟩
  | free was => exact ⟨list, sound.of_memory (by simp [was, Stage.linked])
      (by simp [was, Stage.locked]) (by simp [Stage.linked]) (by simp), .refl⟩
  | @unregister registration was =>
      refine ⟨list, sound.of_unowned rfl (by simp [was, Stage.locked]) rfl
        (by simp [was, Stage.linked]) (fun other => ?_) fun _ => sound.ring, .refl⟩
      by_cases same : other = registration
      · simp [setStage, same, sound.allocated, was]
      · simp [setStage, same, sound.allocated]
  | lock was free =>
      have ring := sound.ring
      rw [edit, free] at ring
      exact ⟨list, sound.of_works_same ⟨rfl, fun _ => rfl, by simp [was], by simp⟩
        (fun other _ => sound.unlocked_of_nobody free other) rfl (by simp [was, Stage.linked]) ring,
        .refl⟩
  | lockAgain was free =>
      have ring := sound.ring
      rw [edit, free] at ring
      exact ⟨list, sound.of_works_same ⟨rfl, fun _ => rfl, by simp [was], by simp⟩
        (fun other _ => sound.unlocked_of_nobody free other) rfl (by simp [was, Stage.linked]) ring,
        .refl⟩
  | prepare was => exact ⟨_, sound.prepare was, .refl⟩
  | setBack was => exact ⟨_, sound.setBack was, .refl⟩
  | publish was => exact ⟨_, sound.publish was, fun _ sub _ => sub.cons _⟩
  | @bypass registration was =>
      refine ⟨_, sound.bypass was, fun kept sub linked => ?_⟩
      have notKept : registration ∉ kept := fun isKept => by
        have stays := linked registration isKept
        rw [(relinks_setNext _ _ _).stage_setStage, Function.update_self] at stays
        cases stays
      have erased := sub.erase registration
      rwa [List.erase_of_not_mem notKept] at erased
  | unhook was => exact ⟨_, sound.unhook was, .refl⟩
  | @unlockNew registration was =>
      have locked : (sigmux.stage registration).locked := by rw [was]; rfl
      have ring := sound.ring_of_locked locked
      rw [was] at ring
      exact ⟨list, sound.of_unlocked ⟨rfl, fun _ => rfl, by simp [was], by simp⟩
        (sound.alone locked) (by simp [Stage.locked]) rfl (by simp [was, Stage.linked]) ring, .refl⟩
  | @unlock registration was =>
      have locked : (sigmux.stage registration).locked := by rw [was]; rfl
      have ring := sound.ring_of_locked locked
      rw [was] at ring
      exact ⟨list, sound.of_unlocked ⟨rfl, fun _ => rfl, by simp [was], by simp⟩
        (sound.alone locked) (by simp [Stage.locked]) rfl (by simp [was, Stage.linked]) ring, .refl⟩
  | @drain registration was =>
      have locked : (sigmux.stage registration).locked := by rw [was]; rfl
      have ring := sound.ring_of_locked locked
      rw [was] at ring
      exact ⟨list, sound.of_works_same (.setStage (by simp [was]) (by simp)) (sound.alone locked)
        (sound.locked registration locked) (by simp [was, Stage.linked]) ring, .refl⟩
  | @drained registration was =>
      have locked : (sigmux.stage registration).locked := by rw [was]; rfl
      have ring := sound.ring_of_locked locked
      rw [was] at ring
      exact ⟨list, sound.of_works_same (.setStage (by simp [was]) (by simp)) (sound.alone locked)
        (sound.locked registration locked) (by simp [was, Stage.linked]) ring.whole_of_removed,
        .refl⟩
  | @exchange _ holder was stays =>
      have edits : ∀ sigmux : Sigmux α ρ η,
          (∀ registration, sigmux.holder ≠ .owner registration) → sigmux.edit = .whole := by
        intro sigmux notOwner
        rw [edit]
        split
        · next owner => exact absurd owner (notOwner _)
        · rfl
      have ring := sound.ring
      rw [edits sigmux was, ← edits { sigmux with holder := holder } stays] at ring
      exact ⟨list, ⟨sound.nodup, sound.mem_iff, ring, sound.allocated, fun registration locked =>
        absurd (sound.locked registration locked) (was registration)⟩, .refl⟩

/-- Owners assign to allocated nodes only. -/
theorem Sound.fault_of_moves (sound : sigmux.Sound list) (moves : sigmux.Moves label next)
    (clear : sigmux.fault = false)
    (present : ∀ activity, ∀ it ∈ (sigmux.handling activity).pointers,
      (sigmux.memory it).isSome) : next.fault = false := by
  cases moves with
  | read | register | free | unregister | lock | lockAgain | unlockNew | unlock | drain | drained
  | exchange => exact clear
  | fail pointer absent =>
      have isPresent := present _ _ pointer
      rw [absent] at isPresent
      cases isPresent
  | @prepare registration was =>
      have own := sound.allocated_of_stage (show sigmux.stage registration ≠ .absent by simp [was])
      have stillOwn : (sigmux.setNext (some registration) (sigmux.next none)).Allocated
          (some registration) := fun other same => by
        rw [(relinks_setNext _ _ _).allocated]
        exact own other same
      exact ((fault_setPrev stillOwn).trans (fault_setNext own)).trans clear
  | setBack was => exact (fault_setPrev (sound.allocated_of_settingBack was)).trans clear
  | publish => exact clear
  | bypass was => exact (fault_setNext (sound.allocated_prev was)).trans clear
  | unhook was => exact (fault_setPrev (sound.allocated_of_unhooking was)).trans clear

end Moves

end Sigmux

end AndroidCollection.Linker
