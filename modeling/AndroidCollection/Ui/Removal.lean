import AndroidCollection.Ui.BackStack

/-!
# The removal of the fragments which `back` leaves

A call asks for the removal of its fragment by the flag `canRemove`, and the
flag of the fragment itself is that of the latest switch to it. A call for the
fragment which is current already switches to nothing, and `back` switches to
the fragment below with the flag cleared, so a flag which was asked for can be
lost. `back` removes the fragment it leaves exactly if the flag is in force.
-/

namespace AndroidCollection.Ui

open Java AppFragmentManager

/-! ## The flags of a run -/

/-- What the calls ask for the fragments, beside the manager. -/
structure Flags where
  /-- The latest call for the fragment passed `canRemove`. -/
  asked : Ref → Bool
  /-- The latest switch to the fragment was made by a call, and this one passed `canRemove`. -/
  inForce : Ref → Bool

namespace Flags

def initial : Flags where
  asked := fun _ => false
  inForce := fun _ => false

/-- A call for the fragment which was found for it. -/
def call (flags : Flags) (found : AppFragmentManager × Ref) (id : Option JString)
    (canRemove : Bool) : Flags where
  asked := Function.update flags.asked found.2 canRemove
  inForce :=
    if found.1.switches id found.2 then Function.update flags.inForce found.2 canRemove
    else flags.inForce

/-- `back` switches to the second fragment of the stack. -/
def reveal (flags : Flags) : List Ref → Flags
  | _ :: next :: _ => { flags with inForce := Function.update flags.inForce next false }
  | _ => flags

end Flags

def noteFlags (factory : ℤ → Bool) (flags : Flags) (manager : AppFragmentManager)
    (input : Input) (_ : Output) : Flags :=
  match input with
  | .showFragment3 id type args => flags.call (get factory manager id type args) id false
  | .showFragment4 id type _ args => flags.call (get factory manager id type args) id false
  | .showFragment5 id type _ canRemove args =>
      flags.call (get factory manager id type args) id canRemove
  | .showFragment6 id type _ canRemove _ args =>
      flags.call (get factory manager id type args) id canRemove
  | .back => flags.reveal manager.mFragmeBackStack

/-- The fragment is neither in the fragment map nor added. -/
def Gone (manager : AppFragmentManager) (fragment : Ref) : Prop :=
  fragment ∉ manager.mAdded ∧ ∀ key, manager.mFragmentHashMap key ≠ some fragment

/-- A fragment which `back` leaves is removed if its latest call asked for this. -/
def HonoursRemoval (factory : ℤ → Bool) (world : AppFragmentManager × Flags) (input : Input) :
    Prop :=
  input = .back → ∀ top next rest, world.1.mFragmeBackStack = top :: next :: rest →
    world.2.asked top = true → Gone (world.1.back factory).1 top

/-- A fragment which `back` leaves, and whose latest call asked for its removal, was last switched
to by a call which asked for this. -/
def KeepsAsked (world : AppFragmentManager × Flags) (input : Input) : Prop :=
  input = .back → ∀ top next rest, world.1.mFragmeBackStack = top :: next :: rest →
    world.2.asked top = true → world.2.inForce top = true

section Removal

variable {factory : ℤ → Bool} {manager : AppFragmentManager} {flags : Flags}

/-! ## The flag of a fragment -/

theorem switched_canRemove (tag : Option JString) (fragment : Ref) (stackMode : ℤ)
    (canRemove : Bool) (other : Ref) :
    ((manager.switched tag fragment stackMode canRemove).objects other).canRemove =
      if other = fragment then canRemove else (manager.objects other).canRemove := by
  simp only [switched]
  split
  · rfl
  · split <;> rfl

theorem given_canRemove (fragment : Ref) (args : Option Ref) (other : Ref) :
    ((given manager fragment args).objects other).canRemove =
      (manager.objects other).canRemove := by
  simp only [given, AppFragmentManager.modify]
  split
  · split <;> rfl
  · rfl

theorem get_canRemove (kept : Kept manager) (id : Option JString) (type : ℤ) (args : Option Ref)
    {other : Ref} (added : other ∈ manager.mAdded) :
    ((get factory manager id type args).1.objects other).canRemove =
      (manager.objects other).canRemove := by
  have older := (kept.named (kept.mapped added)).2
  unfold AppFragmentManager.get
  split
  · rfl
  · simp [put, AppFragmentManager.modify, older.ne]

/-! ## What `back` removes -/

theorem gone_release (ready : Ready manager) {top : Ref}
    (removable : (manager.objects top).canRemove = true) : Gone (manager.release top) top := by
  unfold release
  rw [if_pos removable]
  constructor
  · exact ready.distinct.not_mem_erase
  · intro key stored
    simp only [commit, List.foldl_cons, List.foldl_nil, executeOp, forget] at stored
    split at stored
    · cases stored
    · next different => exact different (ready.named stored).1.symm

/-- Switching to another fragment neither brings a fragment back nor, if it is not on the stack,
takes it away. -/
theorem mem_switched_added_other (kept : Kept manager) {tag : Option JString}
    {fragment other : Ref} {stackMode : ℤ} {canRemove : Bool} (different : other ≠ fragment)
    (notStacked : other ∉ manager.mFragmeBackStack) :
    other ∈ (manager.switched tag fragment stackMode canRemove).mAdded ↔
      other ∈ manager.mAdded := by
  rw [mem_switched_added kept]
  constructor
  · rintro ⟨known, _⟩
    exact known.resolve_left different
  · intro added
    exact ⟨Or.inr added, fun goes => notStacked (mem_removed goes).1⟩

theorem switched_mapped {tag : Option JString} {fragment other : Ref} {stackMode : ℤ}
    {canRemove : Bool} {key : Option JString}
    (stored : (manager.switched tag fragment stackMode canRemove).mFragmentHashMap key =
      some other) : manager.mFragmentHashMap key = some other := by
  simp only [switched] at stored
  split at stored
  · cases stored
  · exact stored

theorem gone_back_iff (settled : Settled manager) {top next : Ref} {rest : List Ref}
    (stack : manager.mFragmeBackStack = top :: next :: rest) :
    Gone (manager.back factory).1 top ↔ (manager.objects top).canRemove = true := by
  have popped := ready_popped settled.toReady stack
  have left := (reveals_departed settled stack).ready
  have extended : Extends _ (given (departed manager top rest) next _) :=
    setArguments_extends left.toKept next (manager.objects next).arguments
  have nodup := settled.nodup
  have topAdded := @Ready.stacked _ settled.toReady top
  rw [stack] at nodup topAdded
  rcases List.nodup_cons.1 nodup with ⟨apart, _⟩
  have different : top ≠ next := by
    rintro rfl
    exact apart List.mem_cons_self
  have notStacked : top ∉ (given (departed manager top rest) next
      (manager.objects next).arguments).mFragmeBackStack := by
    rw [extended.stack, departed, release_stack]
    exact fun among => apart (List.mem_cons_of_mem next among)
  rw [back_eq factory settled stack]
  unfold Gone
  rw [mem_switched_added_other (left.extend extended).toKept different notStacked, extended.added]
  constructor
  · rintro ⟨removed, _⟩
    by_contra keeps
    apply removed
    rw [departed, release, if_neg keeps]
    exact topAdded List.mem_cons_self
  · intro removable
    rcases gone_release popped removable with ⟨removed, forgotten⟩
    refine ⟨removed, ?_⟩
    intro key stored
    have before := switched_mapped stored
    exact forgotten key before

/-! ## Every run -/

/-- On the stack, the flags of the fragments are those in force. -/
def Flagged (world : AppFragmentManager × Flags) : Prop :=
  Settled world.1 ∧ ∀ {fragment}, fragment ∈ world.1.mFragmeBackStack →
    (world.1.objects fragment).canRemove = world.2.inForce fragment

theorem Flagged.extend (flagged : Flagged (manager, flags)) {found : AppFragmentManager}
    (extended : Extends manager found)
    (same : ∀ {other}, other ∈ manager.mAdded →
      (found.objects other).canRemove = (manager.objects other).canRemove) :
    Flagged (found, flags) := by
  rcases flagged with ⟨settled, flagged⟩
  refine ⟨settled.extend extended, ?_⟩
  intro other stacked
  simp only [extended.stack] at stacked
  rw [same (settled.stacked stacked)]
  exact flagged stacked

theorem flagged_showFragment (flagged : Flagged (manager, flags)) {id : Option JString}
    {fragment : Ref} (stored : manager.mFragmentHashMap id = some fragment) (stackMode : ℤ)
    (canRemove reload : Bool) (args : Option Ref) :
    Flagged ((manager.showFragment id fragment stackMode canRemove reload args).1,
      flags.call (manager, fragment) id canRemove) := by
  rcases flagged with ⟨settled, flagged⟩
  refine ⟨settled_showFragment settled stored stackMode canRemove reload args, ?_⟩
  intro other stacked
  simp only [showFragment_fst settled.toReady settled.currentAdded stored] at stacked ⊢
  simp only [Flags.call]
  split at stacked
  · next switching =>
      rw [if_pos switching, if_pos switching, switched_canRemove, Function.update_apply]
      split
      · rfl
      · next different => exact flagged ((mem_switched_stack stacked).resolve_left different).1
  · next stays =>
      rw [if_neg stays, if_neg stays]
      exact flagged stacked

theorem flagged_showFragment3 (flagged : Flagged (manager, flags)) (id : Option JString)
    (type : ℤ) (args : Option Ref) :
    Flagged ((showFragment3 factory manager id type args).1,
      flags.call (AppFragmentManager.get factory manager id type args) id false) := by
  have stored := get_stored factory manager id type args
  have found := flagged.extend (get_extends factory flagged.1.toKept id type args)
    (get_canRemove flagged.1.toKept id type args)
  exact flagged_showFragment found stored _ _ _ _

theorem flagged_showFragment6 (flagged : Flagged (manager, flags)) (id : Option JString)
    (type stackMode : ℤ) (canRemove reload : Bool) (args : Option Ref) :
    Flagged ((showFragment6 factory manager id type stackMode canRemove reload args).1,
      flags.call (AppFragmentManager.get factory manager id type args) id canRemove) := by
  have stored := get_stored factory manager id type args
  have found := flagged.extend (get_extends factory flagged.1.toKept id type args)
    (get_canRemove flagged.1.toKept id type args)
  unfold showFragment6
  generalize AppFragmentManager.get factory manager id type args = target at stored found
  have filled : Extends target.1 (given target.1 target.2 args) :=
    setArguments_extends found.1.toKept target.2 args
  have shown := flagged_showFragment (found.extend filled fun _ => given_canRemove _ _ _)
    (filled.map stored) stackMode canRemove reload args
  have same : flags.call (given target.1 target.2 args, target.2) id canRemove =
      flags.call target id canRemove := by
    simp only [Flags.call, switches_given]
  rw [same] at shown
  exact shown

theorem flagged_back (flagged : Flagged (manager, flags)) :
    Flagged ((manager.back factory).1, flags.reveal manager.mFragmeBackStack) := by
  rcases flagged with ⟨settled, flagged⟩
  unfold Flags.reveal
  split
  · next top next rest stack =>
      have went := settled_back factory settled stack
      refine ⟨went.1, ?_⟩
      intro other stacked
      simp only [went.2.1] at stacked
      rw [stack] at flagged
      rw [back_eq factory settled stack]
      simp only [switched_canRemove, given_canRemove, departed, release_object,
        Function.update_apply]
      split
      · rfl
      · exact flagged (List.mem_cons_of_mem _ stacked)
  · next alone =>
      rw [back_stays factory alone]
      exact ⟨settled, flagged⟩

theorem flagged_react (world : AppFragmentManager × Flags) (input : Input)
    (flagged : Flagged world) :
    Flagged (Machine.observed (react factory) (noteFlags factory) world input).1 := by
  cases input with
  | showFragment3 id type args => exact flagged_showFragment3 flagged id type args
  | showFragment4 id type stackMode args =>
      exact flagged_showFragment6 flagged id type stackMode false false args
  | showFragment5 id type stackMode canRemove args =>
      exact flagged_showFragment6 flagged id type stackMode canRemove false args
  | showFragment6 id type stackMode canRemove reload args =>
      exact flagged_showFragment6 flagged id type stackMode canRemove reload args
  | back => exact flagged_back flagged

theorem honoursRemoval_iff_of_flagged {world : AppFragmentManager × Flags} (input : Input)
    (flagged : Flagged world) : HonoursRemoval factory world input ↔ KeepsAsked world input := by
  rcases flagged with ⟨settled, flagged⟩
  unfold HonoursRemoval KeepsAsked
  apply imp_congr_right
  intro _
  apply forall_congr'
  intro top
  apply forall_congr'
  intro next
  apply forall_congr'
  intro rest
  apply imp_congr_right
  intro stack
  have top_mem : top ∈ world.1.mFragmeBackStack := by
    rw [stack]
    exact List.mem_cons_self
  rw [gone_back_iff settled stack, flagged top_mem]

end Removal

theorem honoursRemoval_iff (factory : ℤ → Bool) (inputs : List Input) :
    Machine.Every (Machine.observed (react factory) (noteFlags factory))
        (HonoursRemoval factory) (initial, Flags.initial) inputs ↔
      Machine.Every (Machine.observed (react factory) (noteFlags factory)) KeepsAsked
        (initial, Flags.initial) inputs := by
  apply Machine.every_iff_of_invariant Flagged
  · intro world input flagged
    exact honoursRemoval_iff_of_flagged input flagged
  · intro world input flagged _
    exact flagged_react world input flagged
  · refine ⟨settled_initial, ?_⟩
    intro fragment stacked
    simp [initial] at stacked

/-- A fragment which was covered and revealed again stays when `back` leaves it. -/
theorem not_honoursRemoval_revealed :
    ¬∀ (factory : ℤ → Bool) (inputs : List Input),
      Machine.Every (Machine.observed (react factory) (noteFlags factory))
        (HonoursRemoval factory) (initial, Flags.initial) inputs := by
  intro every
  have left := every (fun _ => true)
    [.showFragment5 (some (ascii ['a'])) 1 STACK_MODE_STANDARD false none,
      .showFragment5 (some (ascii ['b'])) 2 STACK_MODE_STANDARD true none,
      .showFragment5 (some (ascii ['c'])) 3 STACK_MODE_STANDARD false none,
      .back, .back]
    [.showFragment5 (some (ascii ['a'])) 1 STACK_MODE_STANDARD false none,
      .showFragment5 (some (ascii ['b'])) 2 STACK_MODE_STANDARD true none,
      .showFragment5 (some (ascii ['c'])) 3 STACK_MODE_STANDARD false none,
      .back] .back [] rfl rfl 1 0 [] (by decide) (by decide)
  exact left.1 (by decide)

end AndroidCollection.Ui
