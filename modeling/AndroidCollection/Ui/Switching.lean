import AndroidCollection.Ui.AppFragmentManager
import Mathlib.Data.List.Nodup

/-!
# Switching between fragments

Switching to a fragment which is stored in the map is one update of the manager,
`switchTo_eq`, whatever was shown before. Between two calls the map, the fragment
manager and the back stack agree, and only the current fragment is visible; a
call which finds the manager in this state leaves it so.
-/

namespace AndroidCollection.Ui

open Java

namespace AppFragmentManager

/-! ## The fragment map -/

/-- The fragment map and the fragment manager agree. -/
structure Kept (manager : AppFragmentManager) : Prop where
  named : ∀ {key fragment}, manager.mFragmentHashMap key = some fragment →
    (manager.objects fragment).id = key ∧ fragment < manager.created
  mapped : ∀ {fragment}, fragment ∈ manager.mAdded →
    manager.mFragmentHashMap (manager.objects fragment).id = some fragment
  tagged : ∀ {fragment}, fragment ∈ manager.mAdded →
    (manager.objects fragment).mTag = (manager.objects fragment).id
  distinct : manager.mAdded.Nodup

/-- No other fragment is added under the tag of a fragment in the map. -/
theorem findFragmentByTag_eq_none {manager : AppFragmentManager} (kept : Kept manager)
    {tag : Option JString} {fragment : Ref} (stored : manager.mFragmentHashMap tag = some fragment)
    (notAdded : fragment ∉ manager.mAdded) : manager.findFragmentByTag tag = none := by
  unfold findFragmentByTag
  split
  · rfl
  · rw [List.find?_eq_none]
    intro other added
    rw [List.mem_reverse] at added
    simp only [decide_eq_true_eq]
    intro same
    have under := kept.mapped added
    rw [← kept.tagged added, same, stored] at under
    exact notAdded (Option.some.inj under ▸ added)

theorem modify_of_eq (manager : AppFragmentManager) (fragment : Ref)
    {change : BaseFragment → BaseFragment}
    (same : change (manager.objects fragment) = manager.objects fragment) :
    manager.modify fragment change = manager := by
  unfold modify
  congr 1
  funext other
  split
  · next here => rw [here, same]
  · rfl

theorem locate_eq {manager : AppFragmentManager} (kept : Kept manager)
    {tag : Option JString} {fragment : Ref}
    (stored : manager.mFragmentHashMap tag = some fragment) :
    manager.locate tag fragment =
      (manager.modify fragment fun object => { object with mTag := tag }, fragment,
        if fragment ∈ manager.mAdded then [.show fragment]
        else [.add fragment, .show fragment]) := by
  unfold locate
  by_cases added : fragment ∈ manager.mAdded
  · have tagged := (kept.tagged added).trans (kept.named stored).1
    rw [modify_of_eq manager fragment (by rw [← tagged])]
    simp [added]
  · simp [added, findFragmentByTag_eq_none kept stored added]

/-! ## Transactions -/

theorem commit_append (manager : AppFragmentManager) (first second : List Op) :
    manager.commit (first ++ second) = (manager.commit first).commit second :=
  List.foldl_append

theorem commit_removes (manager : AppFragmentManager) (fragments : List Ref) :
    manager.commit (fragments.map .remove) =
      { manager with mAdded := manager.mAdded.diff fragments } := by
  induction fragments generalizing manager with
  | nil => rfl
  | cons fragment fragments ih =>
      rw [List.map_cons, List.diff_cons]
      exact ih (executeOp manager (.remove fragment))

theorem commit_hide (manager : AppFragmentManager) (current : Option Ref) :
    manager.commit (current.toList.map .hide) =
      { manager with
        objects := fun other =>
          if current = some other then { manager.objects other with mHidden := true }
          else manager.objects other } := by
  cases current with
  | none => simp [commit]
  | some current => simp [commit, executeOp, modify, eq_comm]

theorem commit_show (manager : AppFragmentManager) (fragment : Ref) (added : Prop)
    [Decidable added] :
    manager.commit (if added then [.show fragment] else [.add fragment, .show fragment]) =
      { manager.modify fragment fun object => { object with mHidden := false } with
        mAdded := if added then manager.mAdded else manager.mAdded ++ [fragment] } := by
  by_cases already : added
  · simp [commit, executeOp, already, modify]
  · simp [commit, executeOp, already, modify]

/-- The fragments of a stack which are removed when it is cleared for a target. -/
def departing (manager : AppFragmentManager) (target : Ref) (stack : List Ref) : List Ref :=
  stack.filter fun fragment => fragment ≠ target ∧ (manager.objects fragment).canRemove

/-- The manager without the map entries under some ids. -/
def forgetAll (manager : AppFragmentManager) (ids : List (Option JString)) :
    AppFragmentManager :=
  { manager with
    mFragmentHashMap := fun key =>
      if ids.contains key then none else manager.mFragmentHashMap key }

theorem forgetAll_forget (manager : AppFragmentManager) (id : Option JString)
    (ids : List (Option JString)) :
    (manager.forget id).forgetAll ids = manager.forgetAll (id :: ids) := by
  simp only [forgetAll, forget]
  congr 1
  funext key
  by_cases later : key ∈ ids
  · simp [later]
  · by_cases same : key = id
    · simp [same]
    · simp [later, same]

theorem foldl_clearOne (target : Ref) (stack : List Ref) (manager : AppFragmentManager)
    (transaction : List Op) :
    stack.foldl (clearOne target) (manager, transaction) =
      (manager.forgetAll ((manager.departing target stack).map fun fragment =>
          (manager.objects fragment).id),
        transaction ++ (manager.departing target stack).map .remove) := by
  induction stack generalizing manager transaction with
  | nil => simp [departing, forgetAll]
  | cons fragment stack ih =>
      rw [List.foldl_cons, clearOne]
      by_cases goes : fragment ≠ target ∧ (manager.objects fragment).canRemove
      · have head : manager.departing target (fragment :: stack) =
            fragment :: manager.departing target stack :=
          List.filter_cons_of_pos (decide_eq_true goes)
        rw [if_pos goes, ih, head, List.map_cons, List.map_cons, ← forgetAll_forget]
        exact Prod.ext rfl (List.append_assoc transaction _ _)
      · have head : manager.departing target (fragment :: stack) =
            manager.departing target stack :=
          List.filter_cons_of_neg (by simpa using goes)
        rw [if_neg goes, ih, head]

/-- The fragments which are removed when the manager switches to a target. -/
def removed (manager : AppFragmentManager) (target : Ref) (stackMode : ℤ) : List Ref :=
  if stackMode = STACK_MODE_CLEAR_TOP then manager.departing target manager.mFragmeBackStack
  else []

theorem clear_eq (manager : AppFragmentManager) (target : Ref) (stackMode : ℤ)
    (transaction : List Op) :
    manager.clear target stackMode transaction =
      ({ manager.forgetAll ((manager.removed target stackMode).map fun fragment =>
          (manager.objects fragment).id) with
        mFragmeBackStack :=
          if stackMode = STACK_MODE_CLEAR_TOP then [] else manager.mFragmeBackStack },
        transaction ++ (manager.removed target stackMode).map .remove) := by
  unfold clear removed
  split
  · rw [foldl_clearOne]
  · simp [forgetAll]

theorem removed_modify (manager : AppFragmentManager) (target : Ref) (stackMode : ℤ)
    (change : BaseFragment → BaseFragment) :
    (manager.modify target change).removed target stackMode =
      manager.removed target stackMode := by
  unfold removed departing
  split
  · apply List.filter_congr
    intro other _
    by_cases same : other = target
    · simp [same]
    · simp [modify, same]
  · rfl

theorem raise_eq (stack : List Ref) (target : Ref) :
    raise stack target = target :: stack.erase target := by
  unfold raise
  by_cases stacked : target ∈ stack
  · rw [if_pos (by simpa using stacked), List.eraseIdx_idxOf_eq_erase]
    split
    · next first =>
        cases stack with
        | nil => simp at stacked
        | cons head rest =>
            have same : head = target := by
              by_contra different
              simp [different] at first
            simp [same]
    · rfl
  · rw [if_neg (by simpa using stacked), List.erase_of_not_mem stacked]

/-- The manager after it has switched to a stored fragment. -/
def switched (manager : AppFragmentManager) (tag : Option JString) (fragment : Ref)
    (stackMode : ℤ) (canRemove : Bool) : AppFragmentManager where
  mFragmeBackStack :=
    if stackMode = STACK_MODE_CLEAR_TOP then [fragment]
    else fragment :: manager.mFragmeBackStack.erase fragment
  mCurrentFragment := some fragment
  mFragmentHashMap := fun key =>
    if ((manager.removed fragment stackMode).map fun other =>
      (manager.objects other).id).contains key
    then none else manager.mFragmentHashMap key
  mAdded := (if fragment ∈ manager.mAdded then manager.mAdded
    else manager.mAdded ++ [fragment]).diff (manager.removed fragment stackMode)
  objects := fun other =>
    if other = fragment then
      { manager.objects fragment with
        mTag := tag, stackMode := stackMode, canRemove := canRemove, mHidden := false }
    else if manager.mCurrentFragment = some other then
      { manager.objects other with mHidden := true }
    else manager.objects other
  created := manager.created

theorem switchTo_eq {manager : AppFragmentManager} (kept : Kept manager)
    {tag : Option JString} {fragment : Ref}
    (stored : manager.mFragmentHashMap tag = some fragment) (stackMode : ℤ) (canRemove : Bool) :
    manager.switchTo tag fragment stackMode canRemove =
      manager.switched tag fragment stackMode canRemove := by
  unfold switchTo
  rw [locate_eq kept stored]
  simp only [clear_eq, removed_modify, commit_append, commit_removes, commit_hide, commit_show,
    raise_eq]
  apply AppFragmentManager.ext
  · simp only [modify, switched]
    split <;> rfl
  · rfl
  · funext key
    simp only [modify, forgetAll, switched]
    congr 3
    apply List.map_congr_left
    intro other _
    by_cases same : other = fragment
    · simp [same]
    · simp [same]
  · rfl
  · funext other
    by_cases same : other = fragment
    · simp only [modify, forgetAll, switched, same, if_true]
      split <;> rfl
    · simp [modify, forgetAll, switched, same]
  · rfl

/-! ## The invariant -/

/-- The state of the manager between two switches. -/
structure Ready (manager : AppFragmentManager) : Prop extends Kept manager where
  stacked : ∀ {fragment}, fragment ∈ manager.mFragmeBackStack → fragment ∈ manager.mAdded
  direct : ∀ {fragment}, fragment ∈ manager.mFragmeBackStack →
    (manager.objects fragment).direct = true
  nodup : manager.mFragmeBackStack.Nodup
  /-- Only the bottom of the stack can have been shown in the mode which clears. -/
  bottom : manager.mFragmeBackStack.Pairwise fun upper _ =>
    (manager.objects upper).stackMode ≠ STACK_MODE_CLEAR_TOP
  visible : ∀ {fragment}, fragment ∈ manager.mAdded →
    (manager.objects fragment).mHidden = false → manager.mCurrentFragment = some fragment

/-- The state of the manager between two calls. -/
structure Settled (manager : AppFragmentManager) : Prop extends Ready manager where
  head : manager.mFragmeBackStack.head? = manager.mCurrentFragment
  shown : ∀ {fragment}, manager.mCurrentFragment = some fragment →
    (manager.objects fragment).mHidden = false

theorem settled_initial : Settled initial := by
  constructor
  · constructor
    · constructor <;> simp [initial]
    all_goals simp [initial]
  all_goals simp [initial]

/-- Two added fragments do not share an id. -/
theorem Kept.eq_of_id_eq {manager : AppFragmentManager} (kept : Kept manager)
    {first second : Ref} (firstAdded : first ∈ manager.mAdded)
    (stored : manager.mFragmentHashMap (manager.objects first).id = some second) :
    first = second :=
  Option.some.inj ((kept.mapped firstAdded).symm.trans stored)

theorem mem_removed {manager : AppFragmentManager} {target : Ref} {stackMode : ℤ} {fragment : Ref}
    (gone : fragment ∈ manager.removed target stackMode) :
    fragment ∈ manager.mFragmeBackStack ∧ fragment ≠ target ∧
      stackMode = STACK_MODE_CLEAR_TOP := by
  unfold removed at gone
  split at gone
  · next clears =>
      simp only [departing, List.mem_filter, decide_eq_true_eq] at gone
      exact ⟨gone.1, gone.2.1, clears⟩
  · simp at gone

section Switched

variable {manager : AppFragmentManager} {tag : Option JString} {fragment : Ref} {stackMode : ℤ}
  {canRemove : Bool}

theorem switched_id (other : Ref) :
    ((manager.switched tag fragment stackMode canRemove).objects other).id =
      (manager.objects other).id := by
  simp only [switched]
  split
  · next same => rw [same]
  · split <;> rfl

theorem switched_direct (other : Ref) :
    ((manager.switched tag fragment stackMode canRemove).objects other).direct =
      (manager.objects other).direct := by
  simp only [switched]
  split
  · next same => rw [same]
  · split <;> rfl

theorem switched_other {other : Ref} (different : other ≠ fragment) :
    ((manager.switched tag fragment stackMode canRemove).objects other).mTag =
        (manager.objects other).mTag ∧
      ((manager.switched tag fragment stackMode canRemove).objects other).stackMode =
        (manager.objects other).stackMode := by
  simp only [switched, if_neg different]
  split <;> exact ⟨rfl, rfl⟩

theorem mem_switched_added (kept : Kept manager) {other : Ref} :
    other ∈ (manager.switched tag fragment stackMode canRemove).mAdded ↔
      (other = fragment ∨ other ∈ manager.mAdded) ∧
        other ∉ manager.removed fragment stackMode := by
  by_cases added : fragment ∈ manager.mAdded
  · simp only [switched, if_pos added, kept.distinct.mem_sdiff_iff]
    apply and_congr_left
    intro _
    constructor
    · exact Or.inr
    · rintro (rfl | already)
      · exact added
      · exact already
  · have distinct : (manager.mAdded ++ [fragment]).Nodup := by
      rw [List.nodup_append_comm]
      exact List.nodup_cons.2 ⟨added, kept.distinct⟩
    simp only [switched, if_neg added, distinct.mem_sdiff_iff, List.mem_append,
      List.mem_singleton, or_comm]

/-- A fragment which is added, or stored under the tag, stays in the map unless it is removed. -/
theorem kept_switched (ready : Ready manager)
    (stored : manager.mFragmentHashMap tag = some fragment) :
    Kept (manager.switched tag fragment stackMode canRemove) := by
  have name := (ready.named stored).1
  constructor
  · intro key other under
    rw [switched_id]
    simp only [switched] at under
    split at under
    · cases under
    · exact ready.named under
  · intro other added
    rcases (mem_switched_added ready.toKept).1 added with ⟨known, stays⟩
    have under : manager.mFragmentHashMap (manager.objects other).id = some other := by
      rcases known with rfl | already
      · rw [name, stored]
      · exact ready.mapped already
    rw [switched_id]
    simp only [switched]
    rw [if_neg, under]
    intro among
    rcases List.mem_map.1 (List.contains_iff_mem.1 among) with ⟨gone, goes, same⟩
    rw [← same] at under
    have equal := ready.toKept.eq_of_id_eq (ready.stacked (mem_removed goes).1) under
    exact stays (equal ▸ goes)
  · intro other added
    rcases (mem_switched_added ready.toKept).1 added with ⟨known, _⟩
    rw [switched_id]
    by_cases same : other = fragment
    · simp [switched, same, name]
    · rw [(switched_other same).1]
      exact ready.tagged (known.resolve_left same)
  · apply List.Nodup.diff
    split
    · exact ready.distinct
    · next added =>
        rw [List.nodup_append_comm]
        exact List.nodup_cons.2 ⟨added, ready.distinct⟩

theorem mem_switched_stack {other : Ref} (stacked : other ∈
      (manager.switched tag fragment stackMode canRemove).mFragmeBackStack) :
    other = fragment ∨ other ∈ manager.mFragmeBackStack ∧ stackMode ≠ STACK_MODE_CLEAR_TOP := by
  simp only [switched] at stacked
  split at stacked
  · exact Or.inl (List.mem_singleton.1 stacked)
  · next keeps => exact (List.mem_cons.1 stacked).imp id fun later =>
      ⟨List.mem_of_mem_erase later, keeps⟩

/-- After a switch, too, no fragment above the bottom has been shown in the mode which clears. -/
theorem bottom_switched (ready : Ready manager) :
    (manager.switched tag fragment stackMode canRemove).mFragmeBackStack.Pairwise fun upper _ =>
      ((manager.switched tag fragment stackMode canRemove).objects upper).stackMode ≠
        STACK_MODE_CLEAR_TOP := by
  simp only [switched]
  split
  · exact List.pairwise_singleton _ _
  · next keeps =>
      apply List.pairwise_cons.2
      constructor
      · intro _ _
        simpa using keeps
      · have below := ready.bottom.sublist (List.erase_sublist (a := fragment))
        apply below.imp_of_mem
        intro upper _ later _ mode
        have different : upper ≠ fragment := by
          rintro rfl
          exact ready.nodup.not_mem_erase later
        have same : ((manager.switched tag fragment stackMode canRemove).objects
            upper).stackMode = (manager.objects upper).stackMode :=
          (switched_other different).2
        exact fun clears => mode (same.symm.trans clears)

theorem settled_switched (ready : Ready manager)
    (stored : manager.mFragmentHashMap tag = some fragment)
    (isDirect : (manager.objects fragment).direct = true) :
    Settled (manager.switched tag fragment stackMode canRemove) := by
  constructor
  · constructor
    · exact kept_switched ready stored
    · intro other stacked
      rw [mem_switched_added ready.toKept]
      rcases mem_switched_stack stacked with rfl | ⟨already, keeps⟩
      · exact ⟨Or.inl rfl, fun goes => (mem_removed goes).2.1 rfl⟩
      · exact ⟨Or.inr (ready.stacked already), fun goes => keeps (mem_removed goes).2.2⟩
    · intro other stacked
      rw [switched_direct]
      rcases mem_switched_stack stacked with rfl | ⟨already, _⟩
      · exact isDirect
      · exact ready.direct already
    · simp only [switched]
      split
      · exact List.nodup_singleton fragment
      · exact List.nodup_cons.2 ⟨ready.nodup.not_mem_erase, ready.nodup.erase fragment⟩
    · exact bottom_switched ready
    · intro other added visible
      rcases (mem_switched_added ready.toKept).1 added with ⟨rfl | already, _⟩
      · rfl
      · by_contra different
        have other_ne : other ≠ fragment := fun same => different (congrArg some same.symm)
        simp only [switched, if_neg other_ne] at visible
        split at visible
        · cases visible
        · next notCurrent => exact notCurrent (ready.visible already visible)
  · simp only [switched]
    split <;> rfl
  · intro other current
    cases current
    simp [switched]

end Switched

/-! ## Requests -/

/-- A change which neither moves a fragment nor touches what the stack knows of the added ones. -/
structure Extends (manager next : AppFragmentManager) : Prop where
  stack : next.mFragmeBackStack = manager.mFragmeBackStack
  current : next.mCurrentFragment = manager.mCurrentFragment
  added : next.mAdded = manager.mAdded
  map : ∀ {key fragment}, manager.mFragmentHashMap key = some fragment →
    next.mFragmentHashMap key = some fragment
  named : ∀ {key fragment}, next.mFragmentHashMap key = some fragment →
    (next.objects fragment).id = key ∧ fragment < next.created
  object : ∀ {fragment}, fragment ∈ manager.mAdded →
    (next.objects fragment).id = (manager.objects fragment).id ∧
      (next.objects fragment).mTag = (manager.objects fragment).mTag ∧
      (next.objects fragment).stackMode = (manager.objects fragment).stackMode ∧
      (next.objects fragment).mHidden = (manager.objects fragment).mHidden ∧
      (next.objects fragment).direct = (manager.objects fragment).direct

theorem Ready.extend {manager next : AppFragmentManager} (ready : Ready manager)
    (extended : Extends manager next) : Ready next := by
  rcases extended with ⟨stack, current, added, map, named, object⟩
  constructor
  · constructor
    · exact named
    · intro fragment present
      rw [added] at present
      rw [(object present).1]
      exact map (ready.mapped present)
    · intro fragment present
      rw [added] at present
      rw [(object present).1, (object present).2.1]
      exact ready.tagged present
    · rw [added]
      exact ready.distinct
  · rw [stack, added]
    exact ready.stacked
  · intro fragment stacked
    rw [stack] at stacked
    rw [(object (ready.stacked stacked)).2.2.2.2]
    exact ready.direct stacked
  · rw [stack]
    exact ready.nodup
  · rw [stack]
    apply ready.bottom.imp_of_mem
    intro upper _ stacked _ mode
    rw [(object (ready.stacked stacked)).2.2.1]
    exact mode
  · intro fragment present visible
    rw [added] at present
    rw [(object present).2.2.2.1] at visible
    rw [current]
    exact ready.visible present visible

theorem Settled.extend {manager next : AppFragmentManager} (settled : Settled manager)
    (extended : Extends manager next) : Settled next := by
  constructor
  · exact settled.toReady.extend extended
  · rw [extended.stack, extended.current]
    exact settled.head
  · intro fragment current
    rw [extended.current] at current
    have added := settled.stacked (List.mem_of_mem_head? (settled.head.trans current))
    rw [(extended.object added).2.2.2.1]
    exact settled.shown current

theorem get_stored (factory : ℤ → Bool) (manager : AppFragmentManager) (id : Option JString)
    (type : ℤ) (args : Option Ref) :
    (get factory manager id type args).1.mFragmentHashMap id =
      some (get factory manager id type args).2 := by
  unfold get
  split
  · next stored => exact stored
  · simp [put]

theorem get_extends (factory : ℤ → Bool) {manager : AppFragmentManager} (kept : Kept manager)
    (id : Option JString) (type : ℤ) (args : Option Ref) :
    Extends manager (get factory manager id type args).1 := by
  unfold get
  split
  · exact ⟨rfl, rfl, rfl, fun stored => stored, kept.named, fun _ => ⟨rfl, rfl, rfl, rfl, rfl⟩⟩
  · next missing =>
      refine ⟨rfl, rfl, rfl, ?_, ?_, ?_⟩
      · intro key fragment stored
        have different : key ≠ id := by
          rintro rfl
          rw [missing] at stored
          cases stored
        simp [put, modify, different, stored]
      · intro key fragment stored
        by_cases same : key = id
        · simp only [put, modify, if_pos same, Option.some.injEq] at stored
          subst stored
          simp [put, modify, same]
        · simp only [put, modify, if_neg same] at stored
          have older := (kept.named stored).2
          simp only [put, modify, if_neg older.ne]
          exact ⟨(kept.named stored).1, older.trans (Nat.lt_succ_self _)⟩
      · intro fragment added
        have older := (kept.named (kept.mapped added)).2
        simp [put, modify, older.ne]

theorem setArguments_extends {manager : AppFragmentManager} (kept : Kept manager) (fragment : Ref)
    (args : Option Ref) :
    Extends manager (manager.modify fragment fun object =>
      if object.arguments = none then { object with arguments := args } else object) := by
  have object (other : Ref) : ((manager.modify fragment fun object =>
        if object.arguments = none then { object with arguments := args } else object).objects
          other).id = (manager.objects other).id := by
    simp only [modify]
    split
    · split <;> rfl
    · rfl
  refine ⟨rfl, rfl, rfl, fun stored => stored, ?_, ?_⟩
  · intro key other stored
    rw [object]
    exact kept.named stored
  · intro other _
    refine ⟨object other, ?_⟩
    simp only [modify]
    split
    · split <;> exact ⟨rfl, rfl, rfl, rfl⟩
    · exact ⟨rfl, rfl, rfl, rfl⟩

/-- The fragment is of a class which can be shown, and is not the current one under a tag. -/
def switches (manager : AppFragmentManager) (id : Option JString) (fragment : Ref) : Bool :=
  (manager.objects fragment).direct &&
    !(id != none && manager.mCurrentFragment == some fragment)

theorem showsTag_eq {manager : AppFragmentManager} (ready : Ready manager)
    (added : ∀ {current}, manager.mCurrentFragment = some current → current ∈ manager.mAdded)
    {id : Option JString} {fragment : Ref}
    (stored : manager.mFragmentHashMap id = some fragment) :
    manager.showsTag id = (id != none && manager.mCurrentFragment == some fragment) := by
  unfold showsTag
  cases present : manager.mCurrentFragment with
  | none => simp
  | some current =>
      have known := added present
      have same : (manager.objects current).mTag = id ↔ current = fragment := by
        rw [ready.tagged known]
        constructor
        · intro name
          apply ready.toKept.eq_of_id_eq known
          rw [name, stored]
        · intro equal
          rw [equal]
          exact (ready.named stored).1
      rw [Bool.eq_iff_iff]
      simp only [Bool.and_eq_true, bne_iff_ne, beq_iff_eq, List.contains_iff_mem, same,
        Option.some.injEq]
      constructor
      · rintro ⟨⟨tagged, equal⟩, _⟩
        exact ⟨same.2 equal ▸ tagged, equal⟩
      · rintro ⟨tagged, equal⟩
        exact ⟨⟨(same.2 equal).symm ▸ tagged, equal⟩, known⟩

theorem showFragment_fst {manager : AppFragmentManager} (ready : Ready manager)
    (added : ∀ {current}, manager.mCurrentFragment = some current → current ∈ manager.mAdded)
    {id : Option JString} {fragment : Ref}
    (stored : manager.mFragmentHashMap id = some fragment) (stackMode : ℤ)
    (canRemove reload : Bool) (args : Option Ref) :
    (manager.showFragment id fragment stackMode canRemove reload args).1 =
      if manager.switches id fragment then manager.switched id fragment stackMode canRemove
      else manager := by
  unfold showFragment switches
  rw [showsTag_eq ready added stored, switchTo_eq ready.toKept stored]
  cases (manager.objects fragment).direct with
  | false => rfl
  | true =>
      cases id != none && manager.mCurrentFragment == some fragment with
      | false => rfl
      | true => rfl

theorem Settled.currentAdded {manager : AppFragmentManager} (settled : Settled manager)
    {current : Ref} (present : manager.mCurrentFragment = some current) :
    current ∈ manager.mAdded :=
  settled.stacked (List.mem_of_mem_head? (settled.head.trans present))

theorem settled_showFragment {manager : AppFragmentManager} (settled : Settled manager)
    {id : Option JString} {fragment : Ref}
    (stored : manager.mFragmentHashMap id = some fragment) (stackMode : ℤ)
    (canRemove reload : Bool) (args : Option Ref) :
    Settled (manager.showFragment id fragment stackMode canRemove reload args).1 := by
  rw [showFragment_fst settled.toReady settled.currentAdded stored]
  split
  · next switching =>
      unfold switches at switching
      rw [Bool.and_eq_true] at switching
      exact settled_switched settled.toReady stored switching.1
  · exact settled

end AppFragmentManager

end AndroidCollection.Ui
