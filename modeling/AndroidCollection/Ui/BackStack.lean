import AndroidCollection.Ui.Switching
import AndroidCollection.Lib.Machine
import AndroidCollection.Lib.Recency

/-!
# The discipline of the back stack

The back stack is the recency list of the fragments which are shown and left, and
`back` goes down in it. A request for the fragment which is current already only
reloads it: it is not shown again, and clears nothing.
-/

namespace AndroidCollection.Ui

open Java Recency

/-! ## The history of a run -/

open AppFragmentManager

/-- Records the fragment found for a request, if the request counts as showing it. -/
def recordShow (counts : AppFragmentManager → Option JString → Ref → Bool)
    (found : AppFragmentManager × Ref) (id : Option JString) (stackMode : ℤ)
    (history : List (Event Ref)) : List (Event Ref) :=
  if counts found.1 id found.2 then
    (if stackMode = STACK_MODE_CLEAR_TOP then .cleared found.2 else .shown found.2) :: history
  else history

/-- `back` leaves the most recently shown fragment if another one is standing below it. -/
def recordBack (history : List (Event Ref)) : List (Event Ref) :=
  match standing history with
  | top :: _ :: _ => .left top :: history
  | _ => history

def record (counts : AppFragmentManager → Option JString → Ref → Bool) (factory : ℤ → Bool)
    (history : List (Event Ref)) (manager : AppFragmentManager) (input : Input) (_ : Output) :
    List (Event Ref) :=
  match input with
  | .showFragment3 id type args =>
      recordShow counts (get factory manager id type args) id STACK_MODE_CLEAR_TOP history
  | .showFragment4 id type stackMode args =>
      recordShow counts (get factory manager id type args) id stackMode history
  | .showFragment5 id type stackMode _ args =>
      recordShow counts (get factory manager id type args) id stackMode history
  | .showFragment6 id type stackMode _ _ args =>
      recordShow counts (get factory manager id type args) id stackMode history
  | .back => recordBack history

/-- The back stack is the recency list of the history, and `back` goes down in it. -/
structure Disciplined (factory : ℤ → Bool) (manager : AppFragmentManager)
    (history : List (Event Ref)) : Prop where
  listed : manager.mFragmeBackStack = standing history
  distinct : manager.mFragmeBackStack.Nodup
  head : manager.mFragmeBackStack.head? = manager.mCurrentFragment
  stored : ∀ {fragment}, fragment ∈ manager.mFragmeBackStack →
    manager.mFragmentHashMap (manager.objects fragment).id = some fragment
  reveals : ∀ {top next rest}, manager.mFragmeBackStack = top :: next :: rest →
    (manager.back factory).1.mCurrentFragment = some next ∧ (manager.back factory).2 = true
  stops : manager.mFragmeBackStack.length ≤ 1 → manager.back factory = (manager, false)

section Runs

variable {factory : ℤ → Bool} {manager : AppFragmentManager} {history : List (Event Ref)}

theorem listed_show (settled : Settled manager)
    (listed : manager.mFragmeBackStack = standing history) {id : Option JString} {fragment : Ref}
    (stored : manager.mFragmentHashMap id = some fragment) (stackMode : ℤ)
    (canRemove reload : Bool) (args : Option Ref) :
    (manager.showFragment id fragment stackMode canRemove reload args).1.mFragmeBackStack =
      standing (recordShow switches (manager, fragment) id stackMode history) := by
  rw [showFragment_fst settled.toReady settled.currentAdded stored]
  unfold recordShow
  split
  · simp only [switched]
    split
    · rfl
    · rw [listed]
      rfl
  · exact listed

/-- The manager after `back` has taken two fragments off the stack. -/
theorem ready_popped (ready : Ready manager) {top next : Ref} {rest : List Ref}
    (stack : manager.mFragmeBackStack = top :: next :: rest) :
    Ready { manager with mFragmeBackStack := rest } := by
  have nodup := ready.nodup
  have stacked := @Ready.stacked _ ready
  have direct := @Ready.direct _ ready
  have bottom := ready.bottom
  rw [stack] at nodup stacked direct bottom
  constructor
  · exact ⟨ready.named, ready.mapped, ready.tagged, ready.distinct⟩
  · intro fragment among
    exact stacked (List.mem_cons_of_mem top (List.mem_cons_of_mem next among))
  · intro fragment among
    exact direct (List.mem_cons_of_mem top (List.mem_cons_of_mem next among))
  · exact (List.nodup_cons.1 (List.nodup_cons.1 nodup).2).2
  · exact (List.pairwise_cons.1 (List.pairwise_cons.1 bottom).2).2
  · exact ready.visible

theorem ready_release (ready : Ready manager) {top : Ref}
    (notStacked : top ∉ manager.mFragmeBackStack) (added : top ∈ manager.mAdded)
    (current : manager.mCurrentFragment = some top) : Ready (manager.release top) := by
  unfold release
  split
  · have elsewhere {fragment : Ref} (present : fragment ∈ manager.mAdded.erase top) :
        fragment ≠ top ∧ fragment ∈ manager.mAdded :=
      ready.distinct.mem_erase_iff.1 present
    constructor
    · constructor
      · intro key fragment stored
        simp only [commit, List.foldl_cons, List.foldl_nil, executeOp, forget] at stored
        split at stored
        · cases stored
        · exact ready.named stored
      · intro fragment present
        rcases elsewhere present with ⟨different, known⟩
        simp only [commit, List.foldl_cons, List.foldl_nil, executeOp, forget]
        rw [if_neg]
        · exact ready.mapped known
        · intro same
          have under := ready.mapped known
          rw [same] at under
          exact different (ready.toKept.eq_of_id_eq added under).symm
      · intro fragment present
        exact ready.tagged (elsewhere present).2
      · exact ready.distinct.erase top
    · intro fragment stacked
      have different : fragment ≠ top := by
        rintro rfl
        exact notStacked stacked
      exact (List.mem_erase_of_ne different).2 (ready.stacked stacked)
    · exact ready.direct
    · exact ready.nodup
    · exact ready.bottom
    · intro fragment present visible
      rcases elsewhere present with ⟨different, known⟩
      have same := ready.visible known visible
      rw [current] at same
      exact absurd (Option.some.inj same).symm different
  · exact ready

theorem release_stored {top next : Ref} (different : next ≠ top)
    (topStored : manager.mFragmentHashMap (manager.objects top).id = some top)
    (nextStored : manager.mFragmentHashMap (manager.objects next).id = some next) :
    (manager.release top).mFragmentHashMap ((manager.release top).objects next).id =
      some next := by
  unfold release
  split
  · simp only [commit, List.foldl_cons, List.foldl_nil, executeOp, forget]
    rw [if_neg, nextStored]
    intro same
    rw [same, topStored] at nextStored
    exact different (Option.some.inj nextStored).symm
  · exact nextStored

theorem release_object (top other : Ref) :
    (manager.release top).objects other = manager.objects other := by
  unfold release
  split <;> rfl

theorem release_stack (top : Ref) :
    (manager.release top).mFragmeBackStack = manager.mFragmeBackStack := by
  unfold release
  split <;> rfl

theorem release_current {top current : Ref} (before : manager.mCurrentFragment = some top)
    (after : (manager.release top).mCurrentFragment = some current) :
    current = top ∧ (manager.release top) = manager := by
  unfold release at after ⊢
  split
  · next removable =>
      rw [if_pos removable] at after
      cases after
  · next keeps =>
      rw [if_neg keeps, before] at after
      exact ⟨(Option.some.inj after).symm, rfl⟩

theorem release_added {top other : Ref} (different : other ≠ top)
    (added : other ∈ manager.mAdded) : other ∈ (manager.release top).mAdded := by
  unfold release
  split
  · exact (List.mem_erase_of_ne different).2 added
  · exact added

/-- The manager after a fragment without arguments has been given some. -/
def given (manager : AppFragmentManager) (fragment : Ref) (args : Option Ref) :
    AppFragmentManager :=
  manager.modify fragment fun object =>
    if object.arguments = none then { object with arguments := args } else object

theorem switches_given (manager : AppFragmentManager) (fragment : Ref) (args : Option Ref)
    (id : Option JString) :
    (given manager fragment args).switches id fragment = manager.switches id fragment := by
  have direct : ((given manager fragment args).objects fragment).direct =
      (manager.objects fragment).direct := by
    simp only [given, AppFragmentManager.modify, if_true]
    split <;> rfl
  simp only [switches, direct]
  rfl

variable (factory) in
/-- A fragment which is stored and not current is switched to. -/
theorem showFragment6_fst (ready : Ready manager)
    (added : ∀ {current}, manager.mCurrentFragment = some current → current ∈ manager.mAdded)
    {id : Option JString} {fragment : Ref}
    (stored : manager.mFragmentHashMap id = some fragment)
    (isDirect : (manager.objects fragment).direct = true)
    (present : fragment ∈ manager.mAdded)
    (notCurrent : manager.mCurrentFragment ≠ some fragment) (type stackMode : ℤ)
    (canRemove reload : Bool) (args : Option Ref) :
    (showFragment6 factory manager id type stackMode canRemove reload args).1 =
      (given manager fragment args).switched id fragment stackMode canRemove := by
  have found : AppFragmentManager.get factory manager id type args = (manager, fragment) := by
    simp only [AppFragmentManager.get, stored]
  have extended : Extends manager (given manager fragment args) :=
    setArguments_extends ready.toKept fragment args
  have givenDirect := (extended.object present).2.2.2.2.trans isDirect
  have switching : (given manager fragment args).switches id fragment = true := by
    simp [switches, givenDirect, extended.current, notCurrent]
  have nextAdded {current : Ref}
      (shown : (given manager fragment args).mCurrentFragment = some current) :
      current ∈ (given manager fragment args).mAdded := by
    rw [extended.current] at shown
    rw [extended.added]
    exact added shown
  unfold showFragment6
  simp only [found]
  change ((given manager fragment args).showFragment id fragment stackMode canRemove reload
    args).1 = _
  rw [showFragment_fst (ready.extend extended) nextAdded (extended.map stored), if_pos switching]

/-- The state which `back` makes, once it has released the fragment on top, to show the one
below: this one is stored and can be switched to. -/
structure Reveals (left : AppFragmentManager) (next : Ref) : Prop where
  ready : Ready left
  shown : ∀ {current}, left.mCurrentFragment = some current → current ∈ left.mAdded
  stored : left.mFragmentHashMap (left.objects next).id = some next
  direct : (left.objects next).direct = true
  present : next ∈ left.mAdded
  notCurrent : left.mCurrentFragment ≠ some next

/-- The manager once `back` has released the fragment on top of the stack. -/
def departed (manager : AppFragmentManager) (top : Ref) (rest : List Ref) : AppFragmentManager :=
  { manager with mFragmeBackStack := rest }.release top

theorem reveals_departed (settled : Settled manager) {top next : Ref} {rest : List Ref}
    (stack : manager.mFragmeBackStack = top :: next :: rest) :
    Reveals (departed manager top rest) next := by
  have nodup := settled.nodup
  have stacked := @Ready.stacked _ settled.toReady
  have direct := @Ready.direct _ settled.toReady
  have head := settled.head
  rw [stack] at nodup stacked direct head
  have apart := (List.nodup_cons.1 nodup).1
  have topAdded := stacked List.mem_cons_self
  have second : next ∈ top :: next :: rest := List.mem_cons_of_mem top List.mem_cons_self
  have different : next ≠ top := by
    rintro rfl
    exact apart List.mem_cons_self
  have popped : ({ manager with mFragmeBackStack := rest } : AppFragmentManager).mCurrentFragment =
      some top := head.symm
  constructor
  · exact ready_release (ready_popped settled.toReady stack)
      (fun among => apart (List.mem_cons_of_mem next among)) topAdded head.symm
  · intro current is
    rcases release_current popped is with ⟨rfl, unchanged⟩
    rw [departed, unchanged]
    exact topAdded
  · exact release_stored different (settled.mapped topAdded) (settled.mapped (stacked second))
  · rw [departed, release_object]
    exact direct second
  · exact release_added different (stacked second)
  · intro is
    exact different (release_current popped is).1

variable (factory) in
/-- What `back` does when there is a fragment to go back to. -/
theorem back_eq (settled : Settled manager) {top next : Ref} {rest : List Ref}
    (stack : manager.mFragmeBackStack = top :: next :: rest) :
    manager.back factory =
      ((given (departed manager top rest) next (manager.objects next).arguments).switched
        (manager.objects next).id next (manager.objects next).stackMode false, true) := by
  have reveals := reveals_departed settled stack
  have same (other : Ref) : (departed manager top rest).objects other = manager.objects other :=
    release_object top other
  have shows := showFragment6_fst factory reveals.ready reveals.shown reveals.stored
    reveals.direct reveals.present reveals.notCurrent (manager.objects next).type
    (manager.objects next).stackMode false false (manager.objects next).arguments
  rw [same] at shows
  unfold back
  rw [stack]
  simp only [release_object]
  exact Prod.ext shows rfl

variable (factory) in
theorem back_stays (alone : ∀ top next rest, manager.mFragmeBackStack ≠ top :: next :: rest) :
    manager.back factory = (manager, false) := by
  unfold back
  split
  · next top next rest stack => exact absurd stack (alone top next rest)
  · rfl

variable (factory) in
theorem settled_back (settled : Settled manager) {top next : Ref} {rest : List Ref}
    (stack : manager.mFragmeBackStack = top :: next :: rest) :
    Settled (manager.back factory).1 ∧
      (manager.back factory).1.mFragmeBackStack = next :: rest ∧
      (manager.back factory).2 = true := by
  have reveals := reveals_departed settled stack
  have same : (departed manager top rest).objects next = manager.objects next :=
    release_object top next
  have stored := reveals.stored
  have extended : Extends _ (given (departed manager top rest) next _) :=
    setArguments_extends reveals.ready.toKept next (manager.objects next).arguments
  have isDirect := (extended.object reveals.present).2.2.2.2.trans reveals.direct
  have nodup := settled.nodup
  have bottom := settled.bottom
  rw [stack] at nodup bottom
  have nextApart := (List.nodup_cons.1 (List.nodup_cons.1 nodup).2).1
  have left : (departed manager top rest).mFragmeBackStack = rest := release_stack top
  rw [same] at stored
  rw [back_eq factory settled stack]
  refine ⟨settled_switched (reveals.ready.extend extended) (extended.map stored) isDirect, ?_,
    rfl⟩
  simp only [switched, extended.stack, left, List.erase_of_not_mem nextApart]
  split
  · next clears =>
      -- a fragment whose mode clears has nothing below it
      cases rest with
      | nil => rfl
      | cons other rest =>
          have modes := (List.pairwise_cons.1 (List.pairwise_cons.1 bottom).2).1
          exact absurd clears (modes other List.mem_cons_self)
  · rfl

/-! ## Every run -/

/-- The link between the manager and the history which every step keeps. -/
def Listed (world : AppFragmentManager × List (Event Ref)) : Prop :=
  Settled world.1 ∧ world.1.mFragmeBackStack = standing world.2

theorem listed_showFragment (settled : Settled manager)
    (listed : manager.mFragmeBackStack = standing history) {id : Option JString} {fragment : Ref}
    (stored : manager.mFragmentHashMap id = some fragment) (stackMode : ℤ)
    (canRemove reload : Bool) (args : Option Ref) :
    Listed ((manager.showFragment id fragment stackMode canRemove reload args).1,
      recordShow switches (manager, fragment) id stackMode history) :=
  ⟨settled_showFragment settled stored stackMode canRemove reload args,
    listed_show settled listed stored stackMode canRemove reload args⟩

theorem listed_showFragment3 (settled : Settled manager)
    (listed : manager.mFragmeBackStack = standing history) (id : Option JString) (type : ℤ)
    (args : Option Ref) :
    Listed ((showFragment3 factory manager id type args).1,
      recordShow switches (AppFragmentManager.get factory manager id type args) id
        STACK_MODE_CLEAR_TOP history) := by
  have stored := get_stored factory manager id type args
  have extended := get_extends factory settled.toKept id type args
  exact listed_showFragment (settled.extend extended) (extended.stack.trans listed) stored _ _ _ _

theorem listed_showFragment6 (settled : Settled manager)
    (listed : manager.mFragmeBackStack = standing history) (id : Option JString)
    (type stackMode : ℤ) (canRemove reload : Bool) (args : Option Ref) :
    Listed ((showFragment6 factory manager id type stackMode canRemove reload args).1,
      recordShow switches (AppFragmentManager.get factory manager id type args) id stackMode
        history) := by
  have stored := get_stored factory manager id type args
  have extended := get_extends factory settled.toKept id type args
  unfold showFragment6
  generalize AppFragmentManager.get factory manager id type args = found at stored extended
  have settledFound := settled.extend extended
  have filled : Extends found.1 (given found.1 found.2 args) :=
    setArguments_extends settledFound.toKept found.2 args
  have shown := listed_showFragment (settledFound.extend filled)
    (filled.stack.trans (extended.stack.trans listed)) (filled.map stored) stackMode canRemove
    reload args
  have same : recordShow switches (given found.1 found.2 args, found.2) id stackMode history =
      recordShow switches found id stackMode history := by
    simp only [recordShow, switches_given]
  rw [same] at shown
  exact shown

theorem listed_back (settled : Settled manager)
    (listed : manager.mFragmeBackStack = standing history) :
    Listed ((manager.back factory).1, recordBack history) := by
  unfold recordBack
  rw [← listed]
  split
  · next top next rest stack =>
      have went := settled_back factory settled stack
      refine ⟨went.1, went.2.1.trans ?_⟩
      rw [standing, ← listed, stack, List.erase_cons_head]
  · next alone =>
      rw [back_stays factory alone]
      exact ⟨settled, listed⟩

theorem listed_react (world : AppFragmentManager × List (Event Ref)) (input : Input)
    (listed : Listed world) :
    Listed (Machine.observed (react factory) (record switches factory) world input).1 := by
  rcases listed with ⟨settled, listed⟩
  cases input with
  | showFragment3 id type args => exact listed_showFragment3 settled listed id type args
  | showFragment4 id type stackMode args =>
      exact listed_showFragment6 settled listed id type stackMode false false args
  | showFragment5 id type stackMode canRemove args =>
      exact listed_showFragment6 settled listed id type stackMode canRemove false args
  | showFragment6 id type stackMode canRemove reload args =>
      exact listed_showFragment6 settled listed id type stackMode canRemove reload args
  | back => exact listed_back settled listed

theorem disciplined_of_listed {world : AppFragmentManager × List (Event Ref)}
    (listed : Listed world) : Disciplined factory world.1 world.2 := by
  rcases listed with ⟨settled, same⟩
  refine ⟨same, ?_, settled.head,
    fun stacked => settled.mapped (settled.stacked stacked), ?_, ?_⟩
  · rw [same]
    exact nodup_standing world.2
  · intro top next rest stack
    have went := settled_back factory settled stack
    refine ⟨?_, went.2.2⟩
    rw [← went.1.head, went.2.1]
    rfl
  · intro short
    unfold back
    split
    · next top next rest stack =>
        rw [stack] at short
        simp at short
    · rfl

end Runs

theorem backStack_disciplined (factory : ℤ → Bool) (inputs : List Input) :
    Disciplined factory
      (Machine.after (Machine.observed (react factory) (record switches factory)) (initial, [])
        inputs).1
      (Machine.after (Machine.observed (react factory) (record switches factory)) (initial, [])
        inputs).2 :=
  disciplined_of_listed
    (Machine.after_invariant Listed (fun world input => listed_react world input)
      ⟨settled_initial, rfl⟩ inputs)

/-- When every request counts as showing its fragment, the discipline fails. -/
theorem backStack_not_disciplined :
    ¬∀ (factory : ℤ → Bool) (inputs : List Input),
      Disciplined factory
        (Machine.after (Machine.observed (react factory) (record (fun _ _ _ => true) factory))
          (initial, []) inputs).1
        (Machine.after (Machine.observed (react factory) (record (fun _ _ _ => true) factory))
          (initial, []) inputs).2 := by
  intro disciplined
  have listed := (disciplined (fun _ => true)
    [.showFragment4 (some (ascii ['a'])) 1 STACK_MODE_STANDARD none,
      .showFragment4 (some (ascii ['b'])) 2 STACK_MODE_STANDARD none,
      .showFragment4 (some (ascii ['b'])) 2 STACK_MODE_CLEAR_TOP none]).listed
  revert listed
  decide

end AndroidCollection.Ui
