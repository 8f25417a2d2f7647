import AndroidCollection.Java.Text

/-!
# The fragment stack of `AppFragmentManager`

Fragments are shown and hidden in one container, and the manager keeps a back
stack of its own, most recent first. A fragment is an object with an identity;
`objects` holds the fields of the fragments made so far. The fragment manager of
the platform has the added fragments, and a transaction takes effect as soon as
it is committed; the tag of a fragment is set when its addition is put into a
transaction. A factory makes a new fragment for a type; all that matters of the
class it chooses is whether that class passes the test of `showFragment`.
-/

namespace AndroidCollection.Ui

open Java

def STACK_MODE_CLEAR_TOP : ℤ := 1

def STACK_MODE_STANDARD : ℤ := 2

structure BaseFragment where
  stackMode : ℤ := STACK_MODE_CLEAR_TOP
  canRemove : Bool := false
  id : Option JString := none
  type : ℤ := 0
  arguments : Option Ref := none
  mTag : Option JString := none
  mHidden : Bool := false
  /-- The superclass of its class is `BaseFragment` or one that `BaseFragment` extends. -/
  direct : Bool := true

@[ext]
structure AppFragmentManager where
  mFragmeBackStack : List Ref
  mCurrentFragment : Option Ref
  mFragmentHashMap : Option JString → Option Ref
  /-- The fragments which are added to the platform's fragment manager. -/
  mAdded : List Ref
  objects : Ref → BaseFragment
  /-- How many fragments the factory has made. -/
  created : ℕ

namespace AppFragmentManager

def initial : AppFragmentManager where
  mFragmeBackStack := []
  mCurrentFragment := none
  mFragmentHashMap := fun _ => none
  mAdded := []
  objects := fun _ => {}
  created := 0

def modify (manager : AppFragmentManager) (fragment : Ref)
    (change : BaseFragment → BaseFragment) : AppFragmentManager :=
  { manager with
    objects := fun other =>
      if other = fragment then change (manager.objects other) else manager.objects other }

/-! ## The fragment manager of the platform -/

inductive Op where
  | add (fragment : Ref)
  | remove (fragment : Ref)
  | hide (fragment : Ref)
  | show (fragment : Ref)
deriving DecidableEq, Repr

def executeOp (manager : AppFragmentManager) : Op → AppFragmentManager
  | .add fragment => { manager with mAdded := manager.mAdded ++ [fragment] }
  | .remove fragment => { manager with mAdded := manager.mAdded.erase fragment }
  | .hide fragment => manager.modify fragment fun object => { object with mHidden := true }
  | .show fragment => manager.modify fragment fun object => { object with mHidden := false }

def commit (manager : AppFragmentManager) (transaction : List Op) : AppFragmentManager :=
  transaction.foldl executeOp manager

def findFragmentByTag (manager : AppFragmentManager) (tag : Option JString) : Option Ref :=
  if tag = none then none
  else manager.mAdded.reverse.find? fun fragment => (manager.objects fragment).mTag = tag

/-! ## The private methods -/

def put (manager : AppFragmentManager) (id : Option JString) (fragment : Ref) :
    AppFragmentManager :=
  { manager with
    mFragmentHashMap := fun key =>
      if key = id then some fragment else manager.mFragmentHashMap key }

def forget (manager : AppFragmentManager) (id : Option JString) : AppFragmentManager :=
  { manager with
    mFragmentHashMap := fun key => if key = id then none else manager.mFragmentHashMap key }

/-- The fragment stored under an id, made by the factory if there is none. -/
def get (factory : ℤ → Bool) (manager : AppFragmentManager) (id : Option JString) (type : ℤ)
    (args : Option Ref) : AppFragmentManager × Ref :=
  match manager.mFragmentHashMap id with
  | some fragment => (manager, fragment)
  | none =>
      let fragment := manager.created
      let made := { manager with created := fragment + 1 }.modify fragment fun _ =>
        { direct := factory type, arguments := args, id := id, type := type }
      (made.put id fragment, fragment)

/-- The current fragment has the tag. -/
def showsTag (manager : AppFragmentManager) (tag : Option JString) : Bool :=
  match manager.mCurrentFragment with
  | none => false
  | some current =>
      (manager.objects current).mTag != none && (manager.objects current).mTag == tag &&
        manager.mAdded.contains current

/-- Puts the fragment into the transaction. A fragment which is not added gives way to one which
is added under its tag. -/
def locate (manager : AppFragmentManager) (tag : Option JString) (fragment : Ref) :
    AppFragmentManager × Ref × List Op :=
  if manager.mAdded.contains fragment then
    (manager, fragment, [.show fragment])
  else
    match manager.findFragmentByTag tag with
    | none =>
        (manager.modify fragment fun object => { object with mTag := tag }, fragment,
          [.add fragment, .show fragment])
    | some found =>
        let source := manager.objects fragment
        ((manager.modify found fun object => { object with id := source.id, type := source.type
          }).put tag found, found, [.show found])

/-- One fragment of the loop which clears the stack. -/
def clearOne (target : Ref) : AppFragmentManager × List Op → Ref → AppFragmentManager × List Op
  | (manager, transaction), fragment =>
      if fragment ≠ target ∧ (manager.objects fragment).canRemove then
        (manager.forget (manager.objects fragment).id, transaction ++ [.remove fragment])
      else
        (manager, transaction)

/-- Clears the stack in the mode which asks for it. -/
def clear (manager : AppFragmentManager) (target : Ref) (stackMode : ℤ) (transaction : List Op) :
    AppFragmentManager × List Op :=
  if stackMode = STACK_MODE_CLEAR_TOP then
    let cleared := manager.mFragmeBackStack.foldl (clearOne target) (manager, transaction)
    ({ cleared.1 with mFragmeBackStack := [] }, cleared.2)
  else
    (manager, transaction)

/-- Moves the fragment to the top of the stack. -/
def raise (stack : List Ref) (target : Ref) : List Ref :=
  if stack.contains target then
    if stack.idxOf target = 0 then stack
    else target :: stack.eraseIdx (stack.idxOf target)
  else
    target :: stack

/-- The part of the private `showFragment` after its tests. -/
def switchTo (manager : AppFragmentManager) (tag : Option JString) (fragment : Ref)
    (stackMode : ℤ) (canRemove : Bool) : AppFragmentManager :=
  let hidden := manager.mCurrentFragment.toList.map Op.hide
  match manager.locate tag fragment with
  | (located, target, shown) =>
      let prepared := located.modify target fun object =>
        { object with stackMode := stackMode, canRemove := canRemove }
      match prepared.clear target stackMode (hidden ++ shown) with
      | (cleared, transaction) =>
          { cleared with
            mFragmeBackStack := raise cleared.mFragmeBackStack target
            mCurrentFragment := some target }.commit transaction

/-- The private `showFragment`, with the fragment which it reloads and the arguments for it. -/
def showFragment (manager : AppFragmentManager) (tag : Option JString) (fragment : Ref)
    (stackMode : ℤ) (canRemove reload : Bool) (args : Option Ref) :
    AppFragmentManager × Option (Ref × Option Ref) :=
  if !(manager.objects fragment).direct then
    (manager, none)
  else if manager.showsTag tag then
    (manager, if reload then manager.mCurrentFragment.map fun current => (current, args) else none)
  else
    (manager.switchTo tag fragment stackMode canRemove, none)

/-! ## The public methods -/

/-- `showFragment(id, type, args)`. -/
def showFragment3 (factory : ℤ → Bool) (manager : AppFragmentManager) (id : Option JString)
    (type : ℤ) (args : Option Ref) : AppFragmentManager × Option (Ref × Option Ref) :=
  match get factory manager id type args with
  | (found, fragment) =>
      found.showFragment id fragment STACK_MODE_CLEAR_TOP false false args

/-- `showFragment(id, type, stackMode, canRemove, reload, args)`. -/
def showFragment6 (factory : ℤ → Bool) (manager : AppFragmentManager) (id : Option JString)
    (type stackMode : ℤ) (canRemove reload : Bool) (args : Option Ref) :
    AppFragmentManager × Option (Ref × Option Ref) :=
  match get factory manager id type args with
  | (found, fragment) =>
      let given := found.modify fragment fun object =>
        if object.arguments = none then { object with arguments := args } else object
      given.showFragment id fragment stackMode canRemove reload args

/-- `showFragment(id, type, stackMode, canRemove, args)`. -/
def showFragment5 (factory : ℤ → Bool) (manager : AppFragmentManager) (id : Option JString)
    (type stackMode : ℤ) (canRemove : Bool) (args : Option Ref) :
    AppFragmentManager × Option (Ref × Option Ref) :=
  showFragment6 factory manager id type stackMode canRemove false args

/-- `showFragment(id, type, stackMode, args)`. -/
def showFragment4 (factory : ℤ → Bool) (manager : AppFragmentManager) (id : Option JString)
    (type stackMode : ℤ) (args : Option Ref) : AppFragmentManager × Option (Ref × Option Ref) :=
  showFragment6 factory manager id type stackMode false false args

/-- Removes the fragment which `back` leaves, if it can be removed. -/
def release (manager : AppFragmentManager) (top : Ref) : AppFragmentManager :=
  if (manager.objects top).canRemove then
    { manager.forget (manager.objects top).id with mCurrentFragment := none }.commit [.remove top]
  else
    manager

def back (factory : ℤ → Bool) (manager : AppFragmentManager) : AppFragmentManager × Bool :=
  match manager.mFragmeBackStack with
  | top :: next :: rest =>
      let left := { manager with mFragmeBackStack := rest }.release top
      let object := left.objects next
      let revealed := showFragment4 factory left object.id object.type object.stackMode
        object.arguments
      (revealed.1, true)
  | _ => (manager, false)

end AppFragmentManager

/-! ## Runs -/

inductive Input where
  | showFragment3 (id : Option JString) (type : ℤ) (args : Option Ref)
  | showFragment4 (id : Option JString) (type stackMode : ℤ) (args : Option Ref)
  | showFragment5 (id : Option JString) (type stackMode : ℤ) (canRemove : Bool)
      (args : Option Ref)
  | showFragment6 (id : Option JString) (type stackMode : ℤ) (canRemove reload : Bool)
      (args : Option Ref)
  | back

inductive Output where
  | reloaded (call : Option (Ref × Option Ref))
  | returned (result : Bool)
deriving DecidableEq, Repr

def reporting (shown : AppFragmentManager × Option (Ref × Option Ref)) :
    AppFragmentManager × Output :=
  (shown.1, .reloaded shown.2)

open AppFragmentManager in
def react (factory : ℤ → Bool) (manager : AppFragmentManager) :
    Input → AppFragmentManager × Output
  | .showFragment3 id type args => reporting (showFragment3 factory manager id type args)
  | .showFragment4 id type stackMode args =>
      reporting (showFragment4 factory manager id type stackMode args)
  | .showFragment5 id type stackMode canRemove args =>
      reporting (showFragment5 factory manager id type stackMode canRemove args)
  | .showFragment6 id type stackMode canRemove reload args =>
      reporting (showFragment6 factory manager id type stackMode canRemove reload args)
  | .back => ((AppFragmentManager.back factory manager).1,
      .returned (AppFragmentManager.back factory manager).2)

end AndroidCollection.Ui
