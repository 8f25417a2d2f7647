import AndroidCollection.Java.Text

/-!
# Runtime permissions

`requestPermission` answers at once, or starts a fragment which asks the user and
waits for the result. The fragment is put into the content view by a transaction
which is executed later, and which replaces the fragment that is there; the
result reaches a fragment only as long as it is there.

Two things are left to the platform: the SDK level, and whether the fragment
manager admits a fragment of a class which is not public. The fragment of
`PermissionUtils` is of such a class, and a fragment manager which insists on
classes it can recreate throws an `IllegalStateException`.
-/

namespace AndroidCollection.Permission

open Java

structure Platform where
  SDK_INT : ℤ
  admitsPrivateClass : Bool

/-- `Build.VERSION_CODES.M`. -/
def M : ℤ := 23

def PERMISSION_REQUEST_CODE : ℤ := 10

/-- `PackageManager.PERMISSION_GRANTED`. -/
def PERMISSION_GRANTED : ℤ := 0

inductive Answer where
  | onPermissionGranted
  | onPermissionDenied
  | onPermissionDeniedNeverAskAgain
deriving DecidableEq, Repr

inductive Throwable where
  | illegalStateException
  | arrayIndexOutOfBoundsException
deriving DecidableEq, Repr

/-- The method which is called on a listener, if any, with the permission. -/
structure ListenerCall where
  permissionListener : Ref
  answer : Answer
  permission : JString
deriving DecidableEq, Repr

structure Output where
  call : Option ListenerCall := none
  thrown : Option Throwable := none
deriving DecidableEq, Repr

structure PermissionFragment where
  number : ℕ
  permissionListener : Option Ref
  /-- The argument under `PERMISSION_KEY`. -/
  mPermission : JString
deriving DecidableEq, Repr

inductive Transaction where
  | replace (fragment : PermissionFragment)
  | remove (number : ℕ)
deriving DecidableEq, Repr

structure PermissionUtils where
  /-- The shared preferences. -/
  preferences : JString → ℤ
  /-- The transactions which have been committed and not executed. -/
  queue : List Transaction
  /-- The fragment in the content view. -/
  content : Option PermissionFragment
  created : ℕ

namespace PermissionUtils

def initial (preferences : JString → ℤ) : PermissionUtils where
  preferences := preferences
  queue := []
  content := none
  created := 0

def isFirstRequestPermission (utils : PermissionUtils) (permission : JString) : Bool :=
  utils.preferences permission = 0

def setFirstRequestPermission (utils : PermissionUtils) (permission : JString) :
    PermissionUtils :=
  { utils with
    preferences := fun key => if key = permission then 1 else utils.preferences key }

def requestPermissionWrap (platform : Platform) (utils : PermissionUtils) (permission : JString)
    (permissionListener : Option Ref) : PermissionUtils × Output :=
  if platform.admitsPrivateClass then
    ({ utils with
        queue := utils.queue ++ [.replace ⟨utils.created, permissionListener, permission⟩]
        created := utils.created + 1 }, {})
  else
    (utils, { thrown := some .illegalStateException })

def answer (permissionListener : Option Ref) (answer : Answer) (permission : JString) : Output :=
  { call := permissionListener.map fun listener => ⟨listener, answer, permission⟩ }

/-- `granted` and `rationale` are what the platform says of the permission. -/
def requestPermission (platform : Platform) (utils : PermissionUtils) (permission : JString)
    (permissionListener : Option Ref) (granted rationale : Bool) : PermissionUtils × Output :=
  if M ≤ platform.SDK_INT then
    if !granted then
      if rationale then
        requestPermissionWrap platform utils permission permissionListener
      else if utils.isFirstRequestPermission permission then
        requestPermissionWrap platform (utils.setFirstRequestPermission permission) permission
          permissionListener
      else
        (utils, answer permissionListener .onPermissionDeniedNeverAskAgain permission)
    else
      (utils, answer permissionListener .onPermissionGranted permission)
  else
    (utils, {})

/-- The fragment manager executes the first transaction of its queue. -/
def execute (utils : PermissionUtils) : PermissionUtils :=
  match utils.queue with
  | [] => utils
  | .replace fragment :: queue => { utils with queue := queue, content := some fragment }
  | .remove number :: queue =>
      { utils with
        queue := queue
        content := utils.content.filter fun fragment => fragment.number ≠ number }

/-- The test and the call in `PermissionFragment.onRequestPermissionsResult`. -/
def answerResult (fragment : PermissionFragment) (requestCode : ℤ) (permissions : List JString)
    (grantResults : List ℤ) : Output :=
  if requestCode = PERMISSION_REQUEST_CODE ∧ fragment.permissionListener ≠ none then
    match permissions with
    | [] => { thrown := some .arrayIndexOutOfBoundsException }
    | permission :: _ =>
        if fragment.mPermission = permission then
          match grantResults with
          | [] => { thrown := some .arrayIndexOutOfBoundsException }
          | grantResult :: _ =>
              if grantResult = PERMISSION_GRANTED then
                answer fragment.permissionListener .onPermissionGranted fragment.mPermission
              else
                answer fragment.permissionListener .onPermissionDenied fragment.mPermission
        else {}
  else {}

/-- `PermissionFragment.onRequestPermissionsResult`. -/
def onRequestPermissionsResult (utils : PermissionUtils) (fragment : PermissionFragment)
    (requestCode : ℤ) (permissions : List JString) (grantResults : List ℤ) :
    PermissionUtils × Output :=
  let output := answerResult fragment requestCode permissions grantResults
  if output.thrown = none then
    ({ utils with
        content := some { fragment with permissionListener := none }
        queue := utils.queue ++ [.remove fragment.number] }, output)
  else
    (utils, output)

end PermissionUtils

inductive Input where
  | requestPermission (permission : JString) (permissionListener : Option Ref)
      (granted rationale : Bool)
  | execute
  /-- The result of a request, for the fragment in the content view. -/
  | onRequestPermissionsResult (requestCode : ℤ) (permissions : List JString)
      (grantResults : List ℤ)

def react (platform : Platform) (utils : PermissionUtils) : Input → PermissionUtils × Output
  | .requestPermission permission permissionListener granted rationale =>
      utils.requestPermission platform permission permissionListener granted rationale
  | .execute => (utils.execute, {})
  | .onRequestPermissionsResult requestCode permissions grantResults =>
      match utils.content with
      | none => (utils, {})
      | some fragment =>
          utils.onRequestPermissionsResult fragment requestCode permissions grantResults

end AndroidCollection.Permission
