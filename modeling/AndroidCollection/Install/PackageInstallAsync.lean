import AndroidCollection.Java.Text

/-!
# Silent installation through the package installer

`PackageInstallAsync` hands an archive to the `PackageInstaller` of the platform
and is told the end of the session by a session callback. Its own callbacks wait
in a map under the package name of the archive, while the session callback looks
them up under the name which the platform reports for a session.

An installation has two parts here, since events may come in between: the checks
and the entry in the map, and what is done with a session. The platform says how
the second part ends, when sessions make progress and finish, and which
information it still has about them.
-/

namespace AndroidCollection.Install

open Java

/-- `PackageInstaller.getSessionInfo(id).getAppPackageName()`: there may be no information about
the session, and no name in it. -/
abbrev SessionInfo := Option (Option JString)

/-- How the part of `install` which deals with a session ends. -/
inductive Transfer where
  | committed (sessionId : ℕ)
  /-- A `RuntimeException` after the session was opened. -/
  | abandoned (sessionId : ℕ)
  /-- An exception which is printed only: any `IOException`, or a `RuntimeException` while there
  is no open session. -/
  | printed
deriving DecidableEq, Repr

inductive Input where
  /-- `install` up to the creation of the session. The package name of the archive is missing if
  the archive cannot be parsed. -/
  | install (packageName filePath : Option JString) (callback : Option Ref)
      (archive : Option JString)
  /-- The rest of the call of `install` which is identified by a number. -/
  | transfer (call : ℕ) (transfer : Transfer)
  | onCreated (sessionId : ℕ)
  | onBadgingChanged (sessionId : ℕ)
  | onActiveChanged (sessionId : ℕ)
  | onProgressChanged (sessionId : ℕ) (percent : ℤ) (info : SessionInfo)
  | onFinished (sessionId : ℕ) (success : Bool) (info : SessionInfo)

inductive Effect where
  | createSession (appPackageName : JString)
  | process (callback : Ref) (packageName : JString) (percent : ℤ)
  /-- `callback.install(packageName, success, null)`. -/
  | install (callback : Ref) (packageName : JString) (success : Bool)
deriving DecidableEq, Repr

inductive Throwable where
  | illegalArgumentException
  | nullPointerException
deriving DecidableEq, Repr

structure Output where
  effects : List Effect := []
  thrown : Option Throwable := none
deriving DecidableEq, Repr

/-- A call of `install` which has entered its callback and has not ended. -/
structure Call where
  number : ℕ
  filePath : JString
  callback : Option Ref
deriving DecidableEq, Repr

structure PackageInstallAsync where
  sInstallCallbacks : JString → Option (List (Option Ref))
  /-- The session callback is registered. -/
  registered : Bool
  calls : List Call
  /-- The number of the next call. -/
  next : ℕ
  /-- The sessions of this installer which have been committed or abandoned and have not finished,
  with the callbacks of their calls. -/
  sessions : List (ℕ × Option Ref)

namespace PackageInstallAsync

def initial : PackageInstallAsync where
  sInstallCallbacks := fun _ => none
  registered := false
  calls := []
  next := 0
  sessions := []

/-- `filePath.substring(filePath.lastIndexOf(File.separator) + 1)`. -/
def apkName (filePath : JString) : JString :=
  (filePath.reverse.takeWhile fun unit => unit ≠ 0x2F).reverse

/-- `TextUtils.isEmpty`. -/
def isEmpty (text : Option JString) : Bool :=
  text = none || text = some []

def addCallback (installer : PackageInstallAsync) (packageName : JString)
    (callback : Option Ref) : PackageInstallAsync :=
  let callbackList := (installer.sInstallCallbacks packageName).getD [callback]
  { installer with
    sInstallCallbacks := fun name =>
      if name = packageName then some callbackList else installer.sInstallCallbacks name }

def install (installer : PackageInstallAsync) (packageName filePath : Option JString)
    (callback : Option Ref) (archive : Option JString) : PackageInstallAsync × Output :=
  if isEmpty filePath || isEmpty packageName then
    (installer, { thrown := some .illegalArgumentException })
  else
    match archive, filePath with
    | some name, some path =>
        ({ installer.addCallback name callback with
            registered := true
            calls := installer.calls ++ [⟨installer.next, path, callback⟩]
            next := installer.next + 1 },
          { effects := [.createSession (apkName path)] })
    | _, _ => (installer, { thrown := some .nullPointerException })

def findCall (installer : PackageInstallAsync) (number : ℕ) : Option Call :=
  installer.calls.find? fun call => call.number = number

/-- The end of a call of `install`; it throws nothing. -/
def transfer (installer : PackageInstallAsync) (number : ℕ) (transfer : Transfer) :
    PackageInstallAsync :=
  match installer.findCall number with
  | none => installer
  | some call =>
      let ended := { installer with calls := installer.calls.erase call }
      match transfer with
      | .committed sessionId =>
          { ended with sessions := installer.sessions ++ [(sessionId, call.callback)] }
      | .abandoned sessionId =>
          { ended with sessions := installer.sessions ++ [(sessionId, call.callback)] }
      | .printed => ended

/-- Calls every callback of a list, up to the first null reference. -/
def callAll (call : Ref → Effect) : List (Option Ref) → Output
  | [] => {}
  | none :: _ => { thrown := some .nullPointerException }
  | some callback :: callbacks =>
      let later := callAll call callbacks
      { later with effects := call callback :: later.effects }

/-- What `onProgressChanged` and `onFinished` do: look up the callbacks and call them. -/
def callBack (installer : PackageInstallAsync) (info : SessionInfo)
    (call : JString → Ref → Effect) : Output :=
  match info with
  | none => { thrown := some .nullPointerException }
  | some none => { thrown := some .nullPointerException }
  | some (some appPackageName) =>
      match installer.sInstallCallbacks appPackageName with
      | none => { thrown := some .nullPointerException }
      | some callbackList => callAll (call appPackageName) callbackList

def onProgressChanged (installer : PackageInstallAsync) (percent : ℤ) (info : SessionInfo) :
    Output :=
  installer.callBack info fun appPackageName callback =>
    .process callback appPackageName percent

def onFinished (installer : PackageInstallAsync) (success : Bool) (info : SessionInfo) : Output :=
  installer.callBack info fun appPackageName callback =>
    .install callback appPackageName success

/-- The platform no longer counts on the end of the session. -/
def finish (installer : PackageInstallAsync) (sessionId : ℕ) : PackageInstallAsync :=
  { installer with
    sessions := installer.sessions.eraseP fun session => session.1 = sessionId }

end PackageInstallAsync

open PackageInstallAsync in
/-- Events reach the session callback only when it is registered. -/
def react (installer : PackageInstallAsync) : Input → PackageInstallAsync × Output
  | .install packageName filePath callback archive =>
      installer.install packageName filePath callback archive
  | .transfer number transfer => (installer.transfer number transfer, {})
  | .onCreated _ => (installer, {})
  | .onBadgingChanged _ => (installer, {})
  | .onActiveChanged _ => (installer, {})
  | .onProgressChanged _ percent info =>
      (installer, if installer.registered then installer.onProgressChanged percent info else {})
  | .onFinished sessionId success info =>
      (installer.finish sessionId,
        if installer.registered then installer.onFinished success info else {})

end AndroidCollection.Install
