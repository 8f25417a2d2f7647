import AndroidCollection.Install.PackageInstallAsync
import AndroidCollection.Lib.Raising

/-!
# Installation which waits for its result

`PackageInstallSync.install` checks its arguments and the archive, then writes the
archive into a session of the package installer, commits it and waits for the
result. Whatever is raised on the way is caught and reported, and at the end the
session is abandoned and the streams are closed.

What the calls of the platform answer is given. Exceptions are those which
`catch (Exception e)` catches, and closing a stream raises an `IOException` if
anything. The callback does not throw. The result is awaited until it comes.
-/

namespace AndroidCollection.Install.PackageInstallSync

open Java PackageInstallAsync

def STATUS_SUCCESS : Int32 :=
  0

def STATUS_FAILURE : Int32 :=
  1

inductive Exception where
  | illegalArgumentException
  /-- An exception of the platform, with its message. -/
  | raised (message : Option JString)
deriving DecidableEq

def Exception.getMessage : Exception → Option JString
  | .illegalArgumentException => some (ascii "file params is null".toList)
  | .raised message => message

/-- The extras of the intent which `LocalIntentReceiver` is sent. -/
structure Result where
  status : Option Int32
  statusMessage : Option JString

/-- What the calls of the platform answer in one installation. -/
structure Platform where
  /-- The package name of the archive, missing if it cannot be parsed. -/
  archive : Option JString
  isFile : Bool
  createSession : Except Exception ℕ
  openSession : Except Exception Unit
  openWrite : Except Exception Unit
  openFile : Except Exception Unit
  /-- What is read in each pass of the loop, and what comes of writing it. -/
  passes : List (List UInt8 × Except Exception Unit)
  /-- The read after which the loop ends. -/
  lastRead : Except Exception Unit
  fsync : Except Exception Unit
  closeInput : Except Exception Unit
  closeOutput : Except Exception Unit
  commit : Except Exception Unit
  getResult : Except Exception Result
  abandon : Except Exception Unit

/-- What an installation does: an opening counts when it has succeeded, a call which gives
something back when it is made. -/
inductive Effect where
  | createSession (appPackageName : JString) (sessionId : ℕ)
  | openSession (sessionId : ℕ)
  | openWrite (name : JString)
  | openFile (path : Option JString)
  | write (bytes : List UInt8)
  | closeInput
  | closeOutput
  | commit
  | received (status : Int32)
  | abandon
  /-- `callback.install(packageName, success, msg)`. -/
  | install (callback : Ref) (packageName : Option JString) (success : Bool) (msg : Option JString)
deriving DecidableEq

/-- The local variables which are not null, and what has been done. -/
structure State where
  session : Bool := false
  inputStream : Bool := false
  outputStream : Bool := false
  effects : List Effect := []

abbrev Run :=
  Raising Exception State

def perform (effect : Effect) : Run Unit :=
  modify fun state => { state with effects := state.effects ++ [effect] }

def report (callback : Option Ref) (packageName : Option JString) (success : Bool)
    (msg : Option JString) : Run Unit :=
  match callback with
  | none => pure ()
  | some callback => perform (.install callback packageName success msg)

/-- The loop which copies the archive into the session. -/
def copy (lastRead : Except Exception Unit) :
    List (List UInt8 × Except Exception Unit) → Run Unit
  | [] => liftExcept lastRead
  | (bytes, written) :: passes => do
      liftExcept written
      perform (.write bytes)
      copy lastRead passes

/-- The assignment of what a call has opened. -/
def remember (opening : Effect) (assign : State → State) : Run Unit :=
  modify fun state => assign { state with effects := state.effects ++ [opening] }

/-- A stream is closed, and its variable becomes null. -/
def closeStream (closing : Effect) (answer : Except Exception Unit) (clear : State → State) :
    Run Unit := do
  perform closing
  liftExcept answer
  modify clear

/-- The part of the `try` block in which streams are open. -/
def writeArchive (platform : Platform) (targetPackageName : JString) (apkPath : Option JString) :
    Run Unit := do
  liftExcept platform.openWrite
  remember (.openWrite targetPackageName) fun state => { state with outputStream := true }
  liftExcept platform.openFile
  remember (.openFile apkPath) fun state => { state with inputStream := true }
  copy platform.lastRead platform.passes
  liftExcept platform.fsync
  closeStream .closeInput platform.closeInput fun state => { state with inputStream := false }
  closeStream .closeOutput platform.closeOutput fun state => { state with outputStream := false }

/-- The `try` block up to the result. -/
def transfer (platform : Platform) (targetPackageName : JString) (apkPath : Option JString) :
    Run Result := do
  let sessionId ← liftExcept platform.createSession
  perform (.createSession targetPackageName sessionId)
  liftExcept platform.openSession
  remember (.openSession sessionId) fun state => { state with session := true }
  writeArchive platform targetPackageName apkPath
  liftExcept platform.commit
  perform .commit
  liftExcept platform.getResult

/-- What is done with the result. -/
def conclude (packageName : Option JString) (callback : Option Ref) (result : Result) :
    Run Unit := do
  let status := result.status.getD STATUS_FAILURE
  perform (.received status)
  if status = STATUS_SUCCESS then
    report callback packageName true none
  else
    report callback packageName false result.statusMessage

/-- A call which gives something back if there is anything, and whose exception is printed. -/
def giveBack (held : Bool) (call : Effect) (answer : Except Exception Unit) : Run Unit :=
  if held then
    try
      perform call
      liftExcept answer
    catch _ => pure ()
  else
    pure ()

/-- The `finally` block. -/
def release (platform : Platform) : Run Unit := do
  let state ← get
  giveBack state.session .abandon platform.abandon
  giveBack state.inputStream .closeInput platform.closeInput
  giveBack state.outputStream .closeOutput platform.closeOutput

def install (platform : Platform) (packageName apkPath : Option JString)
    (callback : Option Ref) : Run Unit :=
  if isEmpty apkPath || isEmpty packageName then
    throw .illegalArgumentException
  else
    match platform.archive with
    | none =>
        report callback packageName false
          (some (ascii "installQ: Failed to parse APK file : ".toList ++ apkPath.getD []))
    | some targetPackageName =>
        if !platform.isFile then
          report callback packageName false
            (some (ascii "installQ: File is not a file : ".toList ++ apkPath.getD []))
        else
          try
            let result ← transfer platform targetPackageName apkPath
            conclude packageName callback result
          catch e =>
            report callback packageName false e.getMessage
          finally
            release platform

end AndroidCollection.Install.PackageInstallSync
