import AndroidCollection.Install.PackageInstallAsync
import AndroidCollection.Java.Utf8
import Mathlib.Data.List.DropRight

/-!
# Installation by the package manager's shell command

`ShellInstallSync.install` runs `pm install` and reads first what the command writes
to standard error, then what it writes to standard output. It reports a success if
nothing came back from reading standard error and something from standard output.
But `getStringFromStream` gives back nothing only when reading fails: for a stream
without any bytes it gives back the empty string. So an installation whose command
writes nothing to standard error is reported as failed. And if the command cannot
be started, nothing is reported.

The process is given by what it writes and how it is read: the process ends whichever
stream is read first.
-/

namespace AndroidCollection.Install.ShellInstallSync

open Java

/-- The SDK from which on the installer has to be named. -/
def N : ℕ :=
  24

/-- What a process writes to one of its streams, and how it is read. -/
structure Stream where
  /-- What the calls of `read` put into the buffer of 16 bytes. -/
  chunks : List (List UInt8)
  /-- The call after these raises, instead of finding the end. -/
  raises : Bool
  /-- What has been written and is not read. -/
  unread : List UInt8
  chunk_size : ∀ chunk ∈ chunks, 0 < chunk.length ∧ chunk.length ≤ 16
  unread_eq : raises = false → unread = []

/-- What the process has written. -/
def Stream.content (stream : Stream) : List UInt8 :=
  stream.chunks.flatten ++ stream.unread

structure Process where
  errorStream : Stream
  inputStream : Stream

inductive StartFailure where
  | ioException
  | runtimeException
deriving DecidableEq

/-- `callback.install(packageName, success, msg)`. -/
structure Report where
  callback : Ref
  packageName : Option JString
  success : Bool
  msg : Option JString
deriving DecidableEq

structure Output where
  reports : List Report := []
  thrown : Option StartFailure := none
deriving DecidableEq

/-- The null reference is written as its name. -/
def textOf (reference : Option JString) : JString :=
  reference.getD (ascii "null".toList)

/-- `text.split(" ")`: empty parts at the end are left out. -/
def splitBlank (text : JString) : List JString :=
  (text.splitOn 0x20).rdropWhile List.isEmpty

def command (sdkInt : ℕ) (packageName filePath : Option JString) : List (Option JString) :=
  if sdkInt < N then
    ["pm", "install", "-r", "-d", "--dont-kill"].map (fun word => some (ascii word.toList)) ++
      [filePath]
  else
    (splitBlank (ascii "pm install -r -d --dont-kill -i ".toList ++ textOf packageName ++
      ascii " --user 0 ".toList)).map some ++ [filePath]

/-- The text of a stream; the null reference if it cannot be read to its end. -/
def getStringFromStream (stream : Stream) : Option JString :=
  let byteArrayOutputStream := stream.chunks.foldl (fun bytes chunk => bytes ++ chunk) []
  if stream.raises then none else some (utf8Decode byteArrayOutputStream)

/-- What is reported of a process which has been started. -/
def result (process : Process) : Bool × Option JString :=
  let errorString := getStringFromStream process.errorStream
  let normalString := getStringFromStream process.inputStream
  if errorString = none ∧ normalString ≠ none then (true, normalString) else (false, errorString)

/-- An `IOException` is printed, and another exception leaves the method. -/
def install (sdkInt : ℕ) (start : List (Option JString) → Except StartFailure Process)
    (packageName filePath : Option JString) (callback : Option Ref) : Output :=
  match start (command sdkInt packageName filePath) with
  | .error .ioException => {}
  | .error .runtimeException => { thrown := some .runtimeException }
  | .ok process =>
      { reports := callback.toList.map fun callback =>
          ⟨callback, packageName, (result process).1, (result process).2⟩ }

/-! ## What is reported -/

/-- There is one report, of a success if the command wrote to standard output only. -/
def ReportsRightly (started : Except StartFailure Process) (callback : Ref)
    (packageName : Option JString) (output : Output) : Prop :=
  ∃ success msg, output.reports = [⟨callback, packageName, success, msg⟩] ∧
    (success = true ↔ ∃ process, started = .ok process ∧
      process.errorStream.content = [] ∧ process.inputStream.content ≠ [])

theorem getStringFromStream_eq_none_iff (stream : Stream) :
    getStringFromStream stream = none ↔ stream.raises = true := by
  rw [getStringFromStream]
  split <;> simp_all

/-- A success is taken from how the streams could be read, not from what was in them. -/
theorem result_success_iff (process : Process) :
    (result process).1 = true ↔
      process.errorStream.raises = true ∧ process.inputStream.raises = false := by
  rw [result]
  simp only [ne_eq, getStringFromStream_eq_none_iff, Bool.not_eq_true]
  split <;> simp_all

variable (sdkInt : ℕ) (start : List (Option JString) → Except StartFailure Process)
  (packageName filePath : Option JString) (callback : Ref)

theorem install_of_failed {failure : StartFailure}
    (failed : start (command sdkInt packageName filePath) = .error failure) :
    (install sdkInt start packageName filePath (some callback)).reports = [] := by
  cases failure <;> simp [install, failed]

theorem install_of_started {process : Process}
    (started : start (command sdkInt packageName filePath) = .ok process) :
    (install sdkInt start packageName filePath (some callback)).reports =
      [⟨callback, packageName, (result process).1, (result process).2⟩] := by
  simp [install, started]

/-- A stream which is read to its end at once. -/
def Stream.ofByte (byte : UInt8) : Stream where
  chunks := [[byte]]
  raises := false
  unread := []
  chunk_size := by simp
  unread_eq := fun _ => rfl

def Stream.empty : Stream where
  chunks := []
  raises := false
  unread := []
  chunk_size := by simp
  unread_eq := fun _ => rfl

/-- A command which succeeds: it writes a byte to standard output. -/
def succeeding : Process where
  errorStream := .empty
  inputStream := .ofByte 0x53

end AndroidCollection.Install.ShellInstallSync
