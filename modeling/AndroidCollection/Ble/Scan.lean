import AndroidCollection.Java.Basic
import AndroidCollection.Lib.Machine

/-!
# Scans of a client

`BleClient.scan` starts a scan unless one is running, and posts a step to the handler
which calls `stopScan` when the duration is over. Stopping a scan, or its failure,
leaves the posted step where it is. When it runs it looks only at whether a scan is
running, so it also ends a scan which has been started since.

A posted step is known by the number of its scan. It runs when it is due, or later.
Starting and stopping a scan of the platform is taken to return.
-/

namespace AndroidCollection.Ble.Scan

/-- The step which `scan` posts. -/
structure Timer where
  number : ℕ
  due : ℤ
deriving DecidableEq

structure World where
  now : ℤ := 0
  isScanning : Bool := false
  /-- The posted steps which have not run. -/
  timers : List Timer := []
  /-- The number of scans which have been started. -/
  started : ℕ := 0

inductive Effect where
  | startScan
  | stopScan
deriving DecidableEq

inductive Input where
  | wait (milliseconds : ℕ)
  | scan (time : ℤ)
  | stopScan
  | onScanFailed (errorCode : ℤ)
  | run (number : ℕ)

namespace World

variable (world : World)

/-- A negative delay is none. -/
def scan (time : ℤ) : World × List Effect :=
  if !world.isScanning then
    ({ world with
        isScanning := true
        timers := world.timers ++ [⟨world.started, world.now + max time 0⟩]
        started := world.started + 1 }, [.startScan])
  else
    (world, [])

def stopScan : World × List Effect :=
  if world.isScanning then ({ world with isScanning := false }, [.stopScan]) else (world, [])

def onScanFailed : World :=
  { world with isScanning := false }

/-- The posted step of a scan, if it is due. -/
def dueTimer (number : ℕ) : Option Timer :=
  world.timers.find? fun timer => timer.number = number ∧ timer.due ≤ world.now

def run (number : ℕ) : World × List Effect :=
  match world.dueTimer number with
  | none => (world, [])
  | some timer => stopScan { world with timers := world.timers.erase timer }

variable {world}

theorem scan_of_scanning (scanning : world.isScanning = true) (time : ℤ) :
    world.scan time = (world, []) := by
  rw [scan, scanning]
  rfl

theorem scan_of_idle (idle : world.isScanning = false) (time : ℤ) :
    world.scan time =
      ({ world with
          isScanning := true
          timers := world.timers ++ [⟨world.started, world.now + max time 0⟩]
          started := world.started + 1 }, [.startScan]) := by
  rw [scan, idle]
  rfl

theorem stopScan_of_scanning (scanning : world.isScanning = true) :
    world.stopScan = ({ world with isScanning := false }, [.stopScan]) :=
  if_pos scanning

theorem stopScan_of_idle (idle : world.isScanning = false) : world.stopScan = (world, []) :=
  if_neg (by simp [idle])

theorem run_of_none {number : ℕ} (none : world.dueTimer number = none) :
    world.run number = (world, []) := by
  rw [run, none]

theorem run_of_some {number : ℕ} {timer : Timer} (found : world.dueTimer number = some timer) :
    world.run number = stopScan { world with timers := world.timers.erase timer } := by
  rw [run, found]

end World

def react (world : World) : Input → World × List Effect
  | .wait milliseconds => ({ world with now := world.now + milliseconds }, [])
  | .scan time => world.scan time
  | .stopScan => world.stopScan
  | .onScanFailed _ => (world.onScanFailed, [])
  | .run number => world.run number

/-! ## What ends a scan -/

/-- A scan which is running: its number, when it started and for how long. -/
structure Running where
  number : ℕ
  since : ℤ
  time : ℤ
deriving DecidableEq

/-- The scan which is running, by what has been asked for and done. -/
def follow (running : Option Running) (world : World) (input : Input) (effects : List Effect) :
    Option Running :=
  match input with
  | .scan time =>
      if .startScan ∈ effects then some ⟨world.started, world.now, time⟩ else running
  | .onScanFailed _ => none
  | _ => if .stopScan ∈ effects then none else running

abbrev followed :=
  Machine.observed react follow

/-- What may end a scan. -/
inductive Ends (world : World) (running : Running) : Input → Prop where
  | stopped : Ends world running .stopScan
  | failed (errorCode : ℤ) : Ends world running (.onScanFailed errorCode)
  | expired : running.since + max running.time 0 ≤ world.now →
      Ends world running (.run running.number)

/-- The step ends a scan only if it may. -/
def ScanSound (world : World × Option Running) (input : Input) : Prop :=
  ∀ running, world.2 = some running → (followed world input).1.2 ≠ some running →
    Ends world.1 running input

/-- A posted step which runs during a scan is that of the latest scan. -/
def ScanSafe (world : World × Option Running) : Input → Prop
  | .run number =>
      world.1.dueTimer number ≠ none → world.1.isScanning = true → number + 1 = world.1.started
  | _ => True

/-! ## The invariant -/

/-- The observer knows the scan which is running. It is the latest one, and its posted step, if it
has not run, is due at its end. -/
structure Linked (world : World × Option Running) : Prop where
  scanning : world.1.isScanning = true ↔ world.2 ≠ none
  latest : ∀ running, world.2 = some running → running.number + 1 = world.1.started
  earlier : ∀ timer ∈ world.1.timers, timer.number < world.1.started
  due : ∀ running, world.2 = some running → ∀ timer ∈ world.1.timers,
    timer.number = running.number → timer.due = running.since + max running.time 0

theorem linked_initial : Linked ({}, none) := by
  constructor
  · simp
  · intro running wrong
    cases wrong
  · intro timer wrong
    cases wrong
  · intro running wrong
    cases wrong

/-- No scan runs any more, and no step has been posted. -/
theorem Linked.of_ended {world later : World} {before : Option Running}
    (linked : Linked (world, before)) (ended : later.isScanning = false)
    (started : later.started = world.started) (timers : later.timers ⊆ world.timers) :
    Linked (later, none) := by
  constructor
  · simp [ended]
  · intro running wrong
    cases wrong
  · intro timer timerMem
    rw [started]
    exact linked.earlier timer (timers timerMem)
  · intro running wrong
    cases wrong

theorem linked_scan {world : World} {before : Option Running} (linked : Linked (world, before))
    (time : ℤ) : Linked (followed (world, before) (.scan time)).1 := by
  by_cases scanning : world.isScanning = true
  · simp only [Machine.observed, react, follow, World.scan_of_scanning scanning, List.not_mem_nil,
      if_false]
    exact linked
  · rw [Bool.not_eq_true] at scanning
    simp only [Machine.observed, react, follow, World.scan_of_idle scanning, List.mem_singleton,
      if_true]
    constructor
    · simp
    · intro running same
      rcases Option.some.inj same with rfl
      rfl
    · intro timer timerMem
      rcases List.mem_append.mp timerMem with old | new
      · exact Nat.lt_succ_of_lt (linked.earlier timer old)
      · rcases List.mem_singleton.mp new with rfl
        exact Nat.lt_succ_self _
    · intro running same timer timerMem number
      rcases Option.some.inj same with rfl
      rcases List.mem_append.mp timerMem with old | new
      · exact absurd number (Nat.ne_of_lt (linked.earlier timer old))
      · rcases List.mem_singleton.mp new with rfl
        rfl

theorem linked_stopScan {world : World} {before : Option Running}
    (linked : Linked (world, before)) :
    Linked (world.stopScan.1, if .stopScan ∈ world.stopScan.2 then none else before) := by
  by_cases scanning : world.isScanning = true
  · simp only [World.stopScan_of_scanning scanning, List.mem_singleton, if_true]
    exact linked.of_ended rfl rfl (List.Subset.refl _)
  · rw [Bool.not_eq_true] at scanning
    simp only [World.stopScan_of_idle scanning, List.not_mem_nil, if_false]
    exact linked

theorem dueTimer_mem {world : World} {number : ℕ} {timer : Timer}
    (found : world.dueTimer number = some timer) :
    timer ∈ world.timers ∧ timer.number = number ∧ timer.due ≤ world.now := by
  refine ⟨List.mem_of_find?_eq_some found, ?_⟩
  simpa using List.find?_some found

theorem linked_erase {world : World} {before : Option Running} (linked : Linked (world, before))
    (timer : Timer) : Linked ({ world with timers := world.timers.erase timer }, before) :=
  ⟨linked.scanning, linked.latest,
    fun other otherMem => linked.earlier other (List.mem_of_mem_erase otherMem),
    fun running same other otherMem => linked.due running same other
      (List.mem_of_mem_erase otherMem)⟩

theorem linked_followed {world : World × Option Running} (linked : Linked world)
    (input : Input) : Linked (followed world input).1 := by
  rcases world with ⟨world, before⟩
  cases input with
  | wait milliseconds =>
      simp only [Machine.observed, react, follow, List.not_mem_nil, if_false]
      exact ⟨linked.scanning, linked.latest, linked.earlier, linked.due⟩
  | scan time => exact linked_scan linked time
  | stopScan => exact linked_stopScan linked
  | onScanFailed errorCode => exact linked.of_ended rfl rfl (List.Subset.refl _)
  | run number =>
      rcases found : world.dueTimer number with _ | timer
      · simp only [Machine.observed, react, follow, World.run_of_none found, List.not_mem_nil,
          if_false]
        exact linked
      · simp only [Machine.observed, react, follow, World.run_of_some found]
        exact linked_stopScan (linked_erase linked timer)

/-! ## One step -/

/-- A posted step which is due ends the running scan, and may do so exactly if it is its own. -/
theorem run_sound_iff {world : World} {before : Option Running} (linked : Linked (world, before))
    {number : ℕ} {timer : Timer} (found : world.dueTimer number = some timer) :
    ScanSound (world, before) (.run number) ↔ ScanSafe (world, before) (.run number) := by
  rcases dueTimer_mem found with ⟨timerMem, ownNumber, due⟩
  constructor
  · intro sound _ scanning
    rcases Option.ne_none_iff_exists'.mp (linked.scanning.mp scanning) with ⟨running, same⟩
    have stopped : (followed (world, before) (.run number)).1.2 = none := by
      have stops := World.run_of_some found
      rw [World.stopScan_of_scanning (by exact scanning)] at stops
      simp only [Machine.observed, react, follow, stops, List.mem_singleton, if_true]
    have ends := sound running same (by simp [stopped])
    cases ends
    exact linked.latest running same
  · intro safe running same _
    have scanning := linked.scanning.mpr (by rw [same]; simp)
    have latest := safe (by rw [found]; simp) scanning
    have own : running.number = number := by
      have := linked.latest running same
      omega
    subst own
    have atEnd := linked.due running same timer timerMem ownNumber
    refine .expired ?_
    rw [← atEnd]
    exact due

/-- In linked states a step is sound exactly if it is safe. -/
theorem scanSound_iff_scanSafe {world : World × Option Running} (linked : Linked world)
    (input : Input) : ScanSound world input ↔ ScanSafe world input := by
  rcases world with ⟨world, before⟩
  cases input with
  | wait milliseconds =>
      refine iff_of_true ?_ trivial
      intro running same changed
      exact absurd same changed
  | scan time =>
      refine iff_of_true ?_ trivial
      intro running same changed
      have scanning : world.isScanning = true := linked.scanning.mpr (by rw [same]; simp)
      simp only [Machine.observed, react, follow, World.scan_of_scanning scanning,
        List.not_mem_nil, if_false] at changed
      exact absurd same changed
  | stopScan => exact iff_of_true (fun running _ _ => .stopped) trivial
  | onScanFailed errorCode => exact iff_of_true (fun running _ _ => .failed errorCode) trivial
  | run number =>
      rcases found : world.dueTimer number with _ | timer
      · refine iff_of_true ?_ fun due => absurd found due
        intro running same changed
        simp only [Machine.observed, react, follow, World.run_of_none found, List.not_mem_nil,
          if_false] at changed
        exact absurd same changed
      · exact run_sound_iff linked found

/-- In every run, all steps end scans as they may exactly when no posted step of an earlier scan
runs during a later one. -/
theorem every_scanSound_iff (inputs : List Input) :
    Machine.Every followed ScanSound ({}, none) inputs ↔
      Machine.Every followed ScanSafe ({}, none) inputs :=
  Machine.every_iff_of_invariant Linked
    (fun _ input linked => scanSound_iff_scanSafe linked input)
    (fun _ input linked _ => linked_followed linked input) linked_initial inputs

/-- A scan is stopped, another one is started, and the step of the first ends it after half its
duration. -/
theorem not_every_scanSound :
    ¬∀ inputs, Machine.Every followed ScanSound ({}, none) inputs := by
  intro always
  have sound := always [.scan 10000, .stopScan, .wait 5000, .scan 10000, .wait 5000, .run 0]
    [.scan 10000, .stopScan, .wait 5000, .scan 10000, .wait 5000] (.run 0) [] rfl
  have ends := sound ⟨1, 5000, 10000⟩ (by decide) (by decide)
  cases ends

end AndroidCollection.Ble.Scan
