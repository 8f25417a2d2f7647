import AndroidCollection.Ble.Client

/-!
# Attempts to reconnect

A client is to make at most `MAX_RECONNECT` attempts of its own between two
successful connections, and none between the call of `disconnect` and the next
call of `connect`. The counter is compared before it is raised, so one attempt
too many is made when it has reached the limit. After a call of `disconnect` a
device is still remembered if the call found no gatt, or if a connection was
reported after it; then the next disconnection is followed by an attempt.
-/

namespace AndroidCollection.Ble.BleClient

open Java

/-- What has happened so far: the attempts since the last successful connection, whether the user
has called `disconnect` and not `connect` since, and whether a device has come to be remembered
all the same. -/
structure History where
  attempts : ℕ := 0
  dismissed : Bool := false
  stale : Bool := false

/-- The attempts to connect which a step makes without the user. -/
def automatic : Input → List Effect → ℕ
  | .onConnectionStateChange _ _ _ _, effects =>
      effects.countP fun
        | .connectGatt _ _ => true
        | _ => false
  | _, _ => 0

def History.observe (history : History) (world : World) (input : Input) (effects : List Effect) :
    History :=
  match input with
  | .connect _ _ => { history with dismissed := false, stale := false }
  | .disconnect =>
      { history with
        dismissed := true
        stale := world.mBluetoothGatt = none ∧ world.mConnectedDevice ≠ none }
  | .onConnectionStateChange gatt status newState _ =>
      if gatt ∈ world.gatts ∧ status = GATT_SUCCESS ∧ newState = STATE_CONNECTED then
        { history with attempts := 0, stale := history.dismissed }
      else
        { history with attempts := history.attempts + automatic input effects }

/-- The client with the history of its run. -/
def reconnectStep : World × History → Input → (World × History) × List Effect :=
  Machine.observed react History.observe

def ReconnectSound (state : World × History) (input : Input) : Prop :=
  (reconnectStep state input).1.2.attempts ≤ MAX_RECONNECT ∧
    (state.2.dismissed = true → automatic input (reconnectStep state input).2 = 0)

/-- A disconnection comes when no device is remembered against the user's will, and when the
counter is below the limit if a device is remembered. -/
def ReconnectSafe (state : World × History) : Input → Prop
  | .onConnectionStateChange gatt status newState _ =>
      gatt ∈ state.1.gatts → status = GATT_SUCCESS → newState = STATE_DISCONNECTED →
        state.2.stale = false ∧
          (state.1.mConnectedDevice ≠ none → state.1.reconnect < MAX_RECONNECT)
  | _ => True

/-- The counter counts the attempts. -/
structure Tracked (state : World × History) : Prop where
  counted : state.2.attempts = state.1.reconnect
  bounded : state.1.reconnect ≤ MAX_RECONNECT
  remembered : state.2.stale = true ↔
    state.2.dismissed = true ∧ state.1.mConnectedDevice ≠ none

theorem tracked_initial : Tracked (initial, {}) :=
  ⟨rfl, by decide, by decide⟩

/-! ## A disconnection -/

variable {world : World} {history : History}

theorem closeCurrent_fields (world : World) :
    (closeCurrent world).1.reconnect = world.reconnect ∧
      (closeCurrent world).1.mConnectedDevice = world.mConnectedDevice := by
  unfold closeCurrent
  split <;> exact ⟨rfl, rfl⟩

theorem automatic_closeCurrent (world : World) (input : Input) (effects : List Effect) :
    automatic input ((closeCurrent world).2 ++ effects) = automatic input effects := by
  cases input with
  | onConnectionStateChange gatt status newState answers =>
      unfold closeCurrent
      split <;> simp [automatic]
  | _ => rfl

theorem step_disconnection {gatt : BluetoothGatt} (issued : gatt ∈ world.gatts) (answers : Bool) :
    reconnectStep (world, history) (disconnection gatt answers) =
      (((reconnectRemembered (closeCurrent world).1 answers).1,
        { history with
          attempts := history.attempts + automatic (disconnection gatt answers)
            (reconnectRemembered (closeCurrent world).1 answers).2 }),
        (closeCurrent world).2 ++ (reconnectRemembered (closeCurrent world).1 answers).2) := by
  have other : ¬((STATE_DISCONNECTED : ℤ) = STATE_CONNECTED) := by decide
  have observed : history.observe world (disconnection gatt answers)
      ((closeCurrent world).2 ++ (reconnectRemembered (closeCurrent world).1 answers).2) =
      { history with
        attempts := history.attempts + automatic (disconnection gatt answers)
          (reconnectRemembered (closeCurrent world).1 answers).2 } := by
    rw [← automatic_closeCurrent world]
    simp only [History.observe, disconnection, other, and_false, if_false]
  simp only [reconnectStep, Machine.observed, react_disconnection issued, observed]

/-- Without a remembered device nothing is attempted. -/
theorem reconnectRemembered_of_forgotten (forgotten : world.mConnectedDevice = none)
    (answers : Bool) : reconnectRemembered world answers = (world, []) := by
  rw [reconnectRemembered, forgotten]

/-- With a remembered device and a counter within the limit one attempt is made. -/
theorem reconnectRemembered_of_remembered {device : Ref}
    (remembered : world.mConnectedDevice = some device) (within : world.reconnect ≤ MAX_RECONNECT)
    (answers : Bool) :
    reconnectRemembered world answers =
      connect { world with reconnect := world.reconnect + 1 } device answers := by
  rw [reconnectRemembered, remembered]
  exact if_pos within

/-- The counters and the attempts after a disconnection. -/
theorem disconnection_fields (bounded : world.reconnect ≤ MAX_RECONNECT) (gatt : BluetoothGatt)
    (answers : Bool) :
    (reconnectRemembered (closeCurrent world).1 answers).1.mConnectedDevice =
        world.mConnectedDevice ∧
      (reconnectRemembered (closeCurrent world).1 answers).1.reconnect =
        world.reconnect + (if world.mConnectedDevice = none then 0 else 1) ∧
      automatic (disconnection gatt answers)
          (reconnectRemembered (closeCurrent world).1 answers).2 =
        if world.mConnectedDevice = none then 0 else 1 := by
  rcases closeCurrent_fields world with ⟨counter, device⟩
  cases reference : world.mConnectedDevice with
  | none =>
      rw [reference] at device
      rw [reconnectRemembered_of_forgotten device]
      exact ⟨device, counter, rfl⟩
  | some remembered =>
      rw [reference] at device
      rw [← counter] at bounded
      rw [reconnectRemembered_of_remembered device bounded]
      exact ⟨device, by simp [connect, counter], rfl⟩

/-- Under the invariant a disconnection is sound exactly when it is safe, and then the invariant
holds again. -/
theorem disconnection_sound_iff (tracked : Tracked (world, history)) {gatt : BluetoothGatt}
    (issued : gatt ∈ world.gatts) (answers : Bool) :
    ReconnectSound (world, history) (disconnection gatt answers) ↔
      ReconnectSafe (world, history) (disconnection gatt answers) := by
  rcases tracked with ⟨counted, bounded, remembered⟩
  dsimp only at counted bounded remembered
  rcases disconnection_fields bounded gatt answers with ⟨-, -, attempted⟩
  have condition : ReconnectSafe (world, history) (disconnection gatt answers) ↔
      history.stale = false ∧
        (world.mConnectedDevice ≠ none → world.reconnect < MAX_RECONNECT) :=
    ⟨fun safe => safe issued rfl rfl, fun safe _ _ _ => safe⟩
  rw [condition, ReconnectSound, step_disconnection issued, automatic_closeCurrent, attempted]
  dsimp only
  rw [counted, ← Bool.not_eq_true, remembered]
  by_cases forgotten : world.mConnectedDevice = none
  · simp [forgotten, bounded]
  · simp only [forgotten, if_false, not_false_eq_true, ne_eq, and_true, forall_const, one_ne_zero]
    rw [and_comm]
    exact Iff.rfl

theorem disconnection_tracked (tracked : Tracked (world, history)) {gatt : BluetoothGatt}
    (issued : gatt ∈ world.gatts) (answers : Bool)
    (safe : ReconnectSafe (world, history) (disconnection gatt answers)) :
    Tracked (reconnectStep (world, history) (disconnection gatt answers)).1 := by
  rcases (disconnection_sound_iff tracked issued answers).mpr safe with ⟨within, -⟩
  rcases tracked with ⟨counted, bounded, remembered⟩
  dsimp only at counted bounded remembered
  rcases disconnection_fields bounded gatt answers with ⟨device, counter, attempted⟩
  rw [step_disconnection issued] at within ⊢
  refine ⟨?_, ?_, ?_⟩
  · dsimp only
    rw [counter, attempted, counted]
  · dsimp only at within ⊢
    rw [counter, ← counted, ← attempted]
    exact within
  · dsimp only
    rw [device]
    exact remembered

/-! ## One step and a run -/

/-- The input reports the disconnection of a gatt. -/
def Disconnects (world : World) : Input → Prop
  | .onConnectionStateChange gatt status newState _ =>
      gatt ∈ world.gatts ∧ status = GATT_SUCCESS ∧ newState = STATE_DISCONNECTED
  | _ => False

/-- A report which is no connection and no disconnection changes nothing. -/
theorem react_of_no_change {gatt : BluetoothGatt} {status newState : ℤ} {answers : Bool}
    (noConnection : ¬(gatt ∈ world.gatts ∧ status = GATT_SUCCESS ∧ newState = STATE_CONNECTED))
    (noDisconnection : ¬Disconnects world (.onConnectionStateChange gatt status newState answers)) :
    react world (.onConnectionStateChange gatt status newState answers) = (world, []) := by
  simp only [Disconnects] at noDisconnection
  rw [react]
  split
  · next issued =>
      rw [onConnectionStateChange]
      split
      · next success =>
          rw [if_neg fun connected => noConnection ⟨issued, success, connected⟩,
            if_neg fun disconnected => noDisconnection ⟨issued, success, disconnected⟩]
      · rfl
  · rfl

/-- Any other step makes no attempt and keeps the counter. -/
theorem tracked_of_not_disconnects (tracked : Tracked (world, history)) {input : Input}
    (other : ¬Disconnects world input) :
    Tracked (reconnectStep (world, history) input).1 ∧
      automatic input (reconnectStep (world, history) input).2 = 0 := by
  rcases tracked with ⟨counted, bounded, remembered⟩
  dsimp only at counted bounded remembered
  cases input with
  | connect bluetoothDevice answers =>
      refine ⟨⟨counted, bounded, ?_⟩, rfl⟩
      simp [reconnectStep, Machine.observed, History.observe]
  | disconnect =>
      refine ⟨?_, rfl⟩
      cases reference : world.mBluetoothGatt with
      | none =>
          have reaction : react world .disconnect = (world, []) := by
            rw [react, disconnect, reference]
          simp only [reconnectStep, Machine.observed, reaction, History.observe, reference]
          exact ⟨counted, bounded, by simp⟩
      | some gatt =>
          have reaction : react world .disconnect =
              ({ world with mConnectedDevice := none }, [.disconnect gatt]) := by
            rw [react, disconnect, reference]
          simp only [reconnectStep, Machine.observed, reaction, History.observe, reference]
          exact ⟨counted, bounded, by simp⟩
  | onConnectionStateChange gatt status newState answers =>
      by_cases connects : gatt ∈ world.gatts ∧ status = GATT_SUCCESS ∧ newState = STATE_CONNECTED
      · have reaction : react world (.onConnectionStateChange gatt status newState answers) =
            (setConnectedDevice world gatt.device,
              [.requestConnectionPriority gatt, .discoverServices gatt]) := by
          simp [react, connects, onConnectionStateChange]
        simp only [reconnectStep, Machine.observed, reaction, History.observe, if_pos connects]
        exact ⟨⟨rfl, Nat.zero_le _, by simp [setConnectedDevice]⟩, rfl⟩
      · have reaction := react_of_no_change connects other
        simp only [reconnectStep, Machine.observed, reaction, History.observe, if_neg connects]
        exact ⟨⟨counted, bounded, remembered⟩, rfl⟩

theorem reconnectSound_iff_reconnectSafe {state : World × History} (tracked : Tracked state)
    (input : Input) : ReconnectSound state input ↔ ReconnectSafe state input := by
  rcases state with ⟨world, history⟩
  by_cases disconnects : Disconnects world input
  · cases input with
    | onConnectionStateChange gatt status newState answers =>
        rcases disconnects with ⟨issued, rfl, rfl⟩
        exact disconnection_sound_iff tracked issued answers
    | _ => exact disconnects.elim
  · rcases tracked_of_not_disconnects tracked disconnects with ⟨next, quiet⟩
    refine iff_of_true ⟨?_, fun _ => quiet⟩ ?_
    · rw [next.counted]
      exact next.bounded
    · cases input with
      | onConnectionStateChange gatt status newState answers =>
          intro issued success disconnected
          exact absurd ⟨issued, success, disconnected⟩ disconnects
      | _ => trivial

theorem tracked_step {state : World × History} (tracked : Tracked state) {input : Input}
    (safe : ReconnectSafe state input) : Tracked (reconnectStep state input).1 := by
  rcases state with ⟨world, history⟩
  by_cases disconnects : Disconnects world input
  · cases input with
    | onConnectionStateChange gatt status newState answers =>
        rcases disconnects with ⟨issued, rfl, rfl⟩
        exact disconnection_tracked tracked issued answers safe
    | _ => exact disconnects.elim
  · exact (tracked_of_not_disconnects tracked disconnects).1

/-- In every run, all steps respect the limit and the user exactly when all are safe. -/
theorem reconnectSound_iff (inputs : List Input) :
    Machine.Every reconnectStep ReconnectSound (initial, {}) inputs ↔
      Machine.Every reconnectStep ReconnectSafe (initial, {}) inputs := by
  apply Machine.every_iff_of_invariant Tracked
  · intro state input tracked
    exact reconnectSound_iff_reconnectSafe tracked input
  · intro state input tracked safe
    exact tracked_step tracked safe
  · exact tracked_initial

/-- A connection, and three disconnections after it. -/
def disconnectedThrice : List Input :=
  [.connect 1 true, .onConnectionStateChange ⟨0, 1⟩ GATT_SUCCESS STATE_CONNECTED true,
    disconnection ⟨0, 1⟩ true, disconnection ⟨1, 1⟩ true]

/-- The third disconnection is followed by a third attempt. -/
theorem third_attempt_not_sound :
    ¬Machine.Every reconnectStep ReconnectSound (initial, {})
      (disconnectedThrice ++ [disconnection ⟨2, 1⟩ true]) := by
  intro every
  have sound := every disconnectedThrice (disconnection ⟨2, 1⟩ true) [] rfl
  have within : 3 ≤ MAX_RECONNECT := sound.1
  exact absurd within (by decide)

end AndroidCollection.Ble.BleClient
