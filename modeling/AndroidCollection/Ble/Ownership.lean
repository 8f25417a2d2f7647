import AndroidCollection.Ble.Client

/-!
# Who closes a gatt

Each gatt is to be closed when it has reported its disconnection, and only once;
a report for a gatt which is not the current one is to leave the current one
alone. The client closes the gatt in its field instead of the one which reports,
and only when the report is a success. So it keeps to this only if the first
report of a disconnection is for the current gatt and successful; later ones for
the same gatt have to find nothing to close and nothing to reconnect.
-/

namespace AndroidCollection.Ble.BleClient

open Java

/-- The gatts which have reported their disconnection and those which have been closed, with
repetitions. -/
structure Record where
  disconnected : List BluetoothGatt := []
  closed : List BluetoothGatt := []

/-- The gatt whose disconnection an input reports, with any status. -/
def reported (world : World) : Input → Option BluetoothGatt
  | .onConnectionStateChange gatt _ newState _ =>
      if gatt ∈ world.gatts ∧ newState = STATE_DISCONNECTED then some gatt else none
  | _ => none

def closes (effects : List Effect) : List BluetoothGatt :=
  effects.filterMap fun
    | .close gatt => some gatt
    | _ => none

def Record.observe (record : Record) (world : World) (input : Input) (effects : List Effect) :
    Record where
  disconnected := (reported world input).toList ++ record.disconnected
  closed := closes effects ++ record.closed

/-- The client with the record of its gatts. -/
def ownershipStep : World × Record → Input → (World × Record) × List Effect :=
  Machine.observed react Record.observe

/-- The report of a gatt other than the current one. -/
def Foreign (world : World) : Input → Prop
  | .onConnectionStateChange gatt _ _ _ => world.mBluetoothGatt ≠ some gatt
  | _ => False

/-- The effects which end a connection or make one. -/
def Effect.replaces : Effect → Bool
  | .close _ | .connectGatt _ _ => true
  | _ => false

structure OwnershipSound (state : World × Record) (input : Input) : Prop where
  released : ∀ gatt ∈ (ownershipStep state input).1.2.disconnected,
    gatt ∈ (ownershipStep state input).1.2.closed
  own : ∀ gatt ∈ (ownershipStep state input).1.2.closed,
    gatt ∈ (ownershipStep state input).1.2.disconnected
  once : (ownershipStep state input).1.2.closed.Nodup
  undisturbed : Foreign state.1 input →
    (ownershipStep state input).1.1.mBluetoothGatt = state.1.mBluetoothGatt ∧
      ∀ effect ∈ (ownershipStep state input).2, effect.replaces = false

/-- The first disconnection of a gatt is reported with success while it is the current one; a
further report fails, or finds no current gatt and no device to reconnect. -/
def OwnershipSafe (state : World × Record) : Input → Prop
  | .onConnectionStateChange gatt status newState _ =>
      gatt ∈ state.1.gatts → newState = STATE_DISCONNECTED →
        (status = GATT_SUCCESS ∧ state.1.mBluetoothGatt = some gatt) ∨
          (gatt ∈ state.2.disconnected ∧
            (status = GATT_SUCCESS → state.1.mBluetoothGatt = none ∧
              (state.1.mConnectedDevice ≠ none → MAX_RECONNECT < state.1.reconnect)))
  | _ => True

/-- Every gatt has reported its disconnection and been closed, or neither; the current one has
not, and nothing beyond the gatts handed out exists. -/
structure Owned (state : World × Record) : Prop where
  numbered : ∀ gatt ∈ state.1.gatts, gatt.number < state.1.gatts.length
  current : ∀ gatt, state.1.mBluetoothGatt = some gatt →
    gatt ∈ state.1.gatts ∧ gatt ∉ state.2.closed
  issued : ∀ gatt ∈ state.2.closed, gatt ∈ state.1.gatts
  released : ∀ gatt, gatt ∈ state.2.disconnected ↔ gatt ∈ state.2.closed
  once : state.2.closed.Nodup

theorem owned_initial : Owned (initial, {}) := by
  constructor <;> simp [initial]

variable {world : World} {record : Record}

@[simp]
theorem closes_append (first second : List Effect) :
    closes (first ++ second) = closes first ++ closes second :=
  List.filterMap_append

/-! ## The parts of a step -/

/-- A connection for which the platform hands out a new gatt, or none. -/
theorem owned_connect (owned : Owned (world, record)) (device : Ref) (answers : Bool) :
    Owned ((connect world device answers).1, record) := by
  rcases owned with ⟨numbered, current, issued, released, once⟩
  dsimp only at numbered current issued released once
  cases answers with
  | false => exact ⟨numbered, fun gatt absent => (by cases absent), issued, released, once⟩
  | true =>
      refine ⟨?_, ?_, fun gatt closed => List.mem_cons_of_mem _ (issued gatt closed), released,
        once⟩
      · intro gatt member
        change gatt ∈ ⟨world.gatts.length, device⟩ :: world.gatts at member
        change gatt.number < world.gatts.length + 1
        rcases List.mem_cons.mp member with rfl | earlier
        · exact Nat.lt_succ_self _
        · exact Nat.lt_succ_of_lt (numbered gatt earlier)
      · intro gatt handed
        obtain rfl : ⟨world.gatts.length, device⟩ = gatt := Option.some.inj handed
        refine ⟨List.mem_cons_self, ?_⟩
        intro closed
        exact absurd (numbered _ (issued _ closed)) (Nat.lt_irrefl _)

theorem owned_reconnectRemembered (owned : Owned (world, record)) (answers : Bool) :
    Owned ((reconnectRemembered world answers).1, record) := by
  unfold reconnectRemembered
  split
  · exact owned
  · next device _ =>
      split
      · apply owned_connect
        exact ⟨owned.numbered, owned.current, owned.issued, owned.released, owned.once⟩
      · exact owned

theorem closes_reconnectRemembered (world : World) (answers : Bool) :
    closes (reconnectRemembered world answers).2 = [] := by
  unfold reconnectRemembered
  split
  · rfl
  · split <;> rfl

/-- The current gatt reports its disconnection. -/
theorem owned_release (owned : Owned (world, record)) {gatt : BluetoothGatt}
    (current : world.mBluetoothGatt = some gatt) :
    Owned ({ world with mBluetoothGatt := none },
      { disconnected := gatt :: record.disconnected, closed := gatt :: record.closed }) := by
  rcases owned.current gatt current with ⟨handed, unclosed⟩
  refine ⟨owned.numbered, fun other absent => (by cases absent), ?_, ?_, ?_⟩
  · intro other closed
    rcases List.mem_cons.mp closed with rfl | earlier
    · exact handed
    · exact owned.issued other earlier
  · intro other
    simp only [List.mem_cons, owned.released other]
  · exact List.nodup_cons.mpr ⟨unclosed, owned.once⟩

/-- A gatt which has been closed reports its disconnection again. -/
theorem owned_repeat (owned : Owned (world, record)) {gatt : BluetoothGatt}
    (earlier : gatt ∈ record.disconnected) :
    Owned (world, { record with disconnected := gatt :: record.disconnected }) := by
  refine ⟨owned.numbered, owned.current, owned.issued, ?_, owned.once⟩
  intro other
  have same := owned.released other
  dsimp only at same ⊢
  rw [← same, List.mem_cons]
  constructor
  · rintro (rfl | present)
    · exact earlier
    · exact present
  · exact Or.inr

/-! ## The report of a disconnection -/

theorem sound_of_owned {state : World × Record} {input : Input}
    (owned : Owned (ownershipStep state input).1)
    (undisturbed : Foreign state.1 input →
      (ownershipStep state input).1.1.mBluetoothGatt = state.1.mBluetoothGatt ∧
        ∀ effect ∈ (ownershipStep state input).2, effect.replaces = false) :
    OwnershipSound state input :=
  ⟨fun gatt => (owned.released gatt).mp, fun gatt => (owned.released gatt).mpr, owned.once,
    undisturbed⟩

theorem ownershipStep_disconnection {gatt : BluetoothGatt} (issued : gatt ∈ world.gatts)
    (answers : Bool) :
    ownershipStep (world, record) (disconnection gatt answers) =
      (((reconnectRemembered (closeCurrent world).1 answers).1,
        { disconnected := gatt :: record.disconnected
          closed := closes (closeCurrent world).2 ++ record.closed }),
        (closeCurrent world).2 ++ (reconnectRemembered (closeCurrent world).1 answers).2) := by
  have named : reported world (disconnection gatt answers) = some gatt :=
    if_pos ⟨issued, rfl⟩
  simp only [ownershipStep, Machine.observed, react_disconnection issued, Record.observe, named,
    closes_append, closes_reconnectRemembered, List.append_nil]
  rfl

/-- A report which fails is only recorded. -/
theorem ownershipStep_failed {gatt : BluetoothGatt} (issued : gatt ∈ world.gatts) {status : ℤ}
    (failed : status ≠ GATT_SUCCESS) (answers : Bool) :
    ownershipStep (world, record)
        (.onConnectionStateChange gatt status STATE_DISCONNECTED answers) =
      ((world, { record with disconnected := gatt :: record.disconnected }), []) := by
  have reaction : react world (.onConnectionStateChange gatt status STATE_DISCONNECTED answers) =
      (world, []) := by
    simp only [react, if_pos issued, onConnectionStateChange, if_neg failed]
  have named : reported world (.onConnectionStateChange gatt status STATE_DISCONNECTED answers) =
      some gatt := if_pos ⟨issued, rfl⟩
  simp only [ownershipStep, Machine.observed, reaction, Record.observe, named]
  rfl

/-- Without a current gatt, and with nothing to reconnect, a report is only recorded too. -/
theorem ownershipStep_idle {gatt : BluetoothGatt} (issued : gatt ∈ world.gatts)
    (vacant : world.mBluetoothGatt = none)
    (settled : world.mConnectedDevice ≠ none → MAX_RECONNECT < world.reconnect) (answers : Bool) :
    ownershipStep (world, record) (disconnection gatt answers) =
      ((world, { record with disconnected := gatt :: record.disconnected }), []) := by
  have nothing : closeCurrent world = (world, []) := by
    rw [closeCurrent, vacant]
  have quiet : reconnectRemembered world answers = (world, []) := by
    rw [reconnectRemembered]
    split
    · rfl
    · next device remembered =>
        have exhausted := settled (by simp [remembered])
        rw [if_neg (Nat.not_le.mpr exhausted)]
  rw [ownershipStep_disconnection issued, nothing]
  dsimp only
  rw [quiet]
  rfl

/-- A report which is only recorded is right exactly when the gatt has reported before. -/
theorem recorded_iff (owned : Owned (world, record)) {gatt : BluetoothGatt} {input : Input}
    (recorded : ownershipStep (world, record) input =
      ((world, { record with disconnected := gatt :: record.disconnected }), [])) :
    (OwnershipSound (world, record) input ↔ gatt ∈ record.disconnected) ∧
      (gatt ∈ record.disconnected → Owned (ownershipStep (world, record) input).1) := by
  have kept : gatt ∈ record.disconnected → Owned (ownershipStep (world, record) input).1 := by
    intro earlier
    rw [recorded]
    exact owned_repeat owned earlier
  refine ⟨⟨?_, ?_⟩, kept⟩
  · intro sound
    have closed := sound.released gatt
    rw [recorded] at closed
    exact (owned.released gatt).mpr (closed List.mem_cons_self)
  · intro earlier
    apply sound_of_owned (kept earlier)
    intro _
    rw [recorded]
    exact ⟨rfl, by simp⟩

/-- The current gatt is closed by its own report. -/
theorem current_released (owned : Owned (world, record)) {gatt : BluetoothGatt}
    (current : world.mBluetoothGatt = some gatt) (answers : Bool) :
    OwnershipSound (world, record) (disconnection gatt answers) ∧
      Owned (ownershipStep (world, record) (disconnection gatt answers)).1 := by
  have issued := (owned.current gatt current).1
  have closed : closeCurrent world = ({ world with mBluetoothGatt := none }, [.close gatt]) := by
    rw [closeCurrent, current]
  have next : Owned (ownershipStep (world, record) (disconnection gatt answers)).1 := by
    rw [ownershipStep_disconnection issued, closed]
    exact owned_reconnectRemembered (owned_release owned current) answers
  exact ⟨sound_of_owned next fun foreign => absurd current foreign, next⟩

/-- The report of another gatt closes the current one. -/
theorem not_sound_of_other {gatt other : BluetoothGatt} (issued : gatt ∈ world.gatts)
    (current : world.mBluetoothGatt = some other) (different : other ≠ gatt) (answers : Bool) :
    ¬OwnershipSound (world, record) (disconnection gatt answers) := by
  intro sound
  have foreign : Foreign world (disconnection gatt answers) := by
    change world.mBluetoothGatt ≠ some gatt
    rw [current]
    exact fun same => different (Option.some.inj same)
  have closing : Effect.close other ∈ (closeCurrent world).2 := by
    rw [closeCurrent, current]
    exact List.mem_singleton_self _
  have untouched := (sound.undisturbed foreign).2 (.close other)
  rw [ownershipStep_disconnection issued] at untouched
  cases untouched (List.mem_append_left _ closing)

/-- Without a current gatt, a report is not to make a connection. -/
theorem not_sound_of_attempt {gatt : BluetoothGatt} (issued : gatt ∈ world.gatts)
    (vacant : world.mBluetoothGatt = none) {device : Ref}
    (remembered : world.mConnectedDevice = some device) (within : world.reconnect ≤ MAX_RECONNECT)
    (answers : Bool) : ¬OwnershipSound (world, record) (disconnection gatt answers) := by
  intro sound
  have foreign : Foreign world (disconnection gatt answers) := by
    change world.mBluetoothGatt ≠ some gatt
    rw [vacant]
    exact (Option.some_ne_none gatt).symm
  have nothing : closeCurrent world = (world, []) := by
    rw [closeCurrent, vacant]
  have attempted : Effect.connectGatt device (connectGatt world device answers) ∈
      (reconnectRemembered world answers).2 := by
    rw [reconnectRemembered, remembered]
    simp only [if_pos within, connect, List.mem_singleton]
    rfl
  have untouched := (sound.undisturbed foreign).2 
    (.connectGatt device (connectGatt world device answers))
  rw [ownershipStep_disconnection issued, nothing] at untouched
  cases untouched (List.mem_append_right _ attempted)

/-- A successful report of a disconnection is sound exactly when it is safe. -/
theorem disconnection_iff (owned : Owned (world, record)) {gatt : BluetoothGatt}
    (issued : gatt ∈ world.gatts) (answers : Bool) :
    (OwnershipSound (world, record) (disconnection gatt answers) ↔
        OwnershipSafe (world, record) (disconnection gatt answers)) ∧
      (OwnershipSafe (world, record) (disconnection gatt answers) →
        Owned (ownershipStep (world, record) (disconnection gatt answers)).1) := by
  have condition : OwnershipSafe (world, record) (disconnection gatt answers) ↔
      world.mBluetoothGatt = some gatt ∨ (gatt ∈ record.disconnected ∧
        world.mBluetoothGatt = none ∧
          (world.mConnectedDevice ≠ none → MAX_RECONNECT < world.reconnect)) := by
    simp [OwnershipSafe, disconnection, issued]
  rw [condition]
  cases current : world.mBluetoothGatt with
  | some other =>
      by_cases same : other = gatt
      · subst same
        rcases current_released owned current answers with ⟨sound, next⟩
        exact ⟨iff_of_true sound (Or.inl rfl), fun _ => next⟩
      · have refused : ¬(some other = some gatt ∨ (gatt ∈ record.disconnected ∧
            some other = none ∧
              (world.mConnectedDevice ≠ none → MAX_RECONNECT < world.reconnect))) := by
          simp [same]
        exact ⟨iff_of_false (not_sound_of_other issued current same answers) refused,
          fun safe => absurd safe refused⟩
  | none =>
      simp only [reduceCtorEq, false_or, true_and]
      by_cases settled : world.mConnectedDevice ≠ none → MAX_RECONNECT < world.reconnect
      · have recorded := recorded_iff owned (ownershipStep_idle issued current settled answers)
        rw [and_iff_left settled]
        exact recorded
      · have refused : ¬(gatt ∈ record.disconnected ∧
            (world.mConnectedDevice ≠ none → MAX_RECONNECT < world.reconnect)) :=
          fun safe => settled safe.2
        rcases Classical.not_imp.mp settled with ⟨present, within⟩
        rcases Option.ne_none_iff_exists'.mp present with ⟨device, remembered⟩
        refine ⟨iff_of_false ?_ refused, fun safe => absurd safe refused⟩
        exact not_sound_of_attempt issued current remembered (Nat.le_of_not_lt within) answers

/-! ## One step and a run -/

theorem closes_of_quiet {effects : List Effect}
    (quiet : ∀ effect ∈ effects, effect.replaces = false) : closes effects = [] := by
  rw [closes, List.filterMap_eq_nil_iff]
  intro effect member
  have untouched := quiet effect member
  cases effect with
  | close gatt => cases untouched
  | _ => rfl

/-- A step which reports no disconnection and leaves the gatts alone is sound. -/
theorem sound_of_quiet (owned : Owned (world, record)) {input : Input}
    (silent : reported world input = none) (gatts : (react world input).1.gatts = world.gatts)
    (current : (react world input).1.mBluetoothGatt = world.mBluetoothGatt)
    (quiet : ∀ effect ∈ (react world input).2, effect.replaces = false) :
    OwnershipSound (world, record) input ∧ Owned (ownershipStep (world, record) input).1 := by
  have recorded : ownershipStep (world, record) input =
      (((react world input).1, record), (react world input).2) := by
    simp only [ownershipStep, Machine.observed, Record.observe, silent, closes_of_quiet quiet]
    rfl
  have next : Owned (ownershipStep (world, record) input).1 := by
    rcases owned with ⟨numbered, handed, issued, released, once⟩
    rw [recorded]
    refine ⟨?_, ?_, ?_, released, once⟩
    · simpa only [gatts] using numbered
    · simpa only [gatts, current] using handed
    · simpa only [gatts] using issued
  refine ⟨sound_of_owned next fun _ => ?_, next⟩
  rw [recorded]
  exact ⟨current, quiet⟩

/-- Connections, which may follow each other at once, and reports which are not of a
disconnection are always sound. -/
theorem sound_of_not_reported (owned : Owned (world, record)) {input : Input}
    (silent : reported world input = none) :
    OwnershipSound (world, record) input ∧ Owned (ownershipStep (world, record) input).1 := by
  cases input with
  | connect bluetoothDevice answers =>
      have next : Owned (ownershipStep (world, record) (.connect bluetoothDevice answers)).1 :=
        owned_connect owned bluetoothDevice answers
      exact ⟨sound_of_owned next fun foreign => foreign.elim, next⟩
  | disconnect =>
      apply sound_of_quiet owned silent
      all_goals
        simp only [react, disconnect]
        split <;> simp [Effect.replaces]
  | onConnectionStateChange gatt status newState answers =>
      have other : gatt ∈ world.gatts → newState ≠ STATE_DISCONNECTED := by
        intro issued disconnected
        simp [reported, issued, disconnected] at silent
      have reaction : react world (.onConnectionStateChange gatt status newState answers) =
            (setConnectedDevice world gatt.device,
              [.requestConnectionPriority gatt, .discoverServices gatt]) ∨
          react world (.onConnectionStateChange gatt status newState answers) = (world, []) := by
        rw [react]
        split
        · next issued =>
            rw [onConnectionStateChange]
            split
            · split
              · exact Or.inl rfl
              · rw [if_neg (other issued)]
                exact Or.inr rfl
            · exact Or.inr rfl
        · exact Or.inr rfl
      rcases reaction with connected | ignored
      · apply sound_of_quiet owned silent <;> rw [connected] <;>
          simp [setConnectedDevice, Effect.replaces]
      · apply sound_of_quiet owned silent <;> rw [ignored]
        simp

/-- As long as every gatt is owned, the sound steps are the safe ones, and they keep it so. -/
theorem ownership_step_iff {state : World × Record} (owned : Owned state) (input : Input) :
    (OwnershipSound state input ↔ OwnershipSafe state input) ∧
      (OwnershipSafe state input → Owned (ownershipStep state input).1) := by
  rcases state with ⟨world, record⟩
  cases named : reported world input with
  | none =>
      rcases sound_of_not_reported owned named with ⟨sound, next⟩
      refine ⟨iff_of_true sound ?_, fun _ => next⟩
      cases input with
      | onConnectionStateChange gatt status newState answers =>
          intro issued disconnected
          simp [reported, issued, disconnected] at named
      | _ => trivial
  | some gatt =>
      cases input with
      | onConnectionStateChange reporting status newState answers =>
          obtain ⟨⟨issued, rfl⟩, -⟩ : (reporting ∈ world.gatts ∧ newState = STATE_DISCONNECTED) ∧
              reporting = gatt := by
            simpa [reported] using named
          by_cases success : status = GATT_SUCCESS
          · subst success
            exact disconnection_iff owned issued answers
          · have condition : OwnershipSafe (world, record)
                (.onConnectionStateChange reporting status STATE_DISCONNECTED answers) ↔
                reporting ∈ record.disconnected := by
              simp [OwnershipSafe, issued, success]
            rw [condition]
            exact recorded_iff owned (ownershipStep_failed issued success answers)
      | _ => cases named

/-- In every run, each gatt is closed by its own disconnection and undisturbed by others in all
steps exactly when all are safe. -/
theorem ownershipSound_iff (inputs : List Input) :
    Machine.Every ownershipStep OwnershipSound (initial, {}) inputs ↔
      Machine.Every ownershipStep OwnershipSafe (initial, {}) inputs := by
  apply Machine.every_iff_of_invariant Owned
  · intro state input owned
    exact (ownership_step_iff owned input).1
  · intro state input owned safe
    exact (ownership_step_iff owned input).2 safe
  · exact owned_initial

/-- A second device is connected before the first one reports its disconnection: the report closes
the second connection. -/
theorem second_connect_not_sound :
    ¬Machine.Every ownershipStep OwnershipSound (initial, {})
      [.connect 1 true, .connect 2 true, disconnection ⟨0, 1⟩ true] := by
  intro every
  have sound := every [.connect 1 true, .connect 2 true] (disconnection ⟨0, 1⟩ true) [] rfl
  have foreign : Foreign (connect (connect initial 1 true).1 2 true).1
      (disconnection ⟨0, 1⟩ true) := by
    change some _ ≠ some _
    decide
  have untouched := (sound.undisturbed foreign).2 (.close ⟨1, 2⟩) (by decide)
  cases untouched

end AndroidCollection.Ble.BleClient
