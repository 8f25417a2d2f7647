import AndroidCollection.Usb.UsbUtils

/-!
# The claimed interface and the stored endpoints

The scan leaves the last interface of the device and, for each direction, the last
endpoint which was met, or else the one which was stored before. So a stored
endpoint belongs to the claimed interface just when the last interface has one of
its direction. A connection whose interface was not granted is closed and kept.
-/

namespace AndroidCollection.Usb

open Java

/-! ## What the scan leaves -/

/-- The endpoint which is stored for a direction after one more has been met. -/
def latest (direction : UInt8) (stored : Option UsbEndpoint) (endpoint : UsbEndpoint) :
    Option UsbEndpoint :=
  if endpoint.getDirection = direction then some endpoint else stored

section Latest

variable {direction : UInt8} {endpoints : List UsbEndpoint} {stored : Option UsbEndpoint}

theorem latest_eq_none_iff :
    endpoints.foldl (latest direction) stored = none ↔
      stored = none ∧ ∀ endpoint ∈ endpoints, endpoint.getDirection ≠ direction := by
  induction endpoints generalizing stored with
  | nil => simp
  | cons endpoint endpoints ih =>
      rw [List.foldl_cons, ih, latest]
      split
      · next same => simp [same]
      · next other => simp [other]

/-- A stored endpoint was met, or was stored before and none has been met since. -/
theorem latest_eq_some {endpoint : UsbEndpoint}
    (left : endpoints.foldl (latest direction) stored = some endpoint) :
    (endpoint ∈ endpoints ∧ endpoint.getDirection = direction) ∨
      (stored = some endpoint ∧ ∀ other ∈ endpoints, other.getDirection ≠ direction) := by
  induction endpoints generalizing stored with
  | nil => exact Or.inr ⟨left, by simp⟩
  | cons first endpoints ih =>
      rw [List.foldl_cons] at left
      rcases ih left with ⟨met, directed⟩ | ⟨before, others⟩
      · exact Or.inl ⟨List.mem_cons_of_mem first met, directed⟩
      · rw [latest] at before
        split at before
        · next directed =>
            cases before
            exact Or.inl ⟨List.mem_cons_self, directed⟩
        · next undirected =>
            right
            refine ⟨before, ?_⟩
            simpa using ⟨undirected, others⟩

end Latest

theorem meetEndpoint_eq (self : UsbUtils) (endpoint : UsbEndpoint) :
    self.meetEndpoint endpoint =
      { self with
        mUsbEndpoIn := latest USB_DIR_IN self.mUsbEndpoIn endpoint
        mUsbEndpointOut := latest USB_DIR_OUT self.mUsbEndpointOut endpoint } := by
  simp only [UsbUtils.meetEndpoint, latest]
  by_cases inward : endpoint.getDirection = USB_DIR_IN
  · have apart : USB_DIR_IN ≠ USB_DIR_OUT := by decide
    simp [inward, apart]
  · simp only [inward, if_false]
    split <;> rfl

theorem foldl_meetEndpoint (self : UsbUtils) (endpoints : List UsbEndpoint) :
    endpoints.foldl UsbUtils.meetEndpoint self =
      { self with
        mUsbEndpoIn := endpoints.foldl (latest USB_DIR_IN) self.mUsbEndpoIn
        mUsbEndpointOut := endpoints.foldl (latest USB_DIR_OUT) self.mUsbEndpointOut } := by
  induction endpoints generalizing self with
  | nil => rfl
  | cons endpoint endpoints ih => rw [List.foldl_cons, ih, meetEndpoint_eq, List.foldl_cons,
      List.foldl_cons]

/-- All endpoints of all interfaces, in the order in which they are met. -/
def endpointsOf (interfaces : List UsbInterface) : List UsbEndpoint :=
  interfaces.flatMap UsbInterface.endpoints

theorem foldl_meetInterface (self : UsbUtils) (interfaces : List UsbInterface) :
    interfaces.foldl UsbUtils.meetInterface self =
      { self with
        mInterface := interfaces.getLast?.or self.mInterface
        mUsbEndpoIn := (endpointsOf interfaces).foldl (latest USB_DIR_IN) self.mUsbEndpoIn
        mUsbEndpointOut :=
          (endpointsOf interfaces).foldl (latest USB_DIR_OUT) self.mUsbEndpointOut } := by
  induction interfaces generalizing self with
  | nil => rfl
  | cons intf interfaces ih =>
      have last : interfaces.getLast?.or (some intf) = some (interfaces.getLast?.getD intf) := by
        cases interfaces.getLast? <;> rfl
      rw [List.foldl_cons, ih, UsbUtils.meetInterface, foldl_meetEndpoint]
      simp [endpointsOf, List.foldl_append, List.getLast?_cons, last]

/-- The fields after a scan of interfaces of which the given one is the last. -/
def scanned (self : UsbUtils) (interfaces : List UsbInterface) (last : UsbInterface) : UsbUtils :=
  { self with
    mInterface := some last
    mUsbEndpoIn := (endpointsOf interfaces).foldl (latest USB_DIR_IN) self.mUsbEndpoIn
    mUsbEndpointOut := (endpointsOf interfaces).foldl (latest USB_DIR_OUT) self.mUsbEndpointOut }

theorem scan_eq (self : UsbUtils) (first : UsbInterface) {interfaces : List UsbInterface}
    {last : UsbInterface} (ends : interfaces.getLast? = some last) :
    self.scan first interfaces = scanned self interfaces last := by
  simp [UsbUtils.scan, foldl_meetInterface, ends, scanned]

/-! ## Endpoints of the last interface -/

/-- The last interface has an endpoint of the direction, or there is none to be stored. -/
def Supplied (direction : UInt8) (interfaces : List UsbInterface) (stored : Option UsbEndpoint) :
    Prop :=
  (∃ last, interfaces.getLast? = some last ∧
      ∃ endpoint ∈ last.endpoints, endpoint.getDirection = direction) ∨
    (stored = none ∧ ∀ endpoint ∈ endpointsOf interfaces, endpoint.getDirection ≠ direction)

/-- What is stored for a direction has that direction. -/
def Directed (direction : UInt8) (stored : Option UsbEndpoint) : Prop :=
  ∀ endpoint, stored = some endpoint → endpoint.getDirection = direction

theorem Directed.latest {direction : UInt8} {stored : Option UsbEndpoint}
    (directed : Directed direction stored) (endpoints : List UsbEndpoint) :
    Directed direction (endpoints.foldl (latest direction) stored) := by
  intro endpoint left
  rcases latest_eq_some left with ⟨_, met⟩ | ⟨before, _⟩
  · exact met
  · exact directed endpoint before

/-- The endpoint stored by a scan is one of the last interface exactly if that supplies it. -/
theorem latest_belongs_iff {direction : UInt8} {stored : Option UsbEndpoint}
    (directed : Directed direction stored) {interfaces : List UsbInterface} {last : UsbInterface}
    (ends : interfaces.getLast? = some last) :
    (∀ endpoint, (endpointsOf interfaces).foldl (latest direction) stored = some endpoint →
        endpoint ∈ last.endpoints) ↔
      Supplied direction interfaces stored := by
  have kept := directed.latest (endpointsOf interfaces)
  constructor
  · intro belongs
    cases left : (endpointsOf interfaces).foldl (latest direction) stored with
    | none => exact Or.inr (latest_eq_none_iff.1 left)
    | some endpoint =>
        exact Or.inl ⟨last, ends, endpoint, belongs endpoint left, kept endpoint left⟩
  · rintro (⟨other, isLast, supplied⟩ | nothing) endpoint left
    · cases ends.symm.trans isLast
      rcases List.getLast?_eq_some_iff.1 ends with ⟨front, rfl⟩
      simp only [endpointsOf, List.flatMap_append, List.flatMap_singleton,
        List.foldl_append] at left
      rcases latest_eq_some left with ⟨met, _⟩ | ⟨_, without⟩
      · exact met
      · rcases supplied with ⟨given, member, direct⟩
        exact absurd direct (without given member)
    · rw [latest_eq_none_iff.2 nothing] at left
      cases left

/-! ## One step -/

/-- A connection which is held is open, and the interface which is held is claimed on it. -/
def HoldsClaimed (self : UsbUtils) : Prop :=
  ∀ connection, self.mUsbConnection = some connection →
    connection.isOpen = true ∧
      ∃ intf, self.mInterface = some intf ∧ intf ∈ connection.claimed

/-- An interface of the device is claimed, and the stored endpoints are endpoints of it. -/
def EndpointsBelong (device : UsbDevice) (self : UsbUtils) : Prop :=
  ∃ connection intf, self.mUsbConnection = some connection ∧ self.mInterface = some intf ∧
    intf ∈ connection.claimed ∧ intf ∈ device.interfaces ∧
    (∀ endpoint, self.mUsbEndpoIn = some endpoint → endpoint ∈ intf.endpoints) ∧
    (∀ endpoint, self.mUsbEndpointOut = some endpoint → endpoint ∈ intf.endpoints)

/-- The step leaves a claimed interface if it leaves a connection, and when it opens a device it
leaves endpoints of that interface. -/
structure UsbSound (manager : UsbUtils) (input : Input) : Prop where
  holds : HoldsClaimed (react manager input).1
  belongs : ∀ device outcome, input = .openUSBDevice (some device) outcome →
    (react manager input).2 = some (.returned true) →
      EndpointsBelong device (react manager input).1

/-- When a connection is got, its interface is granted, and for each direction the last interface of
the device has an endpoint, or no interface has one and none is stored. -/
def UsbSafe (self : UsbUtils) : Input → Prop
  | .openUSBDevice (some device) (.opened granted) =>
      self.usbManager = true → device.interfaces ≠ [] →
        granted = true ∧ Supplied USB_DIR_IN device.interfaces self.mUsbEndpoIn ∧
          Supplied USB_DIR_OUT device.interfaces self.mUsbEndpointOut
  | _ => True

/-- Without the service there is no connection, and the stored endpoints have their directions. -/
structure Orderly (manager : UsbUtils) : Prop where
  holds : HoldsClaimed manager
  served : manager.usbManager = false → manager.mUsbConnection = none
  inward : Directed USB_DIR_IN manager.mUsbEndpoIn
  outward : Directed USB_DIR_OUT manager.mUsbEndpointOut

theorem holdsClaimed_of_none {self : UsbUtils} (released : self.mUsbConnection = none) :
    HoldsClaimed self := by
  intro connection held
  rw [released] at held
  cases held

theorem directed_none (direction : UInt8) : Directed direction none := by
  intro endpoint stored
  cases stored

variable {self : UsbUtils}

theorem closeUsbDevice_orderly (orderly : Orderly self) (throws : Bool) :
    Orderly (self.closeUsbDevice throws) := by
  simp only [UsbUtils.closeUsbDevice]
  split
  · exact orderly
  · split
    · exact orderly
    · exact ⟨holdsClaimed_of_none rfl, fun _ => rfl, directed_none _, directed_none _⟩

theorem getUsbManager_orderly (orderly : Orderly self) (available : Bool) :
    Orderly (self.getUsbManager available) := by
  refine ⟨orderly.holds, ?_, orderly.inward, orderly.outward⟩
  intro missing
  have earlier : self.usbManager = false ∧ available = false := by
    simpa [UsbUtils.getUsbManager] using missing
  exact orderly.served earlier.1

theorem openUSBDevice_eq (self : UsbUtils) {device : UsbDevice} {last : UsbInterface}
    (ends : device.interfaces.getLast? = some last) (outcome : Outcome) :
    self.openUSBDevice (some device) outcome =
      if self.usbManager then
        match outcome with
        | .refused =>
            ({ scanned self device.interfaces last with mUsbConnection := none }, .returned false)
        | .opened granted => (scanned self device.interfaces last).claim ⟨true, []⟩ granted
      else (scanned self device.interfaces last, .nullPointerException) := by
  cases interfaces : device.interfaces with
  | nil => simp [interfaces] at ends
  | cons first others =>
      rw [interfaces] at ends
      simp only [UsbUtils.openUSBDevice, interfaces, scan_eq self first ends]
      rfl

/-- A device without interfaces leaves everything as it is. -/
theorem openUSBDevice_nil {device : UsbDevice} (none' : device.interfaces = [])
    (outcome : Outcome) :
    self.openUSBDevice (some device) outcome = (self, .arrayIndexOutOfBoundsException) := by
  simp only [UsbUtils.openUSBDevice, none']

theorem scanned_orderly (orderly : Orderly self) (interfaces : List UsbInterface)
    (last : UsbInterface) {connection : Option UsbDeviceConnection}
    (holds : HoldsClaimed { scanned self interfaces last with mUsbConnection := connection })
    (served : self.usbManager = false → connection = none) :
    Orderly { scanned self interfaces last with mUsbConnection := connection } :=
  ⟨holds, served, orderly.inward.latest _, orderly.outward.latest _⟩

theorem opened_sound_iff (orderly : Orderly self) (served : self.usbManager = true)
    {device : UsbDevice} {last : UsbInterface} (ends : device.interfaces.getLast? = some last)
    (granted : Bool) :
    UsbSound self (.openUSBDevice (some device) (.opened granted)) ↔
      UsbSafe self (.openUSBDevice (some device) (.opened granted)) := by
  have nonempty : device.interfaces ≠ [] := by
    intro none'
    simp [none'] at ends
  have opened := openUSBDevice_eq self ends (.opened granted)
  rw [if_pos served] at opened
  have safe : UsbSafe self (.openUSBDevice (some device) (.opened granted)) ↔
      granted = true ∧ Supplied USB_DIR_IN device.interfaces self.mUsbEndpoIn ∧
        Supplied USB_DIR_OUT device.interfaces self.mUsbEndpointOut :=
    ⟨fun safe => safe served nonempty, fun safe _ _ => safe⟩
  rw [safe, ← latest_belongs_iff orderly.inward ends, ← latest_belongs_iff orderly.outward ends]
  cases granted with
  | false =>
      apply iff_of_false _ fun safe => by cases safe.1
      rintro ⟨holds, _⟩
      have isOpen := (holds ⟨false, []⟩ (by simp only [react, opened]; rfl)).1
      cases isOpen
  | true =>
      constructor
      · rintro ⟨_, belongs⟩
        rcases belongs device _ rfl (by simp only [react, opened]; rfl) with
          ⟨connection, intf, held, taken, claimed, member, inward, outward⟩
        simp only [react, opened] at taken inward outward
        cases taken
        exact ⟨rfl, inward, outward⟩
      · rintro ⟨_, inward, outward⟩
        constructor
        · intro connection held
          simp only [react, opened] at held ⊢
          cases held
          exact ⟨rfl, last, rfl, List.mem_cons_self⟩
        · intro other outcome same _
          cases same
          have member : last ∈ device.interfaces := List.mem_of_getLast? ends
          simp only [react, opened]
          exact ⟨_, last, rfl, rfl, List.mem_cons_self, member, inward, outward⟩

/-- A step which opens no connection and keeps the fields in order is sound. -/
theorem usbSound_of_orderly {input : Input} (orderly : Orderly (react self input).1)
    (unopened : (react self input).2 ≠ some (.returned true)) : UsbSound self input := by
  refine ⟨orderly.holds, ?_⟩
  intro device outcome _ returned
  exact absurd returned unopened

theorem opened_orderly (orderly : Orderly self) (served : self.usbManager = true)
    {device : UsbDevice} {last : UsbInterface} (ends : device.interfaces.getLast? = some last)
    {granted : Bool}
    (sound : UsbSound self (.openUSBDevice (some device) (.opened granted))) :
    Orderly (react self (.openUSBDevice (some device) (.opened granted))).1 := by
  have opened := openUSBDevice_eq self ends (.opened granted)
  rw [if_pos served] at opened
  have holds := sound.holds
  simp only [react, opened] at holds ⊢
  cases granted with
  | false => exact scanned_orderly orderly _ _ holds (by simp [served])
  | true => exact scanned_orderly orderly _ _ holds (by simp [served])

theorem refused_orderly (orderly : Orderly self) (served : self.usbManager = true)
    {device : UsbDevice} {last : UsbInterface} (ends : device.interfaces.getLast? = some last) :
    Orderly (self.openUSBDevice (some device) .refused).1 := by
  rw [openUSBDevice_eq self ends, if_pos served]
  exact scanned_orderly orderly _ _ (holdsClaimed_of_none rfl) fun _ => rfl

/-- The scan has changed the fields when the service is missed, but there is no connection whose
interface could be lost. -/
theorem missed_orderly (orderly : Orderly self) (missed : self.usbManager = false)
    {device : UsbDevice} {last : UsbInterface} (ends : device.interfaces.getLast? = some last)
    (outcome : Outcome) : Orderly (self.openUSBDevice (some device) outcome).1 := by
  have released := orderly.served missed
  rw [openUSBDevice_eq self ends, missed]
  exact scanned_orderly orderly _ _ (holdsClaimed_of_none released) fun _ => released

/-- A safe step which opens no connection and keeps the fields in order. -/
theorem quiet_sound_iff {input : Input} (kept : Orderly (react self input).1)
    (unopened : (react self input).2 ≠ some (.returned true)) (safe : UsbSafe self input) :
    (UsbSound self input ↔ UsbSafe self input) ∧
      (UsbSafe self input → Orderly (react self input).1) :=
  ⟨iff_of_true (usbSound_of_orderly kept unopened) safe, fun _ => kept⟩

theorem openUSBDevice_sound_iff (orderly : Orderly self) (device : UsbDevice)
    (outcome : Outcome) :
    (UsbSound self (.openUSBDevice (some device) outcome) ↔
      UsbSafe self (.openUSBDevice (some device) outcome)) ∧
      (UsbSafe self (.openUSBDevice (some device) outcome) →
        Orderly (react self (.openUSBDevice (some device) outcome)).1) := by
  cases last : device.interfaces.getLast? with
  | none =>
      have none' := List.getLast?_eq_none_iff.1 last
      have unchanged : self.openUSBDevice (some device) outcome =
          (self, .arrayIndexOutOfBoundsException) := openUSBDevice_nil none' outcome
      apply quiet_sound_iff
      · simpa only [react, unchanged] using orderly
      · simp [react, unchanged]
      · cases outcome with
        | refused => trivial
        | opened granted => exact fun _ some' => absurd none' some'
  | some last' =>
      have opened := openUSBDevice_eq self last outcome
      by_cases served : self.usbManager = true
      · rw [if_pos served] at opened
        cases outcome with
        | refused =>
            refine quiet_sound_iff (refused_orderly orderly served last) ?_ trivial
            simp [react, opened]
        | opened granted =>
            have agree := opened_sound_iff orderly served last granted
            exact ⟨agree, fun safe => opened_orderly orderly served last (agree.2 safe)⟩
      · have missed : self.usbManager = false := by simpa using served
        rw [if_neg served] at opened
        refine quiet_sound_iff (missed_orderly orderly missed last outcome) ?_ ?_
        · simp [react, opened]
        · cases outcome with
          | refused => trivial
          | opened granted => exact fun there => absurd there served

/-- In order, a step is sound exactly if it is safe, and then the fields are in order again. -/
theorem react_sound_iff (orderly : Orderly self) (input : Input) :
    (UsbSound self input ↔ UsbSafe self input) ∧
      (UsbSafe self input → Orderly (react self input).1) := by
  cases input with
  | closeUsbDevice throws =>
      exact quiet_sound_iff (closeUsbDevice_orderly orderly throws) (by simp [react]) trivial
  | getUsbManager available =>
      exact quiet_sound_iff (getUsbManager_orderly orderly available) (by simp [react]) trivial
  | openUSBDevice device outcome =>
      cases device with
      | none =>
          refine quiet_sound_iff orderly ?_ trivial
          simp [react, UsbUtils.openUSBDevice]
      | some device => exact openUSBDevice_sound_iff orderly device outcome

/-- In every run, each step leaves a claimed interface with its own endpoints exactly when each
connection which is got is granted its interface and supplied with endpoints by it. -/
theorem usbSound_iff (inputs : List Input) :
    Machine.Every react UsbSound initial inputs ↔ Machine.Every react UsbSafe initial inputs := by
  apply Machine.every_iff_of_invariant Orderly
  · intro self input orderly
    exact (react_sound_iff orderly input).1
  · intro self input orderly safe
    exact (react_sound_iff orderly input).2 safe
  · exact ⟨holdsClaimed_of_none rfl, fun _ => rfl, directed_none _, directed_none _⟩

/-- After a sound opening, bulk transfers in both directions go through the claimed interface. -/
theorem transfers_through_claimed {device : UsbDevice} {outcome : Outcome}
    (sound : UsbSound self (.openUSBDevice (some device) outcome))
    (returned : (react self (.openUSBDevice (some device) outcome)).2 = some (.returned true))
    {bytes : List UInt8} {transfer : UsbUtils.BulkTransfer}
    (made : (react self (.openUSBDevice (some device) outcome)).1.setReportControl bytes =
        some transfer ∨
      (react self (.openUSBDevice (some device) outcome)).1.getReportControl bytes =
        some transfer) :
    transfer.connection.isOpen = true ∧
      ∃ intf ∈ device.interfaces, intf ∈ transfer.connection.claimed ∧
        ∀ endpoint, transfer.endpoint = some endpoint → endpoint ∈ intf.endpoints := by
  rcases sound.belongs device outcome rfl returned with
    ⟨connection, intf, held, _, claimed, member, inward, outward⟩
  have isOpen := (sound.holds connection held).1
  simp only [UsbUtils.setReportControl, UsbUtils.getReportControl, held, Option.map_some,
    Option.some.injEq] at made
  rcases made with rfl | rfl
  · exact ⟨isOpen, intf, member, claimed, outward⟩
  · exact ⟨isOpen, intf, member, claimed, inward⟩

/-- A device with one interface, which has one endpoint of each direction. -/
def simpleDevice : UsbDevice :=
  ⟨[⟨1, [⟨2, 0x81⟩, ⟨3, 0x02⟩]⟩]⟩

/-- The interface is not granted; the connection is closed, and kept. -/
theorem refused_claim_not_sound :
    ¬Machine.Every react UsbSound initial
      [.getUsbManager true, .openUSBDevice (some simpleDevice) (.opened false)] := by
  intro every
  have sound := every [.getUsbManager true]
    (.openUSBDevice (some simpleDevice) (.opened false)) [] rfl
  cases (sound.holds ⟨false, []⟩ rfl).1

end AndroidCollection.Usb
