import AndroidCollection.Ble.Gatt
import AndroidCollection.Ble.Reassembly
import AndroidCollection.Lib.Occurrence

/-!
# Two clients of one `BleServer`

The server hands the write requests of every device to its only protocol
object, so the frames of two clients are stored in the same buffer. The report
for a client is read off that buffer when its last frame arrives. It is the
client's message unless the other client's frame for some block has arrived
after the client's own frame for it, and brought other bytes. This is the exact
condition under which the server tells the two clients apart, together with the
limit of 127 frames that holds for every message.
-/

namespace AndroidCollection.Ble

open Java Overwrite Occurrence

structure BleServer where
  mBindBluetoothDevices : List Ref
  bleProtocol : BleProtocol

/-- The arguments of `onCharacteristicWriteRequest`. -/
structure WriteRequest where
  device : Ref
  requestId : ℕ
  preparedWrite : Bool
  responseNeeded : Bool
  offset : ℕ
  value : List UInt8

structure SendResponse where
  device : Ref
  requestId : ℕ
  status : ℕ
  offset : ℕ
  value : List UInt8

namespace BleServer

def onConnectionStateChange (server : BleServer) (device : Ref) (newState : ℕ) : BleServer :=
  if newState = STATE_CONNECTED then
    if device ∉ server.mBindBluetoothDevices then
      { server with mBindBluetoothDevices := server.mBindBluetoothDevices ++ [device] }
    else server
  else if newState = STATE_DISCONNECTED then
    { server with mBindBluetoothDevices := server.mBindBluetoothDevices.erase device }
  else server

/-- `handleClientResponse`: every device is read by the same protocol object. -/
def handleClientResponse (server : BleServer) (_device : Ref) (_requestId : ℕ)
    (value : List UInt8) : BleServer × List CallbackCall :=
  let received := receive server.bleProtocol value
  ({ server with bleProtocol := received.1 }, received.2)

def onCharacteristicWriteRequest (server : BleServer) (request : WriteRequest) :
    BleServer × SendResponse × List CallbackCall :=
  let response : SendResponse :=
    ⟨request.device, request.requestId, GATT_SUCCESS, request.offset, request.value⟩
  let handled := server.handleClientResponse request.device request.requestId request.value
  (handled.1, response, handled.2)

/-- The messages which the server reports in the course of a list of write requests. -/
def completed (server : BleServer) (requests : List WriteRequest) : List (List UInt8) :=
  (Machine.outputs onCharacteristicWriteRequest server requests).flatMap fun output =>
    completions output.2

theorem completed_eq (server : BleServer) (requests : List WriteRequest) :
    server.completed requests =
      (deliveries server.bleProtocol (requests.map WriteRequest.value)).flatten := by
  induction requests generalizing server with
  | nil => rfl
  | cons request requests ih =>
      rw [List.map_cons, deliveries_cons, List.flatten_cons]
      change completions (receive server.bleProtocol request.value).2 ++
        completed (onCharacteristicWriteRequest server request).1 requests = _
      rw [ih]
      rfl

end BleServer

/-! ## Interleaved frames -/

inductive Client where
  | first
  | second
deriving DecidableEq

def Client.other : Client → Client
  | .first => .second
  | .second => .first

@[simp]
theorem Client.other_other (client : Client) : client.other.other = client := by
  cases client <;> rfl

theorem Client.eq_or_eq_other (client someone : Client) :
    someone = client ∨ someone = client.other := by
  cases client <;> cases someone <;> simp [other]

theorem Client.other_ne (client : Client) : client.other ≠ client := by
  cases client <;> simp [other]

/-- A frame arriving at the server: whose it is, and its index. -/
abbrev Arrival := Client × ℕ

variable {message : Client → Message} {order : List Arrival}

/-- The order contains every frame of each client once and keeps each client's own order. -/
def Interleaving (message : Client → Message) (order : List Arrival) : Prop :=
  ∀ client, order.filter (fun arrival => arrival.1 = client) =
    (List.range (message client).frameCount).map fun index => (client, index)

def lastFrame (message : Client → Message) (client : Client) : Arrival :=
  (client, (message client).frameCount - 1)

def arrivingPart (message : Client → Message) (arrival : Arrival) : Part :=
  (message arrival.1, arrival.2)

/-- The requests carry the frames of the two clients in the given order. -/
def Carry (device : Client → Ref) (message : Client → Message) (order : List Arrival)
    (requests : List WriteRequest) : Prop :=
  requests.map (fun request => (request.device, request.value)) =
    order.map fun arrival => (device arrival.1, (message arrival.1).frame arrival.2)

/-- No block of the client is overwritten with other bytes before its last frame arrives: where
the two messages differ, the other client's frame for that block does not come between the client's
own frame for it and the client's last frame. -/
def Undisturbed (message : Client → Message) (order : List Arrival) (client : Client) : Prop :=
  ∀ position < (message client).bytes.length,
    position < (message client.other).bytes.length →
    (message client).bytes[position]? ≠ (message client.other).bytes[position]? →
    ¬[(client, position / 16), (client.other, position / 16), lastFrame message client].Sublist
      order

namespace Interleaving

theorem mem_iff (interleaving : Interleaving message order) (arrival : Arrival) :
    arrival ∈ order ↔ arrival.2 < (message arrival.1).frameCount := by
  have filtered : arrival ∈ order.filter (fun other => other.1 = arrival.1) ↔ arrival ∈ order := by
    simp
  rw [← filtered, interleaving arrival.1, List.mem_map]
  constructor
  · rintro ⟨index, indexMem, same⟩
    rw [← same]
    exact List.mem_range.mp indexMem
  · intro inside
    exact ⟨arrival.2, List.mem_range.mpr inside, rfl⟩

theorem nodup (interleaving : Interleaving message order) : order.Nodup := by
  rw [List.nodup_iff_count_le_one]
  intro arrival
  have own : List.count arrival order =
      List.count arrival (order.filter (fun other => other.1 = arrival.1)) := by
    rw [List.count_filter]
    simp
  rw [own, interleaving arrival.1]
  apply List.nodup_iff_count_le_one.mp
  exact List.Nodup.map (fun left right same => (Prod.mk.inj same).2) List.nodup_range

/-- A client's frames arrive in the order of their indices. -/
theorem ordered (interleaving : Interleaving message order) (client : Client) :
    order.Pairwise fun earlier later =>
      earlier.1 = client → later.1 = client → earlier.2 < later.2 := by
  have own : (order.filter (fun arrival => arrival.1 = client)).Pairwise
      fun earlier later => earlier.2 < later.2 := by
    rw [interleaving client, List.pairwise_map]
    exact List.pairwise_lt_range
  simpa using List.pairwise_filter.mp own

theorem lastFrame_mem (interleaving : Interleaving message order) (client : Client) :
    lastFrame message client ∈ order := by
  rw [interleaving.mem_iff]
  have := (message client).frameCount_pos
  simp only [lastFrame]
  omega

/-- After the last frame of a client no frame of it arrives. -/
theorem client_ne_of_mem_after (interleaving : Interleaving message order) {client : Client}
    {before after : List Arrival} (split : order = before ++ lastFrame message client :: after)
    {arrival : Arrival} (later : arrival ∈ after) : arrival.1 ≠ client := by
  intro same
  have pairs := interleaving.ordered client
  have bound : arrival.2 < (message arrival.1).frameCount := by
    rw [← interleaving.mem_iff, split]
    exact List.mem_append_right _ (List.mem_cons_of_mem _ later)
  rw [split] at pairs
  have increase := (List.pairwise_cons.mp (List.pairwise_append.mp pairs).2.1).1 arrival later
    rfl same
  simp only [lastFrame] at increase
  rw [same] at bound
  omega

end Interleaving

/-! ## The report for one client -/

section Report

variable (protocol : BleProtocol)

theorem map_arrivingPart_valid (interleaving : Interleaving message order) {arrivals : List Arrival}
    (part_of : ∀ arrival ∈ arrivals, arrival ∈ order) :
    ∀ part ∈ arrivals.map (arrivingPart message), part.Valid := by
  intro part partMem
  rcases List.mem_map.mp partMem with ⟨arrival, arrivalMem, rfl⟩
  exact (interleaving.mem_iff arrival).mp (part_of arrival arrivalMem)

/-- Between a client's own frame for a block and its last frame, the other client's frame for
that block has arrived exactly if the three occur in this order. -/
theorem other_mem_iff_sublist (interleaving : Interleaving message order) {client : Client}
    {before after earlier later : List Arrival} {block : ℕ}
    (split : order = before ++ lastFrame message client :: after)
    (ownSplit : before ++ [lastFrame message client] = earlier ++ (client, block) :: later) :
    (client.other, block) ∈ later ↔
      [(client, block), (client.other, block), lastFrame message client].Sublist order := by
  have nodup := interleaving.nodup
  have otherNe : ((client.other, block) : Arrival) ≠ lastFrame message client := fun same =>
    client.other_ne (congrArg Prod.fst same)
  constructor
  · intro otherMem
    rcases List.eq_nil_or_concat later with rfl | ⟨between, final, rfl⟩
    · simp at otherMem
    · rw [List.concat_eq_append] at ownSplit otherMem
      have final_eq : [lastFrame message client] = [final] := by
        rw [← List.cons_append, ← List.append_assoc] at ownSplit
        exact (List.append_inj' ownSplit rfl).2
      rcases List.cons.inj final_eq with ⟨rfl, _⟩
      have inBetween : (client.other, block) ∈ between := by
        rcases List.mem_append.mp otherMem with here | last
        · exact here
        · exact absurd (List.mem_singleton.mp last) otherNe
      rw [split, List.append_cons, ownSplit]
      have pair : [(client.other, block), lastFrame message client].Sublist
          (between ++ [lastFrame message client]) :=
        (List.singleton_sublist.mpr inBetween).append (List.Sublist.refl _)
      exact ((pair.cons_cons _).trans (List.sublist_append_right _ _)).trans
        (List.sublist_append_left _ _)
  · intro occurs
    have lastNotAfter : lastFrame message client ∉ after := by
      rw [split] at nodup
      exact (List.nodup_cons.mp (List.nodup_append.mp nodup).2.1).1
    have ownNotEarlier : ((client, block) : Arrival) ∉ earlier := by
      rw [split, List.append_cons, ownSplit, List.append_assoc] at nodup
      intro ownMem
      exact (List.nodup_append.mp nodup).2.2 _ ownMem _ List.mem_cons_self rfl
    rw [split] at occurs
    have pair : [(client, block), (client.other, block)].Sublist before :=
      sublist_of_concat_sublist lastNotAfter occurs
    have pairSplit := pair.trans (List.sublist_append_left before [lastFrame message client])
    rw [ownSplit] at pairSplit
    exact mem_of_pair_sublist ownNotEarlier pairSplit

/-- The frame of a client for a block has arrived by its last frame, and does not arrive again. -/
theorem exists_ownFrame (interleaving : Interleaving message order) {client : Client}
    {before after : List Arrival} (split : order = before ++ lastFrame message client :: after)
    {index : ℕ} (inside : index < (message client).frameCount) :
    ∃ earlier later, before ++ [lastFrame message client] = earlier ++ (client, index) :: later ∧
      ((client, index) : Arrival) ∉ later := by
  have ownMem : ((client, index) : Arrival) ∈ before ++ [lastFrame message client] := by
    have mem := (interleaving.mem_iff (client, index)).mpr inside
    rw [split, List.append_cons] at mem
    rcases List.mem_append.mp mem with here | later
    · exact here
    · exact absurd rfl (interleaving.client_ne_of_mem_after split later)
  rcases List.append_of_mem ownMem with ⟨earlier, later, ownSplit⟩
  refine ⟨earlier, later, ownSplit, ?_⟩
  intro ownAgain
  have nodup := interleaving.nodup
  rw [split, List.append_cons, ownSplit, List.append_assoc, List.cons_append] at nodup
  exact (List.nodup_cons.mp (List.nodup_append.mp nodup).2.1).1 (List.mem_append_left _ ownAgain)

/-- After the client's own frame only the other client's frame for the block covers the position. -/
theorem covering_later {client : Client} {later : List Arrival} {position : ℕ}
    (notAgain : ((client, position / 16) : Arrival) ∉ later) {arrival : Arrival}
    (arrivalMem : arrival ∈ later) :
    covering (arrivingPart message arrival).stored position =
      if arrival = (client.other, position / 16) then (message client.other).bytes[position]?
      else none := by
  rcases arrival with ⟨sender, index⟩
  rw [Part.covering_stored, arrivingPart]
  rcases client.eq_or_eq_other sender with rfl | rfl
  · rw [if_neg, if_neg]
    · exact fun same => sender.other_ne (congrArg Prod.fst same).symm
    · rintro rfl
      exact notAgain arrivalMem
  · by_cases here : position / 16 = index
    · rw [if_pos here, if_pos (by rw [here])]
    · rw [if_neg here, if_neg]
      exact fun same => here (congrArg Prod.snd same).symm

/-- The last store covering a position of a client's message, when the client's last frame has
arrived, is the other client's if its frame for the block came after the client's own. -/
theorem lastWrite_at_lastFrame (interleaving : Interleaving message order) {client : Client}
    {before after : List Arrival} (split : order = before ++ lastFrame message client :: after)
    {position : ℕ} (inside : position < (message client).bytes.length) :
    lastWrite (((before ++ [lastFrame message client]).map (arrivingPart message)).map Part.stored)
        position =
      if position < (message client.other).bytes.length ∧
          [(client, position / 16), (client.other, position / 16),
            lastFrame message client].Sublist order then
        (message client.other).bytes[position]?
      else (message client).bytes[position]? := by
  have blockInside : position / 16 < (message client).frameCount := by
    simp only [Message.frameCount, DATA_CAPACITY]
    omega
  rcases exists_ownFrame interleaving split blockInside with
    ⟨earlier, later, ownSplit, notAgain⟩
  have occurs := other_mem_iff_sublist interleaving split ownSplit
  have own : covering (arrivingPart message (client, position / 16)).stored position =
      (message client).bytes[position]? := by
    rw [Part.covering_stored, arrivingPart, if_pos rfl]
  have others : lastWrite ((later.map (arrivingPart message)).map Part.stored) position =
      if (client.other, position / 16) ∈ later then (message client.other).bytes[position]?
      else none := by
    rw [List.map_map]
    apply lastWrite_map
    intro arrival arrivalMem
    exact covering_later notAgain arrivalMem
  rw [ownSplit, List.map_append, List.map_append, List.map_cons, List.map_cons, lastWrite_append,
    lastWrite, own, others]
  by_cases disturbed : (client.other, position / 16) ∈ later
  · have sent := occurs.mp disturbed
    by_cases within : position < (message client.other).bytes.length
    · simp [disturbed, sent, within]
    · simp [disturbed, within, inside]
  · have unsent := mt occurs.mpr disturbed
    simp [disturbed, unsent, inside]

/-- The report for a client whose last frame arrives after the frames `before`. -/
def reportAfter (protocol : BleProtocol) (message : Client → Message) (client : Client)
    (before : List Arrival) : List UInt8 :=
  (Machine.after receive protocol
    (((before ++ [lastFrame message client]).map (arrivingPart message)).map
      Part.frame)).readBuffer.take (message client).bytes.length

theorem getElem?_reportAfter (interleaving : Interleaving message order)
    (short : ∀ client, (message client).frameCount ≤ 127) {client : Client}
    {before after : List Arrival} (split : order = before ++ lastFrame message client :: after)
    {position : ℕ} (inside : position < (message client).bytes.length) :
    (reportAfter protocol message client before)[position]? =
      if position < (message client.other).bytes.length ∧
          [(client, position / 16), (client.other, position / 16),
            lastFrame message client].Sublist order then
        (message client.other).bytes[position]?
      else (message client).bytes[position]? := by
  have arrived : ∀ arrival ∈ before ++ [lastFrame message client], arrival ∈ order := by
    intro arrival arrivalMem
    rw [split, List.append_cons]
    exact List.mem_append_left _ arrivalMem
  have valid := map_arrivingPart_valid interleaving arrived
  have small : ∀ part ∈ (before ++ [lastFrame message client]).map (arrivingPart message),
      part.Small := by
    intro part partMem
    have partValid := valid part partMem
    rcases List.mem_map.mp partMem with ⟨arrival, _, rfl⟩
    exact Part.small_of_valid partValid (short arrival.1)
  rw [reportAfter, List.getElem?_take_of_lt inside, getElem?_after_parts valid small,
    lastWrite_at_lastFrame interleaving split inside]
  split
  · rename_i disturbed
    rw [List.getElem?_eq_getElem disturbed.1]
    rfl
  · rw [List.getElem?_eq_getElem inside]
    rfl

theorem length_reportAfter (client : Client) (before : List Arrival) :
    (reportAfter protocol message client before).length = (message client).bytes.length := by
  rw [reportAfter, List.length_take, BleProtocol.length_readBuffer]
  exact Nat.min_eq_left (message client).bounded

/-- The report for a client is its message exactly if the other client has not disturbed it. -/
theorem reportAfter_eq_iff (interleaving : Interleaving message order)
    (short : ∀ client, (message client).frameCount ≤ 127) {client : Client}
    {before after : List Arrival} (split : order = before ++ lastFrame message client :: after) :
    reportAfter protocol message client before = (message client).bytes ↔
      Undisturbed message order client := by
  constructor
  · intro same position inside otherInside differ occurs
    have entry := getElem?_reportAfter protocol interleaving short split inside
    rw [if_pos ⟨otherInside, occurs⟩, same] at entry
    exact differ entry
  · intro undisturbed
    apply List.ext_getElem?
    intro position
    by_cases inside : position < (message client).bytes.length
    · rw [getElem?_reportAfter protocol interleaving short split inside]
      split
      · rename_i disturbed
        by_contra differ
        exact undisturbed position inside disturbed.1 (fun same => differ same.symm) disturbed.2
      · rfl
    · rw [List.getElem?_eq_none (by rw [length_reportAfter]; omega),
        List.getElem?_eq_none (by omega)]

/-- The reports are not each other's messages unless the messages are equal. -/
theorem message_eq_of_reports_swapped (interleaving : Interleaving message order)
    (short : ∀ client, (message client).frameCount ≤ 127) {client : Client}
    {before after before' after' : List Arrival}
    (split : order = before ++ lastFrame message client :: after)
    (split' : order = before' ++ lastFrame message client.other :: after')
    (swapped : reportAfter protocol message client before = (message client.other).bytes)
    (swapped' : reportAfter protocol message client.other before' = (message client).bytes) :
    (message client).bytes = (message client.other).bytes := by
  have sameLength : (message client).bytes.length = (message client.other).bytes.length := by
    rw [← swapped, length_reportAfter]
  apply List.ext_getElem?
  intro position
  by_cases inside : position < (message client).bytes.length
  · by_contra differ
    have entry := getElem?_reportAfter protocol interleaving short split inside
    have entry' := getElem?_reportAfter protocol interleaving short split'
      (sameLength ▸ inside)
    rw [swapped] at entry
    rw [swapped'] at entry'
    split at entry
    · rename_i disturbed
      split at entry'
      · rename_i disturbed'
        have forward : [(client, position / 16), (client.other, position / 16)].Sublist order :=
          (List.sublist_append_left _ [lastFrame message client]).trans disturbed.2
        have backward : [(client.other, position / 16),
            (client.other.other, position / 16)].Sublist order :=
          (List.sublist_append_left _ [lastFrame message client.other]).trans disturbed'.2
        rw [Client.other_other] at backward
        exact not_pair_sublist_of_pair_sublist interleaving.nodup forward backward
      · exact differ entry'
    · exact differ entry.symm
  · rw [List.getElem?_eq_none (by omega), List.getElem?_eq_none (by omega)]

end Report

/-! ## The whole run -/

/-- A run over valid parts reports once for every part which completes its message. -/
theorem length_flatten_deliveries {protocol : BleProtocol}
    (listening : protocol.mBleCallback.isSome) {parts : List Part}
    (valid : ∀ part ∈ parts, part.Valid) :
    (deliveries protocol (parts.map Part.frame)).flatten.length =
      parts.countP fun part => part.Completes := by
  induction parts generalizing protocol with
  | nil => rfl
  | cons part parts ih =>
      rw [List.map_cons, deliveries_cons, List.flatten_cons, List.length_append,
        ih (by rwa [receive_mBleCallback])
          (fun other otherMem => valid other (List.mem_cons_of_mem _ otherMem)),
        completions_receive_part listening (valid part List.mem_cons_self), List.countP_cons]
      by_cases completes : part.Completes
      · simp [completes]
        omega
      · simp [completes]

theorem eq_lastFrame_of_completes {arrival : Arrival}
    (completes : (arrivingPart message arrival).Completes) :
    arrival = lastFrame message arrival.1 := by
  have last : arrival.2 + 1 = (message arrival.1).frameCount := completes.1
  rw [lastFrame, ← last]
  rfl

theorem exists_finishing_order (interleaving : Interleaving message order) :
    ∃ client before between after,
      order = before ++ lastFrame message client ::
        (between ++ lastFrame message client.other :: after) := by
  rcases List.append_of_mem (interleaving.lastFrame_mem .first) with ⟨before, after, split⟩
  have secondMem := interleaving.lastFrame_mem .second
  rw [split] at secondMem
  rcases List.mem_append.mp secondMem with earlier | later
  · rcases List.append_of_mem earlier with ⟨start, between, rfl⟩
    exact ⟨.second, start, between, after, by rw [split]; simp [Client.other]⟩
  · rcases List.mem_cons.mp later with same | later
    · exact absurd (congrArg Prod.fst same) (by simp [lastFrame])
    · rcases List.append_of_mem later with ⟨between, rest, rfl⟩
      exact ⟨.first, before, between, rest, split⟩

def arrivingFrames (message : Client → Message) (arrivals : List Arrival) : List (List UInt8) :=
  (arrivals.map (arrivingPart message)).map Part.frame

theorem arrivingFrames_append (first second : List Arrival) :
    arrivingFrames message (first ++ second) =
      arrivingFrames message first ++ arrivingFrames message second := by
  simp [arrivingFrames]

section Run

variable {protocol : BleProtocol}

theorem flatten_deliveries_of_incomplete (listening : protocol.mBleCallback.isSome)
    (interleaving : Interleaving message order) {arrivals : List Arrival}
    (arrived : ∀ arrival ∈ arrivals, arrival ∈ order)
    (incomplete : ∀ arrival ∈ arrivals, ¬(arrivingPart message arrival).Completes) :
    (deliveries protocol (arrivingFrames message arrivals)).flatten = [] := by
  rw [arrivingFrames, deliveries_incomplete listening
    (map_arrivingPart_valid interleaving arrived)]
  · exact List.flatten_replicate_nil
  · intro part partMem
    rcases List.mem_map.mp partMem with ⟨arrival, arrivalMem, rfl⟩
    exact incomplete arrival arrivalMem

/-- A stretch of the run up to the last frame of a client reports that client's message once. -/
theorem flatten_deliveries_concat (listening : protocol.mBleCallback.isSome)
    (interleaving : Interleaving message order) {client : Client}
    (short : (message client).frameCount ≤ 127) (earlier : List Arrival)
    {arrivals : List Arrival} (arrived : ∀ arrival ∈ arrivals, arrival ∈ order)
    (incomplete : ∀ arrival ∈ arrivals, ¬(arrivingPart message arrival).Completes) :
    (deliveries (Machine.after receive protocol (arrivingFrames message earlier))
        (arrivingFrames message (arrivals ++ [lastFrame message client]))).flatten =
      [reportAfter protocol message client (earlier ++ arrivals)] := by
  have stillListening : (Machine.after receive protocol
      (arrivingFrames message earlier)).mBleCallback.isSome := by
    rwa [after_mBleCallback]
  have quiet := flatten_deliveries_of_incomplete stillListening interleaving arrived incomplete
  have valid : (arrivingPart message (lastFrame message client)).Valid :=
    (interleaving.mem_iff _).mp (interleaving.lastFrame_mem client)
  have completes : (arrivingPart message (lastFrame message client)).Completes := by
    refine ⟨?_, short⟩
    have := (message client).frameCount_pos
    simp only [arrivingPart, lastFrame]
    omega
  have report : completions (receive
      (Machine.after receive protocol (arrivingFrames message (earlier ++ arrivals)))
      (arrivingPart message (lastFrame message client)).frame).2 =
        [reportAfter protocol message client (earlier ++ arrivals)] := by
    have joined : (earlier ++ arrivals).map (arrivingPart message) ++
        [arrivingPart message (lastFrame message client)] =
          (earlier ++ arrivals ++ [lastFrame message client]).map (arrivingPart message) := by
      rw [List.map_append, List.map_append, List.map_append]
      rfl
    rw [arrivingFrames, completions_after_parts listening valid, if_pos completes, joined]
    rfl
  rw [arrivingFrames_append, deliveries_append, List.flatten_append, quiet,
    ← Machine.after_append, ← arrivingFrames_append, List.nil_append]
  exact (List.append_nil _).trans report

/-- Only the last frames of the two clients complete a message. -/
theorem not_completes_of_split (interleaving : Interleaving message order) {client : Client}
    {before between after : List Arrival}
    (split : order = before ++ lastFrame message client ::
      (between ++ lastFrame message client.other :: after)) {arrival : Arrival}
    (arrivalMem : arrival ∈ before ∨ arrival ∈ between ∨ arrival ∈ after) :
    ¬(arrivingPart message arrival).Completes := by
  intro completes
  have last := eq_lastFrame_of_completes completes
  have nodup := interleaving.nodup
  rw [split, List.nodup_middle] at nodup
  rcases client.eq_or_eq_other arrival.1 with own | others
  · rw [own] at last
    apply (List.nodup_cons.mp nodup).1
    rw [← last]
    simp only [List.mem_append, List.mem_cons]
    tauto
  · rw [others] at last
    have nodup' := (List.nodup_cons.mp nodup).2
    rw [← List.append_assoc, List.nodup_middle] at nodup'
    apply (List.nodup_cons.mp nodup').1
    rw [← last]
    simp only [List.mem_append]
    tauto

/-- A run over two short messages reports once for each client, when its last frame arrives. -/
theorem flatten_deliveries_of_short (listening : protocol.mBleCallback.isSome)
    (interleaving : Interleaving message order)
    (short : ∀ client, (message client).frameCount ≤ 127) {client : Client}
    {before between after : List Arrival}
    (split : order = before ++ lastFrame message client ::
      (between ++ lastFrame message client.other :: after)) :
    (deliveries protocol (arrivingFrames message order)).flatten =
      [reportAfter protocol message client before,
        reportAfter protocol message client.other
          (before ++ [lastFrame message client] ++ between)] := by
  have regroup : order = (before ++ [lastFrame message client]) ++
      ((between ++ [lastFrame message client.other]) ++ after) := by
    simp [split]
  have incomplete : ∀ arrival, arrival ∈ before ∨ arrival ∈ between ∨ arrival ∈ after →
      ¬(arrivingPart message arrival).Completes :=
    fun _ arrivalMem => not_completes_of_split interleaving split arrivalMem
  have arrived : ∀ arrival, arrival ∈ before ∨ arrival ∈ between ∨ arrival ∈ after →
      arrival ∈ order := by
    intro arrival arrivalMem
    rw [split]
    simp only [List.mem_append, List.mem_cons]
    tauto
  have first : (deliveries protocol
      (arrivingFrames message (before ++ [lastFrame message client]))).flatten =
        [reportAfter protocol message client before] :=
    flatten_deliveries_concat listening interleaving (short client) []
      (fun arrival arrivalMem => arrived arrival (Or.inl arrivalMem))
      (fun arrival arrivalMem => incomplete arrival (Or.inl arrivalMem))
  have second := flatten_deliveries_concat listening interleaving (short client.other)
    (before ++ [lastFrame message client])
    (fun arrival arrivalMem => arrived arrival (Or.inr (Or.inl arrivalMem)))
    (fun arrival arrivalMem => incomplete arrival (Or.inr (Or.inl arrivalMem)))
  have third (state : BleProtocol) (stateListening : state.mBleCallback.isSome) :
      (deliveries state (arrivingFrames message after)).flatten = [] :=
    flatten_deliveries_of_incomplete stateListening interleaving
      (fun arrival arrivalMem => arrived arrival (Or.inr (Or.inr arrivalMem)))
      (fun arrival arrivalMem => incomplete arrival (Or.inr (Or.inr arrivalMem)))
  rw [regroup, arrivingFrames_append, deliveries_append, List.flatten_append, first,
    arrivingFrames_append (between ++ _), deliveries_append, List.flatten_append, second,
    third _ (by rwa [after_mBleCallback, after_mBleCallback])]
  rfl

end Run

theorem Carry.map_value {device : Client → Ref} {requests : List WriteRequest}
    (carry : Carry device message order requests) :
    requests.map WriteRequest.value = arrivingFrames message order := by
  have values := congrArg (List.map Prod.snd) carry
  rw [List.map_map, List.map_map] at values
  rw [arrivingFrames, List.map_map]
  exact values

/-- With a long message among the two, at most one report is made. -/
theorem length_flatten_deliveries_le_one {protocol : BleProtocol}
    (listening : protocol.mBleCallback.isSome) (interleaving : Interleaving message order)
    {client : Client} (long : ¬(message client).frameCount ≤ 127) :
    (deliveries protocol (arrivingFrames message order)).flatten.length ≤ 1 := by
  have onlyOther : ∀ arrival, (arrivingPart message arrival).Completes →
      arrival = lastFrame message client.other := by
    intro arrival completes
    rcases client.eq_or_eq_other arrival.1 with own | others
    · exact absurd (own ▸ completes.2) long
    · rw [← others]
      exact eq_lastFrame_of_completes completes
  have once := List.nodup_iff_count_le_one.mp interleaving.nodup (lastFrame message client.other)
  rw [arrivingFrames, length_flatten_deliveries listening
    (map_arrivingPart_valid interleaving fun _ arrivalMem => arrivalMem), List.countP_map]
  refine le_trans (List.countP_mono_left fun arrival _ completes => ?_) once
  simpa using onlyOther arrival (by simpa using completes)

theorem flatten_deliveries_perm_iff {protocol : BleProtocol}
    (listening : protocol.mBleCallback.isSome) (interleaving : Interleaving message order) :
    (deliveries protocol (arrivingFrames message order)).flatten.Perm
        [(message .first).bytes, (message .second).bytes] ↔
      (∀ client, (message client).frameCount ≤ 127) ∧
        ∀ client, Undisturbed message order client := by
  by_cases short : ∀ client, (message client).frameCount ≤ 127
  · rcases exists_finishing_order interleaving with ⟨client, before, between, after, split⟩
    have split' : order = (before ++ [lastFrame message client] ++ between) ++
        lastFrame message client.other :: after := by
      simp [split]
    have own := reportAfter_eq_iff protocol interleaving short split
    have others := reportAfter_eq_iff protocol interleaving short split'
    have pair : ([(message .first).bytes, (message .second).bytes] : List (List UInt8)).Perm
        [(message client).bytes, (message client.other).bytes] := by
      cases client
      · exact List.Perm.refl _
      · exact List.Perm.swap _ _ _
    have everyone : (∀ someone, Undisturbed message order someone) ↔
        Undisturbed message order client ∧ Undisturbed message order client.other := by
      constructor
      · intro all
        exact ⟨all client, all client.other⟩
      · rintro ⟨here, there⟩ someone
        rcases client.eq_or_eq_other someone with rfl | rfl
        · exact here
        · exact there
    rw [flatten_deliveries_of_short listening interleaving short split, pair.congr_right,
      pair_perm_pair_iff, everyone, own, others]
    constructor
    · rintro (undisturbed | swapped)
      · exact ⟨short, undisturbed⟩
      · have same := message_eq_of_reports_swapped protocol interleaving short split split'
          swapped.1 swapped.2
        rw [← own, ← others]
        exact ⟨short, swapped.1.trans same.symm, swapped.2.trans same⟩
    · rintro ⟨_, undisturbed⟩
      exact Or.inl undisturbed
  · rcases not_forall.mp short with ⟨client, long⟩
    have fewer := length_flatten_deliveries_le_one listening interleaving long
    constructor
    · intro both
      have two := both.length_eq
      simp only [List.length_cons, List.length_nil] at two
      omega
    · rintro ⟨allShort, _⟩
      exact absurd allShort short

/-- The server reports exactly the two messages of two clients if and only if both have at most
127 frames and neither client's blocks are disturbed by the other. -/
theorem completed_perm_iff (server : BleServer)
    (listening : server.bleProtocol.mBleCallback.isSome) (device : Client → Ref)
    (message : Client → Message) (order : List Arrival)
    (interleaving : Interleaving message order) (requests : List WriteRequest)
    (carry : Carry device message order requests) :
    (server.completed requests).Perm [(message .first).bytes, (message .second).bytes] ↔
      (∀ client, (message client).frameCount ≤ 127) ∧
        ∀ client, Undisturbed message order client := by
  rw [server.completed_eq, carry.map_value]
  exact flatten_deliveries_perm_iff listening interleaving

def boundServer : BleServer where
  mBindBluetoothDevices := [1, 2]
  bleProtocol := BleProtocol.new.setBleCallback (some 0)

def boundDevice : Client → Ref
  | .first => 1
  | .second => 2

/-- A message of seventeen bytes: a full block and one byte more. -/
def blockAndByte (block byte : UInt8) : Message where
  bytes := List.replicate 16 block ++ [byte]
  nonempty := by simp
  bounded := by simp [MAX_SIZE]

theorem frameCount_blockAndByte (block byte : UInt8) :
    (blockAndByte block byte).frameCount = 2 := by
  simp [Message.frameCount, blockAndByte, DATA_CAPACITY]

def inTurn : List Arrival :=
  [(.first, 0), (.second, 0), (.first, 1), (.second, 1)]

def requestsFor (message : Client → Message) (order : List Arrival) : List WriteRequest :=
  order.map fun arrival =>
    ⟨boundDevice arrival.1, 0, false, true, 0, (message arrival.1).frame arrival.2⟩

theorem carry_requestsFor (message : Client → Message) (order : List Arrival) :
    Carry boundDevice message order (requestsFor message order) := by
  rw [Carry, requestsFor, List.map_map]
  rfl

def lastByte : Client → UInt8
  | .first => 1
  | .second => 2

theorem interleaving_inTurn (block : Client → UInt8) :
    Interleaving (fun client => blockAndByte (block client) (lastByte client)) inTurn := by
  intro client
  dsimp only
  rw [frameCount_blockAndByte]
  cases client <;> decide

/-- Two messages which begin with the same block get through in turn. -/
theorem completed_perm_iff_inTurn :
    (boundServer.completed
        (requestsFor (fun client => blockAndByte 0 (lastByte client)) inTurn)).Perm
      [(blockAndByte 0 1).bytes, (blockAndByte 0 2).bytes] :=
  (completed_perm_iff boundServer rfl boundDevice
    (fun client => blockAndByte 0 (lastByte client)) inTurn (interleaving_inTurn fun _ => 0)
    (requestsFor _ inTurn) (carry_requestsFor _ inTurn)).mpr
    ⟨by intro client; cases client <;> decide, by
      intro client
      cases client <;> (unfold Undisturbed; decide)⟩

/-- Of two messages in turn the first is reported with the other one's first block. -/
theorem inTurn_mixed :
    ¬(boundServer.completed
        (requestsFor (fun client => blockAndByte (lastByte client) (lastByte client)) inTurn)).Perm
      [(blockAndByte 1 1).bytes, (blockAndByte 2 2).bytes] := by
  intro both
  rw [boundServer.completed_eq, (carry_requestsFor _ inTurn).map_value] at both
  have undisturbed := ((flatten_deliveries_perm_iff
    (show boundServer.bleProtocol.mBleCallback.isSome from rfl)
    (interleaving_inTurn lastByte)).mp both).2 .first
  exact undisturbed 0 (by decide) (by decide) (by decide) (by decide)

end AndroidCollection.Ble
