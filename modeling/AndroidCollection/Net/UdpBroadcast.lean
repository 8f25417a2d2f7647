import AndroidCollection.Java.Utf8
import AndroidCollection.Lib.Machine
import AndroidCollection.Lib.Overwrite

/-!
# Broadcast texts

`sendUdp` encodes a content in UTF-8, and sends as many of the bytes as the content
has code units. `receive` puts each datagram at the beginning of one buffer, reads as
many bytes as have come in, and reports the text unless it is empty. The room for the
next datagram is that of the buffer, whatever has come in before.

Every character beyond ASCII has more bytes than code units, so a content with one of
them loses bytes at its end, or the whole end of that character. A single replacement
character at the end survives, since it is also what is read for its first byte.
-/

namespace AndroidCollection.Net

open Java

/-! ## Sending -/

/-- The packet of `content.length()` bytes, which cannot be built when there are fewer. -/
def outputPacket (content : JString) : Option (List UInt8) :=
  let bytes := utf8Bytes content
  if content.length ≤ bytes.length then some (bytes.take content.length) else none

/-- The datagrams which are sent. -/
def sendUdp (content : JString) (times : Int32) : List (List UInt8) :=
  match outputPacket content with
  | some payload => List.replicate times.toInt.toNat payload
  | none => []

/-! ## Receiving -/

/-- The packet of `receive`: its buffer, and the length of what has come in. -/
structure Packet where
  data : List UInt8
  length : ℕ

def Packet.create (length : ℕ) : Packet where
  data := List.replicate length 0
  length := length

/-- `DatagramSocket.receive`; what the buffer cannot hold is lost. -/
def Packet.fill (packet : Packet) (datagram : List UInt8) : Packet where
  data := Overwrite.overwrite packet.data 0 (datagram.take packet.data.length)
  length := min datagram.length packet.data.length

def Packet.text (packet : Packet) : JString :=
  utf8Decode (packet.data.take packet.length)

/-- One round of the loop, with what the listener is told. -/
def receiveRound (packet : Packet) (datagram : List UInt8) : Packet × Option JString :=
  let filled := packet.fill datagram
  (filled, if filled.text = [] then none else some filled.text)

/-- What `receive` tells its listener, datagram by datagram. -/
def receive (length : ℕ) (datagrams : List (List UInt8)) : List (Option JString) :=
  Machine.outputs receiveRound (Packet.create length) datagrams

/-! ## The property and its condition -/

/-- A datagram of `sendUdp` comes in where the buffer can take the encoding of its content. -/
structure Arrival (length : ℕ) where
  content : JString
  times : Int32
  datagram : List UInt8
  sent : datagram ∈ sendUdp content times
  nonempty : content ≠ []
  fits : (utf8Bytes content).length ≤ length

/-- All characters are ASCII, but for a replacement character at the end. -/
def Deliverable : JString → Prop
  | [] => True
  | [last] => last.toNat < 0x80 ∨ last = replacementUnit
  | unit :: next :: rest => unit.toNat < 0x80 ∧ Deliverable (next :: rest)

/-! ## What is sent of a content -/

theorem length_le_length_utf8Bytes (content : JString) :
    content.length ≤ (utf8Bytes content).length := by
  rw [← length_replaceLone, ← utf8Decode_utf8Bytes]
  exact length_utf8Decode_le _

theorem outputPacket_eq (content : JString) :
    outputPacket content = some ((utf8Bytes content).take content.length) :=
  if_pos (length_le_length_utf8Bytes content)

theorem eq_of_mem_sendUdp {content : JString} {times : Int32} {datagram : List UInt8}
    (sent : datagram ∈ sendUdp content times) :
    datagram = (utf8Bytes content).take content.length := by
  rw [sendUdp, outputPacket_eq] at sent
  exact List.eq_of_mem_replicate sent

theorem length_codeUnits_lt {point : ℕ} (large : 0x80 ≤ point) :
    (codeUnits point).length < (utf8CodePoint point).length := by
  simp only [codeUnits, utf8CodePoint]
  split_ifs <;> simp <;> omega

theorem codeUnits_ne_nil (point : ℕ) : codeUnits point ≠ [] := by
  simp only [codeUnits]
  split <;> simp

/-- A cut character is replaced, and a whole one has fewer code units than bytes. -/
theorem utf8Decode_take_beyond {point count : ℕ} (scalar : point < 0xD800 ∨ 0xE000 ≤ point)
    (unicode : point < 0x110000) (large : 0x80 ≤ point) (given : 0 < count) (bytes : List UInt8) :
    utf8Decode ((utf8CodePoint point ++ bytes).take count) = [replacementUnit] ∨
      1 < count ∧ (utf8Decode ((utf8CodePoint point ++ bytes).take count)).length < count := by
  have shorter := length_codeUnits_lt large
  have some := List.length_pos_of_ne_nil (codeUnits_ne_nil point)
  rcases Nat.lt_or_ge count (utf8CodePoint point).length with short | whole
  · left
    rw [List.take_append_of_le_length short.le,
      utf8Decode_take_codePoint scalar unicode given short]
  · right
    have rest := length_utf8Decode_le (bytes.take (count - (utf8CodePoint point).length))
    rw [List.take_append, List.take_of_length_le whole, utf8Decode,
      utf8DecodeFrom_codePoint scalar unicode, List.length_append]
    rw [utf8Decode, List.length_take] at rest
    omega

theorem utf8Decode_sent_of_ascii {unit : UInt16} (single : unit.toNat < 0x80) (rest : JString) :
    utf8Decode ((utf8Bytes (unit :: rest)).take (unit :: rest).length) =
      unit :: utf8Decode ((utf8Bytes rest).take rest.length) := by
  have scalar : Scalar unit := by
    simp [Scalar, isHighSurrogate, isLowSurrogate]
    omega
  have byte := toNat_ofNat_byte unit.toNat (by omega)
  have below : (UInt8.ofNat unit.toNat).toNat < 0x80 := by omega
  have first := utf8Decode_append_cons below [] ((utf8Bytes rest).take rest.length)
  rw [byte, UInt16.ofNat_toNat] at first
  rw [utf8Bytes_cons scalar, utf8CodePoint, if_pos single, List.singleton_append,
    List.length_cons, List.take_succ_cons]
  exact first

/-- The content begins with a character beyond ASCII. -/
theorem utf8Decode_sent_of_beyond {content : JString} (nonempty : content ≠ []) {point : ℕ}
    (scalar : point < 0xD800 ∨ 0xE000 ≤ point) (unicode : point < 0x110000)
    (large : 0x80 ≤ point) {bytes : List UInt8}
    (encoded : utf8Bytes content = utf8CodePoint point ++ bytes) :
    utf8Decode ((utf8Bytes content).take content.length) = content ↔
      content = [replacementUnit] := by
  have given := List.length_pos_of_ne_nil nonempty
  rw [encoded]
  rcases utf8Decode_take_beyond scalar unicode large given bytes with replaced | ⟨several, lost⟩
  · rw [replaced, eq_comm]
  · constructor
    · intro same
      rw [same] at lost
      omega
    · intro single
      rw [single] at several
      simp at several

/-- The content begins with a surrogate which stands alone. -/
theorem utf8Decode_sent_of_lone {unit : UInt16} {rest : JString} {bytes : List UInt8}
    (lone : (isHighSurrogate unit || isLowSurrogate unit) = true)
    (encoded : utf8Bytes (unit :: rest) = replacementByte :: bytes) :
    utf8Decode ((utf8Bytes (unit :: rest)).take (unit :: rest).length) ≠ unit :: rest := by
  intro same
  rw [encoded, List.length_cons, List.take_succ_cons] at same
  have first : questionMark = unit := (List.cons.inj same).1
  rw [← first] at lone
  exact scalar_questionMark lone

theorem deliverable_of_beyond {unit : UInt16} (beyond : ¬unit.toNat < 0x80) (rest : JString) :
    Deliverable (unit :: rest) ↔ unit :: rest = [replacementUnit] := by
  cases rest with
  | nil => simp [Deliverable, beyond]
  | cons next rest => simp [Deliverable, beyond]

/-- A content arrives as it is if it is deliverable. -/
theorem utf8Decode_sent_iff (content : JString) :
    utf8Decode ((utf8Bytes content).take content.length) = content ↔ Deliverable content := by
  induction content with
  | nil => exact iff_of_true rfl trivial
  | cons unit rest ih =>
      by_cases single : unit.toNat < 0x80
      · rw [utf8Decode_sent_of_ascii single, List.cons.injEq, ih]
        cases rest <;> simp [Deliverable, single]
      have differs (lone : (isHighSurrogate unit || isLowSurrogate unit) = true) :
          unit :: rest ≠ [replacementUnit] := by
        intro same
        rw [(List.cons.inj same).1] at lone
        exact absurd lone (by decide)
      rw [deliverable_of_beyond single]
      by_cases lone : (isHighSurrogate unit || isLowSurrogate unit) = true
      · cases rest with
        | nil =>
            have encoded : utf8Bytes [unit] = replacementByte :: [] := if_pos lone
            exact iff_of_false (utf8Decode_sent_of_lone lone encoded) (differs lone)
        | cons low rest =>
            by_cases pair : (isHighSurrogate unit && isLowSurrogate low) = true
            · have isPair := pair
              simp [isHighSurrogate, isLowSurrogate] at isPair
              exact utf8Decode_sent_of_beyond (List.cons_ne_nil _ _) (by omega) (by omega)
                (by omega) (if_pos pair)
            · have encoded : utf8Bytes (unit :: low :: rest) =
                  replacementByte :: utf8Bytes (low :: rest) :=
                (if_neg pair).trans (if_pos lone)
              exact iff_of_false (utf8Decode_sent_of_lone lone encoded) (differs lone)
      · have bound : unit.toNat < 65536 := unit.toNat_lt
        exact utf8Decode_sent_of_beyond (List.cons_ne_nil _ _) (Scalar.bounds lone) (by omega)
          (by omega) (utf8Bytes_cons lone rest)

/-! ## The loop -/

@[simp]
theorem length_data_fill (packet : Packet) (datagram : List UInt8) :
    (packet.fill datagram).data.length = packet.data.length := by
  simp [Packet.fill]

/-- What has come in before is not seen. -/
theorem text_fill {packet : Packet} {datagram : List UInt8}
    (fits : datagram.length ≤ packet.data.length) :
    (packet.fill datagram).text = utf8Decode datagram := by
  have within : 0 + datagram.length ≤ packet.data.length := by omega
  have stored := Overwrite.take_overwrite within
  rw [Nat.zero_add, List.take_zero, List.nil_append] at stored
  simp only [Packet.text, Packet.fill, List.take_of_length_le fits, Nat.min_eq_left fits, stored]

section Arrivals

variable {length : ℕ} (arrival : Arrival length)

theorem Arrival.datagram_eq :
    arrival.datagram = (utf8Bytes arrival.content).take arrival.content.length :=
  eq_of_mem_sendUdp arrival.sent

theorem Arrival.length_datagram_le : arrival.datagram.length ≤ length := by
  have bytes := arrival.fits
  rw [arrival.datagram_eq, List.length_take]
  omega

/-- A round reports the content of its datagram if the content is deliverable. -/
theorem reported_iff {packet : Packet} (room : packet.data.length = length) :
    (receiveRound packet arrival.datagram).2 = some arrival.content ↔
      Deliverable arrival.content := by
  have nonempty := arrival.nonempty
  have fits : arrival.datagram.length ≤ packet.data.length := by
    rw [room]
    exact arrival.length_datagram_le
  rw [receiveRound, text_fill fits, arrival.datagram_eq, ← utf8Decode_sent_iff]
  split
  · next empty =>
      rw [empty]
      exact iff_of_false (Option.some_ne_none _).symm nonempty.symm
  · rw [Option.some.injEq]

end Arrivals

theorem outputs_arrivals_iff {length : ℕ} {packet : Packet} (room : packet.data.length = length)
    (arrivals : List (Arrival length)) :
    Machine.outputs receiveRound packet (arrivals.map Arrival.datagram) =
        arrivals.map (fun arrival => some arrival.content) ↔
      ∀ arrival ∈ arrivals, Deliverable arrival.content := by
  induction arrivals generalizing packet with
  | nil => simp [Machine.outputs]
  | cons arrival arrivals ih =>
      have kept : (receiveRound packet arrival.datagram).1.data.length = length :=
        (length_data_fill packet arrival.datagram).trans room
      rw [List.map_cons, List.map_cons, Machine.outputs, List.cons.injEq,
        reported_iff arrival room, ih kept, List.forall_mem_cons]

/-- The listener is told every content exactly if all of them are deliverable. -/
theorem receive_arrivals_iff (length : ℕ) (arrivals : List (Arrival length)) :
    receive length (arrivals.map Arrival.datagram) =
        arrivals.map (fun arrival => some arrival.content) ↔
      ∀ arrival ∈ arrivals, Deliverable arrival.content :=
  outputs_arrivals_iff List.length_replicate arrivals

/-- A single accented letter is sent as the first of its two bytes. -/
theorem receive_accented :
    ¬∀ (length : ℕ) (arrivals : List (Arrival length)),
      receive length (arrivals.map Arrival.datagram) =
        arrivals.map fun arrival => some arrival.content := by
  intro all
  have told := all 2 [{
    content := [0xE9], times := 1, datagram := [0xC3], sent := by decide, nonempty := by decide,
    fits := by decide }]
  revert told
  decide

end AndroidCollection.Net
