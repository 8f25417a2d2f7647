import AndroidCollection.Md5.Update

/-!
# The digest of a stream

`final` runs `update` on the object itself for the padding and the length and
puts `_state` and `_count` back afterwards. What it stores in `_digest` is the
MD5 digest of the bytes seen so far, however they have been handed over. It does
not put back the buffer: the bytes which the padding has overwritten are only
those after the kept ones as long as the padding fits into the last block.
-/

namespace AndroidCollection.Md5

open Overwrite Rfc1321 BlockStream

namespace MD5

/-- The bytes which `final` hands to `update` first. -/
def paddingBytes (m : MD5) : List UInt8 :=
  PADDING.take (if m.index < 56 then 56 - m.index else 120 - m.index).toNat

/-- The bytes which `final` hands to `update` next. -/
def lengthBytes (m : MD5) : List UInt8 :=
  encode [m._count.1, m._count.2]

theorem paddingBytes_eq (m : MD5) :
    m.paddingBytes = 0x80 :: List.replicate ((119 - m.index.toNat) % 64) 0 := by
  have indexLt := m.index_lt
  have zeros : (if m.index < 56 then 56 - m.index else 120 - m.index).toNat =
      (119 - m.index.toNat) % 64 + 1 := by
    simp only [UInt32.lt_iff_toNat_lt]
    change (if m.index.toNat < 56 then 56 - m.index else 120 - m.index).toNat = _
    split
    · rw [UInt32.toNat_sub_of_le _ _ (UInt32.le_iff_toNat_le.mpr (by change _ ≤ 56; omega))]
      change 56 - m.index.toNat = _
      omega
    · rw [UInt32.toNat_sub_of_le _ _ (UInt32.le_iff_toNat_le.mpr (by change _ ≤ 120; omega))]
      change 120 - m.index.toNat = _
      omega
  rw [paddingBytes, zeros, PADDING, List.take_succ_cons, List.take_replicate, Nat.min_eq_left]
  omega

theorem length_paddingBytes (m : MD5) :
    m.paddingBytes.length = (119 - m.index.toNat) % 64 + 1 := by
  rw [paddingBytes_eq, List.length_cons, List.length_replicate]

theorem length_lengthBytes (m : MD5) : m.lengthBytes.length = 8 :=
  length_encode _

/-- The two count words are the number of bits in eight bytes. -/
theorem lengthBytes_eq {m : MD5} {length : ℕ} (counted : m.bitCount = 8 * length % 2 ^ 64) :
    m.lengthBytes = littleEndian 8 (8 * length) := by
  have low := m._count.1.toNat_lt
  have high := m._count.2.toNat_lt
  have byte {left right : ℕ} (same : left % 256 = right % 256) :
      UInt8.ofNat left = UInt8.ofNat right := by
    apply UInt8.toNat_inj.mp
    rw [UInt8.toNat_ofNat', UInt8.toNat_ofNat']
    exact same
  rw [lengthBytes, encode_eq]
  simp only [bitCount] at counted
  simp only [littleEndian, List.range_succ, List.range_zero, List.nil_append, List.cons_append,
    List.map_cons, List.map_nil, List.flatMap_cons, List.flatMap_nil, List.append_nil,
    List.cons.injEq, and_true]
  refine ⟨?_, ?_, ?_, ?_, ?_, ?_, ?_, ?_⟩ <;>
    · apply byte
      omega

def padded (m : MD5) : MD5 :=
  (m.updated m.paddingBytes).updated m.lengthBytes

def finalized (m : MD5) : MD5 :=
  { m.padded with
    _digest := encode [m.padded._state.a, m.padded._state.b, m.padded._state.c, m.padded._state.d]
    length_digest := length_encode _
    _state := m._state
    _count := m._count }

theorem final_eq (m : MD5) : m.final = some m.finalized := by
  have indexLt := m.index_lt
  have padding := m.update_eq m.paddingBytes
  have length := (m.updated m.paddingBytes).update_eq m.lengthBytes
  have indexLt' := (m.updated m.paddingBytes).index_lt
  rw [length_paddingBytes, if_pos (by omega)] at padding
  rw [length_lengthBytes, if_pos (by omega)] at length
  unfold final
  change (m.update m.paddingBytes).bind _ = _
  rw [padding, Option.bind_some]
  change ((m.updated m.paddingBytes).update m.lengthBytes).map _ = _
  rw [length]
  rfl

/-- `final` is the same on an object which is marked as finished. -/
theorem finalized_of_finished (m : MD5) : finalized { m with _finished := true } = m.finalized :=
  rfl

theorem digest_eq {m : MD5} (unfinished : m._finished = false) :
    m.digest = some (m.finalized, m.finalized._digest) := by
  rw [digest, unfinished, final_eq, finalized_of_finished]
  rfl

end MD5

namespace Represents

variable {m : MD5} {seen : List UInt8}

theorem paddingBytes_append_lengthBytes (represents : Represents m seen) :
    m.paddingBytes ++ m.lengthBytes = padding seen.length := by
  have zeros : (119 - seen.length % 64) % 64 = (119 - m.index.toNat) % 64 := by
    rw [represents.index_toNat]
  rw [MD5.paddingBytes_eq, MD5.lengthBytes_eq represents.counted, padding, zeros]

theorem finalized_digest (represents : Represents m seen) : m.finalized._digest = md5 seen := by
  have paddingFits : m.paddingBytes.length < 2 ^ 32 := by
    rw [MD5.length_paddingBytes]
    omega
  have lengthFits : m.lengthBytes.length < 2 ^ 32 := by
    rw [MD5.length_lengthBytes]
    omega
  have absorbed := ((represents.updated paddingFits).updated lengthFits).state
  rw [List.append_assoc, represents.paddingBytes_append_lengthBytes] at absorbed
  change encode [m.padded._state.a, m.padded._state.b, m.padded._state.c, m.padded._state.d] = _
  rw [encode_eq, md5, ← absorbed]
  simp only [List.flatMap_cons, List.flatMap_nil, List.append_nil, output, List.append_assoc]
  rfl

/-- If the padding fits into the last block, `final` leaves the kept bytes alone. -/
theorem finalized (represents : Represents m seen) (room : seen.length % 64 < 56) :
    Represents m.finalized seen := by
  have indexEq := represents.index_toNat
  have paddingLength : m.paddingBytes.length = 56 - seen.length % 64 := by
    rw [MD5.length_paddingBytes, indexEq]
    omega
  have indexEq' : (m.updated m.paddingBytes).index.toNat = 56 := by
    rw [(represents.updated (by omega)).index_toNat, List.length_append, paddingLength]
    omega
  have first := m.take_index_updated_buffer m.paddingBytes (by omega)
  have second := (m.updated m.paddingBytes).take_index_updated_buffer m.lengthBytes
    (by rw [indexEq', MD5.length_lengthBytes])
  rw [indexEq] at first
  rw [indexEq'] at second
  refine ⟨represents.counted, represents.state, ?_, MD5.updated_finished _ _⟩
  have shorter : (m.padded._buffer.take 56).take (seen.length % 64) =
      ((m.updated m.paddingBytes)._buffer.take 56).take (seen.length % 64) :=
    congrArg (List.take (seen.length % 64)) second
  rw [List.take_take, List.take_take, Nat.min_eq_left (by omega), first,
    represents.kept] at shorter
  exact shorter

theorem digest (represents : Represents m seen) : m.digest = some (m.finalized, md5 seen) := by
  rw [MD5.digest_eq represents.unfinished, represents.finalized_digest]

end Represents

theorem MD5.bytesToHexString_eq (input : List UInt8) : bytesToHexString input = hex input := by
  have digits : ∀ digit < 16, HEX.getD digit '0' = Nat.digitChar digit := by decide
  unfold bytesToHexString hex
  congr 1
  funext byte
  have isByte := byte.toNat_lt
  rw [digits _ (by omega), digits _ (by omega)]

theorem Represents.toString {m : MD5} {seen : List UInt8} (represents : Represents m seen) :
    m.toString = some (m.finalized, hex (md5 seen)) := by
  rw [MD5.toString, represents.digest, Option.map_some]
  dsimp only
  rw [MD5.bytesToHexString_eq]

/-! ## Every way of feeding a stream -/

namespace IFStream

variable {content : List UInt8} {n : ℕ}

def exhausted : IFStream :=
  ⟨[], true, true, false, true⟩

theorem read_opened_of_le (full : n ≤ content.length) :
    (opened content).read n = (content.take n, opened (content.drop n)) := by
  rw [read, if_neg (by exact Bool.false_ne_true), if_pos (by exact full)]
  rfl

theorem read_opened_of_lt (short : content.length < n) :
    (opened content).read n = (content, exhausted) := by
  rw [read, if_neg (by exact Bool.false_ne_true), if_neg (by exact Nat.not_le_of_lt short)]
  rfl

end IFStream

theorem MD5.updateReads_exhausted (m : MD5) {fuel : ℕ} (positive : 0 < fuel) :
    updateReads fuel m IFStream.exhausted = some (m, IFStream.exhausted) := by
  cases fuel with
  | zero => exact absurd positive (Nat.lt_irrefl 0)
  | succ fuel => rfl

namespace Represents

variable {m : MD5} {seen : List UInt8}

theorem foldlM_update (represents : Represents m seen) {chunks : List (List UInt8)}
    (short : ∀ chunk ∈ chunks, chunk.length < 2 ^ 31) :
    ∃ m', chunks.foldlM MD5.update m = some m' ∧ Represents m' (seen ++ chunks.flatten) := by
  induction chunks generalizing m seen with
  | nil => exact ⟨m, rfl, by rwa [List.flatten_nil, List.append_nil]⟩
  | cons chunk chunks ih =>
      have chunkShort := short chunk List.mem_cons_self
      rcases represents.update (show seen.length % 64 + chunk.length < 2 ^ 32 by omega) with
        ⟨returns, updated⟩
      rcases ih updated (fun other otherMem => short other (List.mem_cons_of_mem _ otherMem)) with
        ⟨m', rest, represents'⟩
      refine ⟨m', ?_, by rwa [List.flatten_cons, ← List.append_assoc]⟩
      rw [List.foldlM_cons, returns]
      exact rest

theorem updateReads (represents : Represents m seen) {fuel : ℕ} {content : List UInt8}
    (enough : content.length / BUFFER_SIZE + 1 < fuel) :
    ∃ m' stream, MD5.updateReads fuel m (IFStream.opened content) = some (m', stream) ∧
      Represents m' (seen ++ content) := by
  simp only [BUFFER_SIZE] at enough
  induction fuel generalizing m seen content with
  | zero => omega
  | succ fuel ih =>
      rw [MD5.updateReads, if_neg (by exact Bool.false_ne_true)]
      by_cases full : BUFFER_SIZE ≤ content.length
      · have length : (content.take BUFFER_SIZE).length = BUFFER_SIZE := by
          rw [List.length_take, Nat.min_eq_left full]
        have fits : seen.length % 64 + (content.take BUFFER_SIZE).length < 2 ^ 32 := by
          rw [length, BUFFER_SIZE]
          omega
        have enough' : (content.drop BUFFER_SIZE).length / 1024 + 1 < fuel := by
          rw [List.length_drop]
          simp only [BUFFER_SIZE] at full ⊢
          omega
        rcases represents.update fits with ⟨returns, updated⟩
        rcases ih updated enough' with ⟨m', stream, rest, represents'⟩
        rw [List.append_assoc, List.take_append_drop] at represents'
        refine ⟨m', stream, ?_, represents'⟩
        rw [IFStream.read_opened_of_le full]
        dsimp only
        rw [length, if_pos (by decide), returns]
        exact rest
      · have stop (object : MD5) := object.updateReads_exhausted (show 0 < fuel by omega)
        rw [IFStream.read_opened_of_lt (Nat.lt_of_not_le full)]
        dsimp only
        by_cases empty : content = []
        · subst empty
          refine ⟨m, IFStream.exhausted, ?_, by rwa [List.append_nil]⟩
          rw [if_neg (by decide), stop]
        · simp only [BUFFER_SIZE] at full
          rcases represents.update
            (show seen.length % 64 + content.length < 2 ^ 32 by omega) with ⟨returns, updated⟩
          refine ⟨_, IFStream.exhausted, ?_, updated⟩
          rw [if_pos (List.length_pos_iff.mpr empty), returns, Option.bind_some, stop]

theorem updateStream (represents : Represents m seen) (content : List UInt8) :
    ∃ m' stream, m.updateStream (IFStream.opened content) = some (m', stream) ∧
      Represents m' (seen ++ content) := by
  rcases represents.updateReads (Nat.lt_succ_self (content.length / BUFFER_SIZE + 1)) with
    ⟨m', stream, reads, represents'⟩
  refine ⟨m', stream.close, ?_, represents'⟩
  rw [MD5.updateStream, if_neg (by exact Bool.false_ne_true)]
  change (MD5.updateReads (content.length / BUFFER_SIZE + 2) m _).map _ = _
  rw [reads]
  rfl

end Represents

/-- Whatever the chunks, the first digest after them is the MD5 digest of the whole stream, and so
is the first digest after a file with the same bytes. -/
theorem digest_of_chunks (memory : MD5) (chunks : List (List UInt8))
    (short : ∀ chunk ∈ chunks, chunk.length < 2 ^ 31) :
    (∃ m, chunks.foldlM MD5.update memory.reset = some m ∧
        m.digest.map Prod.snd = some (md5 chunks.flatten) ∧
        m.toString.map Prod.snd = some (hex (md5 chunks.flatten))) ∧
      ∃ m stream, memory.reset.updateStream (IFStream.opened chunks.flatten) = some (m, stream) ∧
        m.digest.map Prod.snd = some (md5 chunks.flatten) ∧
        m.toString.map Prod.snd = some (hex (md5 chunks.flatten)) := by
  constructor
  · rcases (Represents.reset memory).foldlM_update short with ⟨m, returns, represents⟩
    exact ⟨m, returns, by rw [represents.digest]; rfl, by rw [represents.toString]; rfl⟩
  · rcases (Represents.reset memory).updateStream chunks.flatten with
      ⟨m, stream, returns, represents⟩
    exact ⟨m, stream, returns, by rw [represents.digest]; rfl, by rw [represents.toString]; rfl⟩

def zeroMemory : MD5 where
  _state := ⟨0, 0, 0, 0⟩
  _count := (0, 0)
  _buffer := List.replicate 64 0
  length_buffer := List.length_replicate
  _digest := List.replicate 16 0
  length_digest := List.length_replicate
  _finished := false

theorem digest_of_chunks_abc :
    ∃ m, [[0x61], [], [0x62, 0x63]].foldlM MD5.update zeroMemory.reset = some m ∧
      m.digest.map Prod.snd = some (md5 [0x61, 0x62, 0x63]) ∧
      m.toString.map Prod.snd = some (hex (md5 [0x61, 0x62, 0x63])) :=
  (digest_of_chunks zeroMemory [[0x61], [], [0x62, 0x63]] (by decide)).1

end AndroidCollection.Md5
