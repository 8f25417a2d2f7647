import AndroidCollection.Md5.Transform

/-!
# One call of `update`

`update` absorbs the bytes which the buffer still holds, followed by its input,
and keeps the incomplete block at the start of the buffer. The call returns
exactly if the kept bytes and the input together are shorter than 2^32 bytes:
beyond that the loop variable wraps before it reaches the length of the input.
-/

namespace AndroidCollection.Md5

open Overwrite Rfc1321 BlockStream

namespace MD5

theorem index_toNat (m : MD5) : m.index.toNat = m._count.1.toNat / 8 % 64 := by
  rw [index, UInt32.toNat_and, UInt32.toNat_shiftRight]
  change m._count.1.toNat >>> 3 &&& (2 ^ 6 - 1) = _
  rw [Nat.and_two_pow_sub_one_eq_mod, Nat.shiftRight_eq_div_pow]

theorem index_lt (m : MD5) : m.index.toNat < 64 := by
  rw [index_toNat]
  omega

def bitCount (m : MD5) : ℕ :=
  m._count.2.toNat * 2 ^ 32 + m._count.1.toNat

theorem index_toNat_of_bitCount {m : MD5} {length : ℕ}
    (counted : m.bitCount = 8 * length % 2 ^ 64) : m.index.toNat = length % 64 := by
  have low := m._count.1.toNat_lt
  rw [index_toNat]
  simp only [bitCount] at counted
  omega

theorem bitCount_addCount (m : MD5) {length : ℕ} (isWord : length < 2 ^ 32) :
    (m.addCount length).bitCount = (m.bitCount + 8 * length) % 2 ^ 64 := by
  have low := m._count.1.toNat_lt
  have high := m._count.2.toNat_lt
  have value : (UInt32.ofNat length).toNat = length := UInt32.toNat_ofNat_of_lt' isWord
  have up : (UInt32.ofNat length <<< 3).toNat = length * 8 % 2 ^ 32 := by
    rw [UInt32.toNat_shiftLeft, value]
    change length <<< 3 % 2 ^ 32 = _
    rw [Nat.shiftLeft_eq]
  have down : (UInt32.ofNat length >>> 29).toNat = length / 2 ^ 29 := by
    rw [UInt32.toNat_shiftRight, value]
    change length >>> 29 = _
    rw [Nat.shiftRight_eq_div_pow]
  simp only [bitCount, addCount, UInt32.lt_iff_toNat_lt, UInt32.toNat_add, up, down]
  split
  · have carried : (m._count.2 + 1).toNat = (m._count.2.toNat + 1) % 2 ^ 32 := UInt32.toNat_add _ _
    rw [carried]
    omega
  · omega

section Blocks

variable {input : List UInt8} {index : ℕ}

theorem toNat_add_63 {i : UInt32} (small : i.toNat + 63 < 2 ^ 32) :
    (i + 63).toNat = i.toNat + 63 := by
  rw [UInt32.toNat_add]
  exact Nat.mod_eq_of_lt small

theorem toNat_add_64 {i : UInt32} (small : i.toNat + 64 < 2 ^ 32) :
    (i + 64).toNat = i.toNat + 64 := by
  rw [UInt32.toNat_add]
  exact Nat.mod_eq_of_lt small

theorem transformBlocks_eq_some (fits : index + input.length < 2 ^ 32) {fuel : ℕ} {i : UInt32}
    {state : MDBuffer} (aligned : (i.toNat + index) % 64 = 0) (inside : i.toNat ≤ input.length)
    (enough : (input.length - i.toNat) / 64 < fuel) :
    ∃ stop, input.drop stop.toNat = (absorb 64 compress state (input.drop i.toNat)).2 ∧
      transformBlocks input fuel i state =
        some (stop, (absorb 64 compress state (input.drop i.toNat)).1) := by
  induction fuel generalizing i state with
  | zero => omega
  | succ fuel ih =>
      have next := toNat_add_63 (show i.toNat + 63 < 2 ^ 32 by omega)
      rw [transformBlocks]
      by_cases more : i.toNat + 63 < input.length
      · have advanced := toNat_add_64 (show i.toNat + 64 < 2 ^ 32 by omega)
        have whole : ((input.drop i.toNat).take 64).length = 64 := by
          rw [List.length_take, List.length_drop]
          omega
        have rest := absorb_of_le_length compress state
          (show 0 < 64 by decide) (show 64 ≤ (input.drop i.toNat).length by simp; omega)
        rw [List.drop_drop, ← advanced, ← transform_eq _ whole] at rest
        rw [if_pos (next ▸ more), rest]
        exact ih (by omega) (by omega) (by omega)
      · have short : (input.drop i.toNat).length < 64 := by
          rw [List.length_drop]
          omega
        rw [if_neg (next ▸ more), absorb_of_length_lt compress state short]
        exact ⟨i, rfl, rfl⟩

/-- Where the loop variable wraps, the loop never ends. -/
theorem transformBlocks_eq_none (wraps : 2 ^ 32 ≤ index + input.length) (indexLt : index < 64)
    (fuel : ℕ) {i : UInt32} (state : MDBuffer) (aligned : (i.toNat + index) % 64 = 0) :
    transformBlocks input fuel i state = none := by
  induction fuel generalizing i state with
  | zero => rfl
  | succ fuel ih =>
      have isWord := i.toNat_lt
      have next : (i + 63).toNat = (i.toNat + 63) % 2 ^ 32 := UInt32.toNat_add _ _
      have advanced : (i + 64).toNat = (i.toNat + 64) % 2 ^ 32 := UInt32.toNat_add _ _
      rw [transformBlocks, if_pos (by omega)]
      exact ih _ (by omega)

end Blocks

/-! ## The object after the call -/

def pending (m : MD5) (input : List UInt8) : List UInt8 :=
  m._buffer.take m.index.toNat ++ input

theorem length_pending (m : MD5) (input : List UInt8) :
    (m.pending input).length = m.index.toNat + input.length := by
  have := m.index_lt
  rw [pending, List.length_append, List.length_take, m.length_buffer]
  omega

def updated (m : MD5) (input : List UInt8) : MD5 :=
  let absorbed := absorb 64 compress m._state (m.pending input)
  let counted := { m with _finished := false }.addCount input.length
  let stored :=
    if m.index.toNat + input.length < 64 then counted.copyToBuffer m.index input
    else (counted.copyToBuffer m.index (input.take (64 - m.index.toNat))).copyToBuffer 0 absorbed.2
  { stored with _state := absorbed.1 }

/-- A call of `update` absorbs the pending bytes if they are shorter than 2^32 bytes and does not
return otherwise. -/
theorem update_eq (m : MD5) (input : List UInt8) :
    m.update input =
      if m.index.toNat + input.length < 2 ^ 32 then some (m.updated input) else none := by
  have indexLt := m.index_lt
  have partLen : (64 - m.index).toNat = 64 - m.index.toNat :=
    UInt32.toNat_sub_of_le _ _ (UInt32.le_iff_toNat_le.mpr indexLt.le)
  have aligned : ((64 - m.index).toNat + m.index.toNat) % 64 = 0 := by omega
  by_cases short : m.index.toNat + input.length < 64
  · have kept := absorb_of_length_lt compress m._state
      (show (m.pending input).length < 64 by rwa [length_pending])
    simp only [update, partLen]
    rw [if_neg (by omega), if_pos (by omega), updated, kept, if_pos short]
    rfl
  · by_cases fits : m.index.toNat + input.length < 2 ^ 32
    · have firstLength : (input.take (64 - m.index.toNat)).length = 64 - m.index.toNat := by
        rw [List.length_take]
        omega
      have firstBlock : m._buffer.take m.index.toNat ++ input.take (64 - m.index.toNat) =
          overwrite m._buffer m.index.toNat (input.take (64 - m.index.toNat)) := by
        rw [← take_overwrite (by rw [m.length_buffer]; omega), List.take_of_length_le]
        rw [length_overwrite, m.length_buffer]
        omega
      have absorbed : absorb 64 compress m._state (m.pending input) =
          absorb 64 compress (transform m._state
            (overwrite m._buffer m.index.toNat (input.take (64 - m.index.toNat))))
            (input.drop (64 - m.index).toNat) := by
        have whole : (overwrite m._buffer m.index.toNat
            (input.take (64 - m.index.toNat))).length = 64 :=
          (length_overwrite _ _ _).trans m.length_buffer
        have split := List.take_append_drop (64 - m.index.toNat) input
        rw [pending]
        nth_rw 1 [← split]
        rw [← List.append_assoc, firstBlock, absorb_block_append compress _ (by decide) whole,
          transform_eq _ whole, partLen]
      rcases transformBlocks_eq_some fits aligned (by omega)
        (show (input.length - (64 - m.index).toNat) / 64 < input.length / 64 + 1 by omega) with
        ⟨stop, rest, blocks⟩
      simp only [update, partLen]
      rw [if_pos (by omega), if_pos fits, updated, absorbed, if_neg short, ← rest]
      exact congrArg _ blocks
    · simp only [update, partLen]
      rw [if_neg fits, if_pos (by omega), transformBlocks_eq_none (by omega) indexLt _ _ aligned]
      rfl

section Updated

variable (m : MD5) (input : List UInt8)

theorem updated_state :
    (m.updated input)._state = (absorb 64 compress m._state (m.pending input)).1 :=
  rfl

@[simp]
theorem updated_finished : (m.updated input)._finished = false := by
  simp only [updated]
  split <;> rfl

theorem bitCount_updated (isWord : input.length < 2 ^ 32) :
    (m.updated input).bitCount = (m.bitCount + 8 * input.length) % 2 ^ 64 := by
  rw [← m.bitCount_addCount isWord]
  simp only [updated]
  split <;> rfl

theorem take_updated_buffer :
    (m.updated input)._buffer.take ((m.index.toNat + input.length) % 64) =
      (absorb 64 compress m._state (m.pending input)).2 := by
  have indexLt := m.index_lt
  have buffer := m.length_buffer
  simp only [updated]
  by_cases short : m.index.toNat + input.length < 64
  · rw [if_pos short, Nat.mod_eq_of_lt short, absorb_of_length_lt _ _ (by rwa [length_pending])]
    exact take_overwrite (show m.index.toNat + input.length ≤ m._buffer.length by omega)
  · have keptLength : (absorb 64 compress m._state (m.pending input)).2.length =
        (m.index.toNat + input.length) % 64 := by
      rw [length_absorb_rest, length_pending]
    rw [if_neg short, ← keptLength]
    generalize (absorb 64 compress m._state (m.pending input)).2 = kept at keptLength
    have fits : 0 + kept.length ≤ (overwrite m._buffer m.index.toNat
        (input.take (64 - m.index.toNat))).length := by
      rw [length_overwrite]
      omega
    have stored := take_overwrite fits
    rw [List.take_zero, List.nil_append, Nat.zero_add] at stored
    exact stored

/-- An input which goes no further than the end of the buffer leaves the bytes before it alone. -/
theorem take_index_updated_buffer (inside : m.index.toNat + input.length ≤ 64) :
    (m.updated input)._buffer.take m.index.toNat = m._buffer.take m.index.toNat := by
  simp only [updated]
  by_cases short : m.index.toNat + input.length < 64
  · rw [if_pos short]
    exact take_overwrite_of_le le_rfl
  · have kept : (absorb 64 compress m._state (m.pending input)).2 = [] := by
      rw [← List.length_eq_zero_iff, length_absorb_rest, length_pending]
      omega
    rw [if_neg short, kept]
    change (overwrite (overwrite m._buffer _ _) 0 []).take _ = _
    rw [overwrite_nil, take_overwrite_of_le le_rfl]

end Updated

end MD5

/-! ## Objects in the middle of a stream -/

/-- The object has absorbed the whole blocks of the bytes seen so far and keeps the others. -/
structure Represents (m : MD5) (seen : List UInt8) : Prop where
  counted : m.bitCount = 8 * seen.length % 2 ^ 64
  state : m._state = (absorb 64 compress init seen).1
  kept : m._buffer.take (seen.length % 64) = (absorb 64 compress init seen).2
  unfinished : m._finished = false

namespace Represents

variable {m : MD5} {seen input : List UInt8}

theorem reset (memory : MD5) : Represents memory.reset [] := by
  refine ⟨?_, ?_, ?_, rfl⟩
  · simp [MD5.bitCount, MD5.reset]
  · rw [absorb_of_length_lt _ _ (by decide)]
    rfl
  · rw [absorb_of_length_lt _ _ (by decide)]
    rfl

theorem index_toNat (represents : Represents m seen) : m.index.toNat = seen.length % 64 :=
  MD5.index_toNat_of_bitCount represents.counted

theorem absorb_pending (represents : Represents m seen) (input : List UInt8) :
    absorb 64 compress m._state (m.pending input) = absorb 64 compress init (seen ++ input) := by
  rw [absorb_append compress (by decide) init, ← represents.state, ← represents.kept, MD5.pending,
    represents.index_toNat]

theorem updated (represents : Represents m seen) (isWord : input.length < 2 ^ 32) :
    Represents (m.updated input) (seen ++ input) := by
  refine ⟨?_, ?_, ?_, MD5.updated_finished _ _⟩
  · rw [MD5.bitCount_updated _ _ isWord, represents.counted, List.length_append]
    omega
  · rw [MD5.updated_state, represents.absorb_pending]
  · rw [← represents.absorb_pending, ← MD5.take_updated_buffer, represents.index_toNat,
      List.length_append]
    congr 1
    omega

theorem update (represents : Represents m seen)
    (fits : seen.length % 64 + input.length < 2 ^ 32) :
    m.update input = some (m.updated input) ∧ Represents (m.updated input) (seen ++ input) := by
  rw [MD5.update_eq, represents.index_toNat, if_pos fits]
  exact ⟨rfl, represents.updated (by omega)⟩

end Represents

end AndroidCollection.Md5
