import AndroidCollection.Lib.Machine
import AndroidCollection.Md5.Update

/-!
# The offsets which `update` reads

`update` counts the bits of its input in two words and goes through the input
with a word as its index. The functions here follow the index alone: which
offsets of an input of a given length a call copies to the buffer or transforms.
Those are all offsets once, in order, and the count is right, as long as the
index does not wrap. The length of the input is not bounded by what the index
can reach, and from there on the loop goes round for ever.
-/

namespace AndroidCollection.Md5

open Rfc1321

namespace MD5

/-- The offsets of the blocks which the loop of `update` transforms, and the offset at which it
stops; `none` if it has not come to its end after `fuel` rounds. -/
def blockOffsets (length : ℕ) : ℕ → UInt32 → Option (List ℕ × UInt32)
  | 0, _ => none
  | fuel + 1, i =>
      if (i + 63).toNat < length then
        (blockOffsets length fuel (i + 64)).map fun (starts, stop) => (i.toNat :: starts, stop)
      else some ([], i)

/-- The offsets of an input which a call of `update` copies or transforms, in order. -/
def offsets (m : MD5) (length fuel : ℕ) : Option (List ℕ) :=
  let partLen := 64 - m.index
  if partLen.toNat ≤ length then
    (blockOffsets length fuel partLen).map fun (starts, stop) =>
      List.range partLen.toNat ++ (starts.flatMap fun start => List.range' start 64) ++
        List.range' stop.toNat (length - stop.toNat)
  else some (List.range length)

/-- The loop transforms the blocks at these offsets. -/
theorem transformBlocks_eq_blockOffsets (input : List UInt8) (fuel : ℕ) (i : UInt32)
    (state : MDBuffer) :
    transformBlocks input fuel i state =
      (blockOffsets input.length fuel i).map fun (starts, stop) =>
        (stop, starts.foldl (fun state start => transform state ((input.drop start).take 64))
          state) := by
  induction fuel generalizing i state with
  | zero => rfl
  | succ fuel ih =>
      rw [transformBlocks, blockOffsets]
      split
      · rw [ih, Option.map_map]
        simp only [Function.comp_def, List.foldl_cons]
      · rfl

theorem blockOffsets_eq_none {length index : ℕ} (wraps : 2 ^ 32 ≤ index + length)
    (indexLt : index < 64) (fuel : ℕ) {i : UInt32} (aligned : (i.toNat + index) % 64 = 0) :
    blockOffsets length fuel i = none := by
  induction fuel generalizing i with
  | zero => rfl
  | succ fuel ih =>
      have isWord := i.toNat_lt
      have next : (i + 63).toNat = (i.toNat + 63) % 2 ^ 32 := UInt32.toNat_add _ _
      have advanced : (i + 64).toNat = (i.toNat + 64) % 2 ^ 32 := UInt32.toNat_add _ _
      rw [blockOffsets, if_pos (by omega), ih (by omega)]
      rfl

/-- Where the index does not wrap, the blocks and what stands behind them are what is left of the
input. -/
theorem exists_blockOffsets {length index fuel : ℕ} (fits : index + length < 2 ^ 32) {i : UInt32}
    (aligned : (i.toNat + index) % 64 = 0) (inside : i.toNat ≤ length)
    (enough : (length - i.toNat) / 64 < fuel) :
    ∃ starts stop, blockOffsets length fuel i = some (starts, stop) ∧
      (starts.flatMap fun start => List.range' start 64) ++
          List.range' stop.toNat (length - stop.toNat) =
        List.range' i.toNat (length - i.toNat) := by
  induction fuel generalizing i with
  | zero => omega
  | succ fuel ih =>
      have next := toNat_add_63 (show i.toNat + 63 < 2 ^ 32 by omega)
      rw [blockOffsets]
      by_cases more : i.toNat + 63 < length
      · have advanced := toNat_add_64 (show i.toNat + 64 < 2 ^ 32 by omega)
        rcases ih (i := i + 64) (by omega) (by omega) (by omega) with
          ⟨starts, stop, blocks, covered⟩
        refine ⟨i.toNat :: starts, stop, ?_, ?_⟩
        · rw [if_pos (next ▸ more), blocks]
          rfl
        · have left : length - i.toNat = 64 + (length - (i + 64).toNat) := by omega
          rw [List.flatMap_cons, List.append_assoc, covered, left, advanced,
            List.range'_append_1]
      · rw [if_neg (next ▸ more)]
        exact ⟨[], i, rfl, rfl⟩

/-- A call reads every offset once if the kept bytes and the input are shorter than 2^32 bytes. -/
theorem offsets_eq_range (m : MD5) {length : ℕ} (fits : m.index.toNat + length < 2 ^ 32) :
    m.offsets length (length / 64 + 1) = some (List.range length) := by
  have indexLt := m.index_lt
  have partLen : (64 - m.index).toNat = 64 - m.index.toNat :=
    UInt32.toNat_sub_of_le _ _ (UInt32.le_iff_toNat_le.mpr indexLt.le)
  rw [offsets]
  dsimp only
  split
  · next whole =>
      rcases exists_blockOffsets (i := 64 - m.index) fits (by omega) whole
        (show (length - (64 - m.index).toNat) / 64 < length / 64 + 1 by omega) with
        ⟨starts, stop, blocks, covered⟩
      have joined := List.range'_append_1 (s := 0) (m := (64 - m.index).toNat)
        (n := length - (64 - m.index).toNat)
      rw [zero_add, Nat.add_sub_cancel' whole] at joined
      rw [blocks, Option.map_some, List.append_assoc, covered, List.range_eq_range', joined,
        List.range_eq_range']
  · rfl

/-- Beyond that the block loop never comes to its end. -/
theorem offsets_eq_none (m : MD5) {length : ℕ} (wraps : 2 ^ 32 ≤ m.index.toNat + length)
    (fuel : ℕ) : m.offsets length fuel = none := by
  have indexLt := m.index_lt
  have partLen : (64 - m.index).toNat = 64 - m.index.toNat :=
    UInt32.toNat_sub_of_le _ _ (UInt32.le_iff_toNat_le.mpr indexLt.le)
  rw [offsets]
  dsimp only
  rw [if_pos (by omega), blockOffsets_eq_none wraps indexLt fuel (by omega)]
  rfl

/-- A call returns, counts all bits and reads every offset of its input once, after `total` bytes
before it. -/
structure UpdateExact (m : MD5) (total : ℕ) (input : List UInt8) : Prop where
  returns : m.update input = some (m.updated input)
  counted : (m.updated input).bitCount = 8 * (total + input.length) % 2 ^ 64
  reads : ∃ fuel, m.offsets input.length fuel = some (List.range input.length)

theorem updateExact_iff {m : MD5} {total : ℕ} (counted : m.bitCount = 8 * total % 2 ^ 64)
    (input : List UInt8) :
    m.UpdateExact total input ↔ total % 64 + input.length < 2 ^ 32 := by
  rw [← index_toNat_of_bitCount counted]
  constructor
  · intro exact'
    by_contra wraps
    rcases exact'.reads with ⟨fuel, reads⟩
    rw [m.offsets_eq_none (not_lt.mp wraps)] at reads
    cases reads
  · intro fits
    refine ⟨?_, ?_, _, m.offsets_eq_range fits⟩
    · rw [update_eq, if_pos fits]
    · rw [m.bitCount_updated _ (by omega), counted]
      omega

end MD5

/-! ## Sequences of calls -/

/-- An object together with the number of bytes which it has been given. -/
abbrev Counted := MD5 × ℕ

/-- A call of `update`; after a call which does not return there is no further one. -/
def feed (counted : Counted) (input : List UInt8) : Counted × Bool :=
  match counted.1.update input with
  | some m => ((m, counted.2 + input.length), true)
  | none => (counted, false)

/-- Every call of the sequence is exact. -/
def UpdatesExact (counted : Counted) (inputs : List (List UInt8)) : Prop :=
  Machine.Every feed (fun counted input => counted.1.UpdateExact counted.2 input) counted inputs

theorem updatesExact_iff {m : MD5} {total : ℕ} (counted : m.bitCount = 8 * total % 2 ^ 64)
    (inputs : List (List UInt8)) :
    UpdatesExact (m, total) inputs ↔
      ∀ done input rest, inputs = done ++ input :: rest →
        (total + (done.map List.length).sum) % 64 + input.length < 2 ^ 32 := by
  induction inputs generalizing m total with
  | nil =>
      apply iff_of_true (Machine.every_nil _)
      intro done input rest split
      simp at split
  | cons first inputs ih =>
      rw [UpdatesExact, Machine.every_cons, MD5.updateExact_iff counted]
      constructor
      · rintro ⟨fits, later⟩ done input rest split
        have exact' := (MD5.updateExact_iff counted first).mpr fits
        rw [feed, exact'.returns] at later
        cases done with
        | nil =>
            rcases List.cons.inj split with ⟨rfl, _⟩
            simpa using fits
        | cons earlier done =>
            rcases List.cons.inj split with ⟨rfl, others⟩
            have bound := (ih exact'.counted).mp later done input rest others
            rwa [add_assoc] at bound
      · intro fits
        have here := fits [] first inputs rfl
        rw [List.map_nil, List.sum_nil, add_zero] at here
        have exact' := (MD5.updateExact_iff counted first).mpr here
        refine ⟨here, ?_⟩
        rw [feed, exact'.returns]
        apply (ih exact'.counted).mpr
        intro done input rest split
        have bound := fits (first :: done) input rest (by rw [split, List.cons_append])
        rwa [List.map_cons, List.sum_cons, ← add_assoc] at bound

/-- From construction on, every call of a sequence returns with the right count and reads every
offset of its input once exactly if no call brings the bytes kept before it, which are fewer than
64, to 2^32 bytes. -/
theorem lengths_exact_iff (memory : MD5) (inputs : List (List UInt8)) :
    UpdatesExact (memory.reset, 0) inputs ↔
      ∀ done input rest, inputs = done ++ input :: rest →
        (done.map List.length).sum % 64 + input.length < 2 ^ 32 := by
  have initially : memory.reset.bitCount = 8 * 0 % 2 ^ 64 := by
    simp [MD5.bitCount, MD5.reset]
  simpa only [zero_add] using updatesExact_iff initially inputs

/-- A single input of four gibibytes. -/
theorem long_input_not_exact :
    ¬∀ (memory : MD5) (inputs : List (List UInt8)), UpdatesExact (memory.reset, 0) inputs := by
  intro always
  have memory : MD5 := ⟨⟨0, 0, 0, 0⟩, (0, 0), List.replicate 64 0, List.length_replicate,
    List.replicate 16 0, List.length_replicate, false⟩
  have exact' := always memory [List.replicate (2 ^ 32) 0] [] _ [] rfl
  rcases exact'.reads with ⟨fuel, reads⟩
  rw [MD5.offsets_eq_none] at reads
  · cases reads
  · rw [List.length_replicate]
    exact Nat.le_add_left _ _

end AndroidCollection.Md5
