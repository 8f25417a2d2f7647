import AndroidCollection.Md5.Basic

/-!
# `transform` is the compression function

The code writes the 64 operations out and lets the four variables exchange their
roles by their place in the argument list. Each macro is one operation, so that
each of the four rounds is a stretch of sixteen operations.
-/

namespace AndroidCollection.Md5

open Rfc1321

theorem rotateLeft_eq {s : UInt32} (positive : 0 < s.toNat) (small : s.toNat < 32) (x : UInt32) :
    ROTATE_LEFT x s = rotateLeft x s.toNat := by
  apply UInt32.toBitVec_inj.mp
  have back : (32 - s).toNat = 32 - s.toNat :=
    UInt32.toNat_sub_of_le _ _ (UInt32.le_iff_toNat_le.mpr small.le)
  have left : (s.toBitVec % 32).toNat = s.toNat := Nat.mod_eq_of_lt small
  have right : ((32 - s).toBitVec % 32).toNat = 32 - s.toNat := by
    change (32 - s).toNat % 32 = _
    rw [back, Nat.mod_eq_of_lt (by omega)]
  rw [ROTATE_LEFT, rotateLeft, UInt32.toBitVec_or, UInt32.toBitVec_shiftLeft,
    UInt32.toBitVec_shiftRight, BitVec.shiftLeft_eq', BitVec.ushiftRight_eq', left, right,
    BitVec.rotateLeft_def, Nat.mod_eq_of_lt small]

/-- An operation of a round is the macro of that round. -/
theorem operation_eq (round : ℕ) (f : UInt32 → UInt32 → UInt32 → UInt32) (amounts : List UInt32)
    (function : auxiliary round = f) (shifts : shiftAmounts round = amounts.map UInt32.toNat)
    (four : amounts.length = 4) (x : ℕ → UInt32) (a b c d : UInt32) {i : ℕ}
    (inRound : i / 16 = round) :
    operation x ⟨a, b, c, d⟩ i =
      ⟨d, transformation f a b c d (x (wordIndex i)) (amounts.getD (i % 4) 0) (T.getD i 0),
        b, c⟩ := by
  have inside : i % 4 < amounts.length := by omega
  have amount : 0 < amounts[i % 4].toNat ∧ amounts[i % 4].toNat < 32 :=
    shiftAmounts_bounded (shifts ▸ List.mem_map_of_mem (List.getElem_mem inside))
  have shift : (amounts.map UInt32.toNat).getD (i % 4) 0 = amounts[i % 4].toNat := by
    simp [inside]
  have shift' : amounts.getD (i % 4) 0 = amounts[i % 4] := by
    simp [inside]
  rw [operation, inRound, shifts, function, shift, shift', transformation,
    rotateLeft_eq amount.1 amount.2, UInt32.add_comm b, UInt32.add_assoc a, UInt32.add_assoc a,
    UInt32.add_assoc _ (x _)]

section Rounds

variable (x : ℕ → UInt32) (buffer : MDBuffer)

theorem round1_eq : (List.range' 0 16).foldl (operation x) buffer = round1 x buffer := by
  rcases buffer with ⟨a, b, c, d⟩
  simp only [operation_eq 0 F [S11, S12, S13, S14] rfl rfl rfl, round1, FF,
    List.range'_succ, List.range'_zero, List.foldl_cons, List.foldl_nil, List.getD_cons_zero,
    List.getD_cons_succ, wordIndex, T, Nat.reduceAdd, Nat.reduceDiv, Nat.reduceMod]

theorem round2_eq : (List.range' 16 16).foldl (operation x) buffer = round2 x buffer := by
  rcases buffer with ⟨a, b, c, d⟩
  simp only [operation_eq 1 G [S21, S22, S23, S24] rfl rfl rfl, round2, GG,
    List.range'_succ, List.range'_zero, List.foldl_cons, List.foldl_nil, List.getD_cons_zero,
    List.getD_cons_succ, wordIndex, T, Nat.reduceAdd, Nat.reduceMul, Nat.reduceDiv, Nat.reduceMod]

theorem round3_eq : (List.range' 32 16).foldl (operation x) buffer = round3 x buffer := by
  rcases buffer with ⟨a, b, c, d⟩
  simp only [operation_eq 2 H [S31, S32, S33, S34] rfl rfl rfl, round3, HH,
    List.range'_succ, List.range'_zero, List.foldl_cons, List.foldl_nil, List.getD_cons_zero,
    List.getD_cons_succ, wordIndex, T, Nat.reduceAdd, Nat.reduceMul, Nat.reduceDiv, Nat.reduceMod]

theorem round4_eq : (List.range' 48 16).foldl (operation x) buffer = round4 x buffer := by
  rcases buffer with ⟨a, b, c, d⟩
  simp only [operation_eq 3 I [S41, S42, S43, S44] rfl rfl rfl, round4, II,
    List.range'_succ, List.range'_zero, List.foldl_cons, List.foldl_nil, List.getD_cons_zero,
    List.getD_cons_succ, wordIndex, T, Nat.reduceAdd, Nat.reduceMul, Nat.reduceDiv, Nat.reduceMod]

theorem rounds_eq :
    (List.range 64).foldl (operation x) buffer =
      round4 x (round3 x (round2 x (round1 x buffer))) := by
  have split : List.range 64 =
      List.range' 0 16 ++ List.range' 16 16 ++ List.range' 32 16 ++ List.range' 48 16 := by
    decide
  rw [split, List.foldl_append, List.foldl_append, List.foldl_append, round1_eq, round2_eq,
    round3_eq, round4_eq]

end Rounds

/-! ## Bytes and words -/

theorem or_shiftLeft {low i : ℕ} (fits : low < 2 ^ i) (high : ℕ) :
    low ||| high <<< i = low + high * 2 ^ i := by
  rw [Nat.or_comm, ← Nat.shiftLeft_add_eq_or_of_lt fits, Nat.shiftLeft_eq, Nat.add_comm]

theorem word_eq (first second third fourth : UInt8) :
    (first.toUInt32 ||| (second.toUInt32 <<< 8) ||| (third.toUInt32 <<< 16) |||
      (fourth.toUInt32 <<< 24)) = word [first, second, third, fourth] := by
  have firstByte := first.toNat_lt
  have secondByte := second.toNat_lt
  have thirdByte := third.toNat_lt
  have fourthByte := fourth.toNat_lt
  have shifted (byte : UInt8) (s : UInt32) (small : s.toNat ≤ 24) :
      (byte.toUInt32 <<< s).toNat = byte.toNat <<< s.toNat := by
    have isByte := byte.toNat_lt
    have bound : byte.toNat * 2 ^ s.toNat < 2 ^ 8 * 2 ^ 24 :=
      Nat.mul_lt_mul_of_lt_of_le isByte (Nat.pow_le_pow_right (by decide) small) (by positivity)
    rw [UInt32.toNat_shiftLeft, UInt8.toNat_toUInt32, Nat.mod_eq_of_lt (show s.toNat < 32 by omega),
      Nat.mod_eq_of_lt]
    rw [Nat.shiftLeft_eq]
    exact bound
  apply UInt32.toNat_inj.mp
  rw [UInt32.toNat_or, UInt32.toNat_or, UInt32.toNat_or, shifted _ 8 (by decide),
    shifted _ 16 (by decide), shifted _ 24 (by decide), UInt8.toNat_toUInt32]
  change first.toNat ||| second.toNat <<< 8 ||| third.toNat <<< 16 ||| fourth.toNat <<< 24 = _
  rw [or_shiftLeft firstByte,
    or_shiftLeft (show first.toNat + second.toNat * 2 ^ 8 < 2 ^ 16 by omega),
    or_shiftLeft (show first.toNat + second.toNat * 2 ^ 8 + third.toNat * 2 ^ 16 < 2 ^ 24 by omega),
    word, UInt32.toNat_ofNat']
  simp only [List.map_cons, List.map_nil, Nat.ofDigits_cons, Nat.ofDigits_nil]
  omega

theorem getD_decode {k : ℕ} {block : List UInt8} (inside : 4 * (k + 1) ≤ block.length) :
    (decode block).getD k 0 = blockWord block k := by
  match block with
  | first :: second :: third :: fourth :: rest =>
      rw [decode, word_eq]
      cases k with
      | zero => rfl
      | succ k =>
          rw [List.getD_cons_succ, getD_decode (by simp only [List.length_cons] at inside; omega)]
          rfl
  | [] | [_] | [_, _] | [_, _, _] =>
      simp only [List.length_cons, List.length_nil] at inside
      omega

/-- `transform` computes the compression function. -/
theorem transform_eq (state : MDBuffer) {block : List UInt8} (whole : block.length = 64) :
    transform state block = compress state block := by
  have words (buffer : MDBuffer) :
      (List.range 64).foldl (operation fun k => (decode block).getD k 0) buffer =
        (List.range 64).foldl (operation (blockWord block)) buffer := by
    apply List.foldl_ext
    intro current i _
    have inside := wordIndex_lt i
    rw [operation, operation, getD_decode (by omega)]
  rw [transform, compress, ← words, rounds_eq]

theorem byte_eq (value s : UInt32) (small : s.toNat < 32) :
    ((value >>> s) &&& 0xff).toUInt8 = UInt8.ofNat (value.toNat / 2 ^ s.toNat) := by
  have masked (number : ℕ) : (number &&& 255) % 256 = number % 256 := by
    rw [show (255 : ℕ) = 2 ^ 8 - 1 from rfl, Nat.and_two_pow_sub_one_eq_mod]
    omega
  apply UInt8.toNat_inj.mp
  rw [UInt32.toNat_toUInt8, UInt32.toNat_and, UInt32.toNat_shiftRight, Nat.mod_eq_of_lt small,
    UInt8.toNat_ofNat', Nat.shiftRight_eq_div_pow]
  exact masked _

theorem encode_eq (input : List UInt32) :
    encode input = input.flatMap fun value => littleEndian 4 value.toNat := by
  unfold encode
  congr 1
  funext value
  have unshifted : value = value >>> 0 := by simp
  rw [byte_eq _ 8 (by decide), byte_eq _ 16 (by decide), byte_eq _ 24 (by decide)]
  conv_lhs => rw [unshifted, byte_eq _ 0 (by decide)]
  simp [littleEndian, List.range_succ]

end AndroidCollection.Md5
