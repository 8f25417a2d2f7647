import Mathlib.Data.List.Basic
import Mathlib.Tactic.Common

/-!
# Block-wise absorption of a stream

An iterated hash consumes its input in blocks of a fixed size and keeps the
incomplete last block aside. This file gives the absorption of a whole input
as one function of the chaining value, for any block size and any compression
function, together with the law that makes chunked updates meaningful:
absorbing a prefix and then the kept symbols followed by the rest is absorbing
the concatenation.

The number of blocks is computed from the length beforehand, so the definition
is structurally recursive and evaluates.
-/

universe u v

namespace BlockStream

variable {σ : Type u} {α : Type v} (size : ℕ) (compress : σ → List α → σ)

/-- Compress `count` blocks of `size` symbols and keep the rest of the input. -/
def absorbBlocks : ℕ → σ → List α → σ × List α
  | 0, chain, input => (chain, input)
  | count + 1, chain, input =>
      absorbBlocks count (compress chain (input.take size)) (input.drop size)

/-- Absorb every complete block of the input; the second component is the incomplete rest. -/
def absorb (chain : σ) (input : List α) : σ × List α :=
  absorbBlocks size compress (input.length / size) chain input

variable {size}

theorem absorb_of_length_lt (chain : σ) {input : List α} (short : input.length < size) :
    absorb size compress chain input = (chain, input) := by
  simp [absorb, Nat.div_eq_of_lt short, absorbBlocks]

theorem absorb_of_le_length (chain : σ) {input : List α} (positive : 0 < size)
    (complete : size ≤ input.length) :
    absorb size compress chain input =
      absorb size compress (compress chain (input.take size)) (input.drop size) := by
  have blocks : input.length / size = (input.length - size) / size + 1 :=
    Nat.div_eq_sub_div positive complete
  simp only [absorb, blocks, absorbBlocks, List.length_drop]

theorem absorb_block_append (chain : σ) {block rest : List α} (positive : 0 < size)
    (exact : block.length = size) :
    absorb size compress chain (block ++ rest) =
      absorb size compress (compress chain block) rest := by
  rw [absorb_of_le_length compress chain positive (by simp; omega), List.take_left' exact,
    List.drop_left' exact]

theorem absorbBlocks_rest (count : ℕ) (chain : σ) (input : List α) :
    (absorbBlocks size compress count chain input).2 = input.drop (size * count) := by
  induction count generalizing chain input with
  | zero => simp [absorbBlocks]
  | succ count ih =>
      rw [absorbBlocks, ih, List.drop_drop, Nat.mul_succ, Nat.add_comm]

theorem absorb_rest (chain : σ) (input : List α) :
    (absorb size compress chain input).2 = input.drop (size * (input.length / size)) :=
  absorbBlocks_rest compress _ chain input

theorem length_absorb_rest (chain : σ) (input : List α) :
    (absorb size compress chain input).2.length = input.length % size := by
  rw [absorb_rest, List.length_drop]
  have := Nat.div_add_mod input.length size
  omega

/-- Absorbing a concatenation continues from the kept rest of its first part. -/
theorem absorb_append (positive : 0 < size) (chain : σ) (first second : List α) :
    absorb size compress chain (first ++ second) =
      absorb size compress (absorb size compress chain first).1
        ((absorb size compress chain first).2 ++ second) := by
  induction blocks : first.length / size generalizing chain first with
  | zero =>
      have short : first.length < size := by
        rcases Nat.div_eq_zero_iff.mp blocks with none | short
        · omega
        · exact short
      rw [absorb_of_length_lt compress chain short]
  | succ count ih =>
      have complete : size ≤ first.length := by
        by_contra short
        rw [Nat.div_eq_of_lt (by omega)] at blocks
        omega
      have remaining : (first.drop size).length / size = count := by
        have := Nat.div_eq_sub_div positive complete
        rw [List.length_drop]
        omega
      rw [absorb_of_le_length compress chain positive (by simp; omega),
        List.take_append_of_le_length complete, List.drop_append_of_le_length complete,
        absorb_of_le_length compress chain positive complete]
      exact ih _ _ remaining

end BlockStream
