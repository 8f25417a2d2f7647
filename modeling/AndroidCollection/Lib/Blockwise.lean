import Mathlib.Data.List.Basic
import Mathlib.Tactic.Common

/-!
# Block-wise transformation

A list is cut into consecutive blocks of a fixed size, the last one possibly
shorter, and a transformation which can fail is applied to one block after the
other. This file gives the result of the whole list, the rules for its first
block, and the condition under which a second block-wise transformation takes
the result back: the blocks produced by the first transformation have exactly
the block size of the second, and each block is recovered.

The transformation also receives the number of the call, so that it may behave
differently each time. The number of calls is bounded beforehand, which makes
the definition structurally recursive.
-/

universe u v w

namespace Blockwise

variable {α : Type u} {β : Type v} {ε : Type w}

def processBlocks (size : ℕ) (transform : ℕ → List α → Except ε (List β)) :
    ℕ → ℕ → List α → Except ε (List β)
  | 0, _, _ => .ok []
  | _ + 1, _, [] => .ok []
  | bound + 1, call, symbol :: symbols =>
      match transform call ((symbol :: symbols).take size) with
      | .error exception => .error exception
      | .ok block =>
          match processBlocks size transform bound (call + 1)
              ((symbol :: symbols).drop size) with
          | .error exception => .error exception
          | .ok blocks => .ok (block ++ blocks)

/-- Transform every block of the input and concatenate the results. -/
def process (size : ℕ) (transform : ℕ → List α → Except ε (List β)) (call : ℕ)
    (input : List α) : Except ε (List β) :=
  processBlocks size transform input.length call input

variable {size : ℕ} {transform : ℕ → List α → Except ε (List β)}

theorem processBlocks_of_length_le (positive : 0 < size) {bound : ℕ} (call : ℕ)
    {input : List α} (enough : input.length ≤ bound) :
    processBlocks size transform bound call input = process size transform call input := by
  have bounded : ∀ length bound call (input : List α), input.length ≤ length →
      input.length ≤ bound →
      processBlocks size transform bound call input =
        processBlocks size transform length call input := by
    intro length
    induction length with
    | zero =>
        intro bound call input short enough
        have none := List.eq_nil_of_length_eq_zero (Nat.le_zero.mp short)
        subst none
        cases bound <;> rfl
    | succ length ih =>
        intro bound call input short enough
        cases input with
        | nil => cases bound <;> rfl
        | cons symbol symbols =>
            cases bound with
            | zero => simp at enough
            | succ bound =>
                have rest := ih bound (call + 1) ((symbol :: symbols).drop size)
                  (by simp only [List.length_drop, List.length_cons] at short ⊢; omega)
                  (by simp only [List.length_drop, List.length_cons] at enough ⊢; omega)
                simp only [processBlocks, rest]
  exact bounded _ _ _ _ (Nat.le_refl _) enough

@[simp]
theorem process_nil (call : ℕ) : process size transform call [] = .ok [] :=
  rfl

theorem process_of_ok (positive : 0 < size) {call : ℕ} {input : List α} {block : List β}
    (nonempty : input ≠ []) (first : transform call (input.take size) = .ok block) :
    process size transform call input =
      match process size transform (call + 1) (input.drop size) with
      | .error exception => .error exception
      | .ok blocks => .ok (block ++ blocks) := by
  cases input with
  | nil => exact absurd rfl nonempty
  | cons symbol symbols =>
      have shorter : ((symbol :: symbols).drop size).length ≤ symbols.length := by
        simp only [List.length_drop, List.length_cons]
        omega
      have rest : processBlocks size transform symbols.length (call + 1)
          ((symbol :: symbols).drop size) =
          process size transform (call + 1) ((symbol :: symbols).drop size) :=
        processBlocks_of_length_le positive (call + 1) shorter
      simp only [process, List.length_cons, processBlocks, first] at rest ⊢
      rw [rest]

theorem process_of_error {call : ℕ} {input : List α} {exception : ε} (nonempty : input ≠ [])
    (first : transform call (input.take size) = .error exception) :
    process size transform call input = .error exception := by
  cases input with
  | nil => exact absurd rfl nonempty
  | cons symbol symbols => simp only [process, List.length_cons, processBlocks, first]

/-- An input of at most one block is transformed as it is. -/
theorem process_of_length_le {call : ℕ} {input : List α} (nonempty : input ≠ [])
    (short : input.length ≤ size) :
    process size transform call input = transform call input := by
  have positive : 0 < size := Nat.lt_of_lt_of_le (List.length_pos_iff.mpr nonempty) short
  have whole : input.take size = input := List.take_of_length_le short
  cases first : transform call input with
  | error exception => exact process_of_error nonempty (whole.symm ▸ first)
  | ok block =>
      rw [process_of_ok positive nonempty (whole.symm ▸ first), List.drop_eq_nil_of_le short]
      simp

/-- Two block-wise transformations compose to the identity when each block of the first becomes
one block of the second, which recovers it. -/
theorem process_process {back : ℕ → List β → Except ε (List α)} {backSize : ℕ}
    (positive : 0 < size) (backPositive : 0 < backSize) (input : List α)
    (recovers : ∀ block : List α, block ≠ [] → block.length ≤ size →
      block.length ≤ input.length → ∀ call, ∃ output,
        transform call block = .ok output ∧ output.length = backSize ∧
          ∀ backCall, back backCall output = .ok block)
    (call backCall : ℕ) :
    ∃ output, process size transform call input = .ok output ∧
      process backSize back backCall output = .ok input := by
  induction bound : input.length using Nat.strongRecOn generalizing input call backCall with
  | _ length ih =>
      subst length
      rcases Decidable.em (input.length = 0) with none | some
      · rw [List.length_eq_zero_iff] at none
        subst none
        exact ⟨[], rfl, rfl⟩
      · have nonempty : input ≠ [] := by
          rintro rfl
          exact some rfl
        have longer := List.length_pos_iff.mpr nonempty
        obtain ⟨block, produced, exact, recovered⟩ := recovers (input.take size)
          (by simp only [ne_eq, List.take_eq_nil_iff, nonempty, or_false]; omega)
          (List.length_take_le _ _) (List.length_take_le' _ _) call
        obtain ⟨blocks, others, othersBack⟩ := ih (input.drop size).length
          (by simp only [List.length_drop]; omega) (input.drop size)
          (fun chunk chunkNonempty short bounded =>
            recovers chunk chunkNonempty short
              (Nat.le_trans bounded (by simp only [List.length_drop]; omega)))
          (call + 1) (backCall + 1) rfl
        refine ⟨block ++ blocks, ?_, ?_⟩
        · rw [process_of_ok positive nonempty produced, others]
        · have blockNonempty : block ++ blocks ≠ [] := by
            intro none
            have := congrArg List.length none
            simp only [List.length_append, List.length_nil] at this
            omega
          have firstBack : back backCall ((block ++ blocks).take backSize) =
              .ok (input.take size) := by
            rw [List.take_left' exact]
            exact recovered backCall
          rw [process_of_ok backPositive blockNonempty firstBack, List.drop_left' exact,
            othersBack]
          exact congrArg _ (List.take_append_drop size input)

end Blockwise
