import Mathlib.Data.List.Basic
import Mathlib.Tactic.Common

/-!
# Overwriting part of a fixed-size buffer

A buffer is a list whose length never changes. `overwrite` stores a run of
symbols at an offset, `overwriteAll` performs a list of such stores in order,
and `lastWrite` names the value which the last store covering a position
put there. The main law, `getElem?_overwriteAll`, says that after any
sequence of stores every position holds the value of the last store covering
it and otherwise its old value; contents which survive several rounds of reuse
are read off from it.
-/

universe u v

namespace Overwrite

variable {α : Type u}

/-- Store `source` at `offset`; symbols beyond the end of the buffer are dropped. -/
def overwrite (buffer : List α) (offset : ℕ) (source : List α) : List α :=
  buffer.take offset ++ source.take (buffer.length - offset) ++
    buffer.drop (offset + source.length)

@[simp]
theorem length_overwrite (buffer : List α) (offset : ℕ) (source : List α) :
    (overwrite buffer offset source).length = buffer.length := by
  simp only [overwrite, List.length_append, List.length_take, List.length_drop]
  omega

@[simp]
theorem overwrite_nil (buffer : List α) (offset : ℕ) : overwrite buffer offset [] = buffer := by
  simp [overwrite]

/-- The prefix up to the end of a store that fits is the old prefix and the stored run. -/
theorem take_overwrite {buffer source : List α} {offset : ℕ}
    (fits : offset + source.length ≤ buffer.length) :
    (overwrite buffer offset source).take (offset + source.length) =
      buffer.take offset ++ source := by
  have whole : source.take (buffer.length - offset) = source :=
    List.take_of_length_le (by omega)
  rw [overwrite, whole, List.take_left']
  simp only [List.length_append, List.length_take]
  omega

theorem take_overwrite_of_le {buffer source : List α} {offset count : ℕ}
    (before : count ≤ offset) :
    (overwrite buffer offset source).take count = buffer.take count := by
  by_cases inside : count ≤ buffer.length
  · rw [overwrite, List.append_assoc, List.take_append_of_le_length (by simp; omega),
      List.take_take, Nat.min_eq_left before]
  · have unchanged : overwrite buffer offset source = buffer := by
      simp only [overwrite, List.take_of_length_le (show buffer.length ≤ offset by omega)]
      rw [Nat.sub_eq_zero_of_le (by omega), List.take_zero,
        List.drop_eq_nil_of_le (by omega)]
      simp
    rw [unchanged]

theorem getElem?_overwrite {buffer source : List α} {offset position : ℕ}
    (fits : offset + source.length ≤ buffer.length) :
    (overwrite buffer offset source)[position]? =
      if offset ≤ position ∧ position < offset + source.length then source[position - offset]?
      else buffer[position]? := by
  have whole : source.take (buffer.length - offset) = source :=
    List.take_of_length_le (by omega)
  have prefixLength : (buffer.take offset).length = offset := by simp; omega
  rw [overwrite, whole, List.append_assoc]
  by_cases before : position < offset
  · rw [List.getElem?_append_left (by omega), List.getElem?_take_of_lt before,
      if_neg (by omega)]
  · rw [List.getElem?_append_right (by omega), prefixLength]
    by_cases covered : position < offset + source.length
    · rw [List.getElem?_append_left (by omega), if_pos (by omega)]
    · rw [List.getElem?_append_right (by omega), if_neg (by omega), List.getElem?_drop]
      congr 1
      omega

/-- Storing the whole source differs from storing a part of it only where the rest of the source
differs from what the buffer held. -/
theorem overwrite_eq_overwrite_take_iff {buffer source : List α} {offset count : ℕ}
    (fits : offset + source.length ≤ buffer.length) :
    overwrite buffer offset source = overwrite buffer offset (source.take count) ↔
      ∀ i, count ≤ i → i < source.length → source[i]? = buffer[offset + i]? := by
  have partFits : offset + (source.take count).length ≤ buffer.length := by
    rw [List.length_take]
    omega
  constructor
  · intro same i later inside
    have at_position := congrArg (fun list => list[offset + i]?) same
    simp only [getElem?_overwrite fits, getElem?_overwrite partFits, List.length_take,
      Nat.add_sub_cancel_left] at at_position
    rwa [if_pos (by omega), if_neg (by omega)] at at_position
  · intro same
    apply List.ext_getElem?
    intro position
    rw [getElem?_overwrite fits, getElem?_overwrite partFits, List.length_take]
    by_cases covered : offset ≤ position ∧ position < offset + source.length
    · rw [if_pos covered]
      by_cases early : position < offset + count
      · rw [if_pos (by omega), List.getElem?_take_of_lt (by omega)]
      · rw [if_neg (by omega), same (position - offset) (by omega) (by omega)]
        congr 1
        omega
    · rw [if_neg covered, if_neg (by omega)]

/-- The value a store puts at a position, if it covers the position. -/
def covering (write : ℕ × List α) (position : ℕ) : Option α :=
  if write.1 ≤ position then write.2[position - write.1]? else none

theorem getElem?_overwrite_eq_covering {buffer : List α} {write : ℕ × List α} {position : ℕ}
    (fits : write.1 + write.2.length ≤ buffer.length) :
    (overwrite buffer write.1 write.2)[position]? =
      (covering write position).or buffer[position]? := by
  rw [getElem?_overwrite fits, covering]
  by_cases before : write.1 ≤ position
  · by_cases covered : position < write.1 + write.2.length
    · rw [if_pos ⟨before, covered⟩, if_pos before,
        List.getElem?_eq_getElem (show position - write.1 < write.2.length by omega)]
      rfl
    · have beyond : write.2[position - write.1]? = none :=
        List.getElem?_eq_none (by omega)
      rw [if_neg (by omega), if_pos before, beyond]
      rfl
  · rw [if_neg (by omega), if_neg before]
    rfl

def overwriteAll (buffer : List α) (writes : List (ℕ × List α)) : List α :=
  writes.foldl (fun current write => overwrite current write.1 write.2) buffer

/-- The value put at a position by the last store covering it. -/
def lastWrite : List (ℕ × List α) → ℕ → Option α
  | [], _ => none
  | write :: writes, position => (lastWrite writes position).or (covering write position)

/-- After a sequence of stores a position holds what the last store covering it put there. -/
theorem getElem?_overwriteAll {buffer : List α} {writes : List (ℕ × List α)} {position : ℕ}
    (fit : ∀ write ∈ writes, write.1 + write.2.length ≤ buffer.length) :
    (overwriteAll buffer writes)[position]? =
      (lastWrite writes position).or buffer[position]? := by
  induction writes generalizing buffer with
  | nil => simp [overwriteAll, lastWrite]
  | cons write writes ih =>
      have later : ∀ other ∈ writes,
          other.1 + other.2.length ≤ (overwrite buffer write.1 write.2).length := by
        intro other otherMem
        simpa using fit other (List.mem_cons_of_mem _ otherMem)
      have first : (overwrite buffer write.1 write.2)[position]? =
          (covering write position).or buffer[position]? :=
        getElem?_overwrite_eq_covering (fit write List.mem_cons_self)
      change (overwriteAll (overwrite buffer write.1 write.2) writes)[position]? = _
      rw [ih later, first, lastWrite, Option.or_assoc]

theorem lastWrite_append (first second : List (ℕ × List α)) (position : ℕ) :
    lastWrite (first ++ second) position =
      (lastWrite second position).or (lastWrite first position) := by
  induction first with
  | nil => simp [lastWrite]
  | cons write first ih => simp [lastWrite, ih, Option.or_assoc]

/-- When only one of the stores can cover the position, it says what the position holds. -/
theorem lastWrite_map {β : Type v} [DecidableEq β] [BEq β] [LawfulBEq β]
    {store : β → ℕ × List α} {items : List β} {position : ℕ} {chosen : β} {value : Option α}
    (covered : ∀ item ∈ items,
      covering (store item) position = if item = chosen then value else none) :
    lastWrite (items.map store) position = if chosen ∈ items then value else none := by
  induction items with
  | nil => rfl
  | cons item items ih =>
      have later := ih fun other otherMem => covered other (List.mem_cons_of_mem _ otherMem)
      rw [List.map_cons, lastWrite, later, covered item List.mem_cons_self]
      by_cases here : item = chosen
      · by_cases again : chosen ∈ items <;> simp [here, again]
      · simp [here, Ne.symm here]

end Overwrite
