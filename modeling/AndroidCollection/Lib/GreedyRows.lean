import Mathlib.Algebra.BigOperators.Group.List.Basic
import Mathlib.Algebra.Ring.Nat
import Mathlib.Tactic.Common

/-!
# Greedy rows

Items with widths are put into rows from the left. A row takes items as long as
their total width is within a limit, and at least one item. A wider limit never
needs more rows, though a row may then begin with an earlier or a later item.
-/

universe u

namespace GreedyRows

variable {α : Type u} (width : α → ℕ) (limit : ℤ)

def total (row : List α) : ℕ :=
  (row.map width).sum

/-- The rows of the items, of which the first one has been begun. -/
def fill (current : List α) : List α → List (List α)
  | [] => [current]
  | item :: items =>
      if (total width current + width item : ℤ) ≤ limit then fill (current ++ [item]) items
      else current :: fill [item] items

def rows : List α → List (List α)
  | [] => []
  | item :: items => fill width limit [item] items

variable {width} {limit}

@[simp]
theorem total_nil : total width [] = 0 :=
  rfl

@[simp]
theorem total_cons (item : α) (row : List α) :
    total width (item :: row) = width item + total width row := by
  simp [total]

@[simp]
theorem total_append (first second : List α) :
    total width (first ++ second) = total width first + total width second := by
  simp [total]

theorem flatten_fill (current items : List α) :
    (fill width limit current items).flatten = current ++ items := by
  induction items generalizing current with
  | nil => simp [fill]
  | cons item items ih =>
      simp only [fill]
      split <;> simp [ih]

theorem flatten_rows (items : List α) : (rows width limit items).flatten = items := by
  cases items with
  | nil => rfl
  | cons item items => exact flatten_fill [item] items

/-- With a wider limit a row which is not longer leads to as many rows at most, and any other row to
one more at most. -/
theorem length_fill_le {wide : ℤ} (wider : limit ≤ wide) (items current other : List α) :
    (total width current ≤ total width other →
        (fill width wide current items).length ≤ (fill width limit other items).length) ∧
      (fill width wide current items).length ≤ (fill width limit other items).length + 1 := by
  induction items generalizing current other with
  | nil => simp [fill]
  | cons item items ih =>
      have alone : total width [item] ≤ total width (other ++ [item]) := by simp
      simp only [fill]
      by_cases fits : (total width current + width item : ℤ) ≤ wide
      · rw [if_pos fits]
        split
        · have next := ih (current ++ [item]) (other ++ [item])
          refine ⟨fun shorter => next.1 (by simpa using shorter), next.2⟩
        · have next := (ih (current ++ [item]) [item]).2
          rw [List.length_cons]
          exact ⟨fun _ => next, by omega⟩
      · rw [if_neg fits]
        split
        · next narrow =>
            have next := (ih [item] (other ++ [item])).1 alone
            rw [List.length_cons]
            exact ⟨fun shorter => absurd narrow (by omega), by omega⟩
        · have next := (ih [item] [item]).1 (Nat.le_refl _)
          rw [List.length_cons, List.length_cons]
          exact ⟨fun _ => by omega, by omega⟩

theorem length_rows_le {wide : ℤ} (wider : limit ≤ wide) (items : List α) :
    (rows width wide items).length ≤ (rows width limit items).length := by
  cases items with
  | nil => exact Nat.le_refl _
  | cons item items => exact (length_fill_le wider items [item] [item]).1 (Nat.le_refl _)

/-! ## Cells -/

/-- An item in its row, with the width of what stands before it there. -/
structure Cell (α : Type u) where
  row : ℕ
  start : ℕ
  item : α

variable (width) in
def rowCells (row : ℕ) : ℕ → List α → List (Cell α)
  | _, [] => []
  | start, item :: items => ⟨row, start, item⟩ :: rowCells row (start + width item) items

variable (width) in
/-- The cells of rows, which are numbered from the given one. -/
def cells : ℕ → List (List α) → List (Cell α)
  | _, [] => []
  | row, items :: rest => rowCells width row 0 items ++ cells (row + 1) rest

theorem rowCells_append (row start : ℕ) (first second : List α) :
    rowCells width row start (first ++ second) =
      rowCells width row start first ++
        rowCells width row (start + total width first) second := by
  induction first generalizing start with
  | nil => simp [rowCells]
  | cons item first ih => simp [rowCells, ih, Nat.add_assoc]

theorem of_mem_rowCells {row start : ℕ} {items : List α} {cell : Cell α}
    (member : cell ∈ rowCells width row start items) : cell.row = row ∧ start ≤ cell.start := by
  induction items generalizing start with
  | nil => cases member
  | cons item items ih =>
      rcases List.mem_cons.1 member with rfl | later
      · exact ⟨rfl, Nat.le_refl _⟩
      · have rest := ih later
        exact ⟨rest.1, by omega⟩

theorem of_mem_cells {row : ℕ} {rows : List (List α)} {cell : Cell α}
    (member : cell ∈ cells width row rows) : row ≤ cell.row ∧ cell.row < row + rows.length := by
  induction rows generalizing row with
  | nil => cases member
  | cons items rows ih =>
      rw [List.length_cons]
      rcases List.mem_append.1 member with here | below
      · have same := (of_mem_rowCells here).1
        omega
      · have rest := ih below
        omega

theorem map_item_rowCells (row start : ℕ) (items : List α) :
    (rowCells width row start items).map Cell.item = items := by
  induction items generalizing start with
  | nil => rfl
  | cons item items ih => simp [rowCells, ih]

theorem map_item_cells (row : ℕ) (rows : List (List α)) :
    (cells width row rows).map Cell.item = rows.flatten := by
  induction rows generalizing row with
  | nil => rfl
  | cons items rows ih => simp [cells, ih, map_item_rowCells]

/-- A cell comes before another one when it is in an earlier row, or to the left of it. -/
def Precedes (width : α → ℕ) (first second : Cell α) : Prop :=
  first.row < second.row ∨
    (first.row = second.row ∧ first.start + width first.item ≤ second.start)

theorem pairwise_rowCells (row start : ℕ) (items : List α) :
    (rowCells width row start items).Pairwise (Precedes width) := by
  induction items generalizing start with
  | nil => exact List.Pairwise.nil
  | cons item items ih =>
      apply List.Pairwise.cons
      · intro cell later
        have rest := of_mem_rowCells later
        exact Or.inr ⟨rest.1.symm, rest.2⟩
      · exact ih _

theorem pairwise_cells (row : ℕ) (rows : List (List α)) :
    (cells width row rows).Pairwise (Precedes width) := by
  induction rows generalizing row with
  | nil => exact List.Pairwise.nil
  | cons items rows ih =>
      apply List.pairwise_append.2
      refine ⟨pairwise_rowCells row 0 items, ih (row + 1), ?_⟩
      intro cell here other below
      have same := (of_mem_rowCells here).1
      have rest := (of_mem_cells below).1
      left
      omega

/-- The first item has the first cell. -/
theorem cells_fill_eq_cons (row : ℕ) (first : α) (current items : List α) :
    ∃ later, cells width row (fill width limit (first :: current) items) =
      ⟨row, 0, first⟩ :: later := by
  induction items generalizing current with
  | nil => exact ⟨_, rfl⟩
  | cons item items ih =>
      simp only [fill]
      split
      · exact ih (current ++ [item])
      · exact ⟨_, rfl⟩

/-- The last item is in the last row. -/
theorem exists_last_cell (row : ℕ) {current items : List α} {last : α}
    (ends : (current ++ items).getLast? = some last) :
    ∃ cell ∈ cells width row (fill width limit current items),
      cell.row + 1 = row + (fill width limit current items).length ∧ cell.item = last := by
  induction items generalizing row current with
  | nil =>
      rw [List.append_nil] at ends
      rcases List.getLast?_eq_some_iff.1 ends with ⟨front, rfl⟩
      refine ⟨⟨row, 0 + total width front, last⟩, ?_, by simp [fill], rfl⟩
      simp [fill, cells, rowCells_append, rowCells]
  | cons item items ih =>
      simp only [fill]
      split
      · exact ih row (by simpa using ends)
      · have later : ([item] ++ items).getLast? = some last := by
          simpa [List.getLast?_append] using ends
        rcases ih (row + 1) later with ⟨cell, member, bottom, same⟩
        refine ⟨cell, List.mem_append_right _ member, ?_, same⟩
        rw [List.length_cons]
        omega

end GreedyRows
