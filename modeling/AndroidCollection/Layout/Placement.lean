import AndroidCollection.Layout.WordWrapView
import AndroidCollection.Lib.GreedyRows
import Mathlib.Tactic.Ring

/-!
# Where the children are

Both loops divide the children greedily into rows, so a child has a cell, which is
a row and an offset in it, and its rectangle follows from the cell. Two children
of one row never overlap, and no child leaves the width inside the padding. What
is left is a matter of heights: the padding above and below is never kept free,
the row count which was measured may be too small, and rows of different heights
may overlap.
-/

namespace AndroidCollection.Layout

open Java GreedyRows

/-- The rectangle of a child in its cell, in a view with the given left padding. -/
def cellRect (paddingLeft available : ℤ) (cell : Cell Child) : Rect where
  left := paddingLeft + cell.start
  top := cell.row * cell.item.measuredHeight
  right := paddingLeft + min (cell.start + cell.item.measuredWidth : ℤ) available
  bottom := (cell.row + 1) * cell.item.measuredHeight

/-- The rows at a width. -/
abbrev rowsAt (available : ℤ) (children : List Child) : List (List Child) :=
  rows Child.measuredWidth available children

/-! ## The loops divide greedily -/

/-- Where both loops put the next child: in the row begun, or in a new one. -/
theorem nextSlot_succ (available : ℤ) (index x rows : ℕ) (child : Child) :
    nextSlot available (index + 1) x (rows + 1) child.measuredWidth =
      if (x + child.measuredWidth : ℤ) ≤ available then
        ((x + child.measuredWidth : ℤ), (rows + 1 : ℤ))
      else ((child.measuredWidth : ℤ), (rows + 2 : ℤ)) := by
  simp only [nextSlot, TEXT_MARGIN_HOR, add_zero, sub_zero, gt_iff_lt, ne_eq, Nat.add_eq_zero_iff,
    one_ne_zero, and_false, not_false_eq_true, and_true]
  split
  · next wraps => rw [if_neg (not_le.2 wraps), add_assoc, one_add_one_eq_two]
  · next fits => rw [if_pos (not_lt.1 fits)]

/-- A right edge which has been cut to the width gives the same slot. -/
theorem nextSlot_min (available : ℤ) (index x rows : ℕ) (child : Child) :
    nextSlot available (index + 1) (min (x : ℤ) available) (rows + 1) child.measuredWidth =
      nextSlot available (index + 1) x (rows + 1) child.measuredWidth := by
  have positive := child.width_pos
  rcases le_total (x : ℤ) available with within | beyond
  · rw [min_eq_left within]
  · rw [min_eq_right beyond]
    have first : (available + child.measuredWidth : ℤ) > available := by omega
    have second : (x + child.measuredWidth : ℤ) > available := by omega
    simp [nextSlot, TEXT_MARGIN_HOR, first, second]

variable {view : WordWrapView}

/-- The loop of `onMeasure` in an expanded view counts the rows, and has the height from the last
child which it has met. -/
theorem measureFrom_eq (expanded : view.status = true) (specWidth : ℤ) (index row : ℕ) (y : ℤ)
    (current children : List Child) {latest last : Child}
    (begun : current.getLast? = some latest) (height : y = (row + 1) * latest.measuredHeight)
    (ends : (current ++ children).getLast? = some last) :
    view.measureFrom specWidth (index + 1) (total Child.measuredWidth current) (row + 1) y
        children =
      ((row + (fill Child.measuredWidth specWidth current children).length : ℤ),
        (row + (fill Child.measuredWidth specWidth current children).length : ℤ) *
          last.measuredHeight) := by
  induction children generalizing index row y current latest with
  | nil =>
      rw [List.append_nil, begun] at ends
      cases ends
      simp [WordWrapView.measureFrom, fill, height]
  | cons child children ih =>
      simp only [WordWrapView.measureFrom, nextSlot_succ, fill, expanded, if_true,
        TEXT_MARGIN_VERTICAL, add_zero]
      split
      · have next := ih (index + 1) row ((row + 1) * child.measuredHeight) (current ++ [child])
          (by simp) rfl (by simpa using ends)
        simpa using next
      · have height' : ((row + 2) * child.measuredHeight : ℤ) =
            ((row + 1 : ℕ) + 1) * child.measuredHeight := by
          push_cast
          ring
        have next := ih (index + 1) (row + 1) _ [child] List.getLast?_singleton height'
          (by simpa [List.getLast?_append] using ends)
        have rows : ((row + 1 : ℕ) + 1 : ℤ) = row + 2 := by
          push_cast
          ring
        have count : ((row + 1 : ℕ) : ℤ) +
            (fill Child.measuredWidth specWidth [child] children).length =
              row + (current :: fill Child.measuredWidth specWidth [child] children).length := by
          push_cast [List.length_cons]
          ring
        rw [rows, count] at next
        simpa using next

theorem measuredHeight_eq (expanded : view.status = true) (specWidth : ℕ) {children : List Child}
    {last : Child} (ends : children.getLast? = some last) :
    (view.onMeasure specWidth children).2.2 =
      (rowsAt specWidth children).length * last.measuredHeight := by
  cases children with
  | nil => cases ends
  | cons child children =>
      have measured := measureFrom_eq expanded specWidth 0 0 _ [child] children
        List.getLast?_singleton rfl ends
      have first : view.measureFrom specWidth 0 0 1 0 (child :: children) =
          view.measureFrom specWidth (0 + 1) (total Child.measuredWidth [child]) ((0 : ℕ) + 1)
            (((0 : ℕ) + 1) * child.measuredHeight) children := by
        simp [WordWrapView.measureFrom, nextSlot, expanded, TEXT_MARGIN_HOR,
          TEXT_MARGIN_VERTICAL]
      simp [WordWrapView.onMeasure, first.trans measured, TEXT_MARGIN_VERTICAL, rows]

/-- What is shown of a child's text, and the number of characters afterwards. -/
def shown (available num : ℤ) (child : Child) : Option (ℤ × Option JString) :=
  if (child.measuredWidth : ℤ) ≤ available then some (num, child.text)
  else WordWrapView.shorten available num child

/-- The child in the cell which the slot gives it, and the rest of the loop. -/
theorem layoutFrom_cons {available x rows : ℤ} {index row start : ℕ} {child : Child}
    (slot : nextSlot available index x rows child.measuredWidth =
      ((start + child.measuredWidth : ℤ), (row + 1 : ℤ)))
    (greedy : (start + child.measuredWidth : ℤ) ≤ available ∨ start = 0) (num : ℤ)
    (children : List Child) :
    view.layoutFrom available index x rows num (child :: children) =
      (shown available num child).bind fun first =>
        (view.layoutFrom available (index + 1) (min (start + child.measuredWidth : ℤ) available)
            (row + 1) first.1 children).map fun later =>
          (⟨cellRect view.paddingLeft available ⟨row, start, child⟩, first.2⟩ :: later.1,
            later.2) := by
  simp only [WordWrapView.layoutFrom, slot, TEXT_MARGIN_HOR, sub_zero, mul_zero]
  by_cases fits : (start + child.measuredWidth : ℤ) ≤ available
  · have alone : (child.measuredWidth : ℤ) ≤ available := by omega
    rw [if_neg (not_lt.2 fits), shown, if_pos alone, Option.bind_some, min_eq_left fits]
    have placed : view.place (start + child.measuredWidth) (row + 1) child.measuredWidth child
        child.text = ⟨cellRect view.paddingLeft available ⟨row, start, child⟩, child.text⟩ := by
      simp only [WordWrapView.place, cellRect, TEXT_MARGIN_VERTICAL, min_eq_left fits]
      congr 2 <;> ring
    simp only [placed]
  · have first : start = 0 := greedy.resolve_left fits
    subst first
    have wide : ¬(child.measuredWidth : ℤ) ≤ available := by simpa using fits
    have beyond := (not_le.1 fits).le
    rw [if_pos (not_le.1 fits), shown, if_neg wide, min_eq_right beyond]
    have placed (text : Option JString) : view.place available (row + 1) available child text =
        ⟨cellRect view.paddingLeft available ⟨row, 0, child⟩, text⟩ := by
      simp only [WordWrapView.place, cellRect, TEXT_MARGIN_VERTICAL, min_eq_right beyond]
      congr 2 <;> push_cast <;> ring
    simp only [placed]

/-- All children with their cells in order; what is shown of their texts is decided by their widths
alone. -/
def shownAll (available : ℤ) : ℤ → List Child → Option (List (Option JString) × ℤ)
  | num, [] => some ([], num)
  | num, child :: children =>
      (shown available num child).bind fun first =>
        (shownAll available first.1 children).map fun later => (first.2 :: later.1, later.2)

/-- The children with rectangles from their cells and the texts which are shown. -/
def placeCells (paddingLeft available : ℤ) (cells : List (Cell Child))
    (texts : List (Option JString)) : List Placed :=
  List.zipWith (fun cell text => ⟨cellRect paddingLeft available cell, text⟩) cells texts

/-- One more child in front of what the loop places. -/
theorem place_cons {available num : ℤ} {child : Child} {children : List Child}
    {cell : Cell Child} {later : List (Cell Child)} {rest : ℤ → Option (List Placed × ℤ)}
    (places : ∀ num, rest num = (shownAll available num children).map fun texts =>
      (placeCells view.paddingLeft available later texts.1, texts.2)) :
    ((shown available num child).bind fun first =>
        (rest first.1).map fun later =>
          (⟨cellRect view.paddingLeft available cell, first.2⟩ :: later.1, later.2)) =
      (shownAll available num (child :: children)).map fun texts =>
        (placeCells view.paddingLeft available (cell :: later) texts.1, texts.2) := by
  simp only [shownAll]
  cases shown available num child with
  | none => rfl
  | some first =>
      simp only [Option.bind_some, places, Option.map_map]
      rfl

/-- From within a row, the loop of `onLayout` places the cells of what follows in the rows. -/
theorem layoutFrom_eq (view : WordWrapView) (available : ℤ) (index row : ℕ)
    (current children : List Child) :
    ∃ later, cells Child.measuredWidth row
        (fill Child.measuredWidth available current children) =
          rowCells Child.measuredWidth row 0 current ++ later ∧
      ∀ num, view.layoutFrom available (index + 1)
          (min (total Child.measuredWidth current : ℤ) available) (row + 1) num children =
        (shownAll available num children).map fun texts =>
          (placeCells view.paddingLeft available later texts.1, texts.2) := by
  induction children generalizing index row current with
  | nil =>
      refine ⟨[], by simp [fill, cells], ?_⟩
      simp [WordWrapView.layoutFrom, shownAll, placeCells]
  | cons child children ih =>
      have uncut := nextSlot_min available index (total Child.measuredWidth current) row child
      have slot := uncut.trans
        (nextSlot_succ available index (total Child.measuredWidth current) row child)
      by_cases fits : (total Child.measuredWidth current + child.measuredWidth : ℤ) ≤ available
      · rw [if_pos fits] at slot
        rcases ih (index + 1) row (current ++ [child]) with ⟨later, divided, places⟩
        refine ⟨⟨row, total Child.measuredWidth current, child⟩ :: later, ?_, ?_⟩
        · rw [fill, if_pos fits, divided, rowCells_append]
          simp [rowCells]
        · intro num
          rw [layoutFrom_cons slot (Or.inl fits)]
          simp only [total_append, total_cons, total_nil, add_zero] at places
          push_cast at places
          exact place_cons places
      · rw [if_neg fits] at slot
        have alone : nextSlot available (index + 1)
            (min (total Child.measuredWidth current : ℤ) available) (row + 1)
            child.measuredWidth =
              (((0 : ℕ) + child.measuredWidth : ℤ), ((row + 1 : ℕ) + 1 : ℤ)) := by
          rw [slot]
          simp [add_assoc, one_add_one_eq_two]
        rcases ih (index + 1) (row + 1) [child] with ⟨later, divided, places⟩
        refine ⟨⟨row + 1, 0, child⟩ :: later, ?_, ?_⟩
        · rw [fill, if_neg fits, cells, divided]
          simp [rowCells]
        · intro num
          rw [layoutFrom_cons alone (Or.inr rfl)]
          simp only [total_cons, total_nil, add_zero] at places
          rw [Nat.cast_zero, zero_add]
          exact place_cons places

/-- The whole loop places all cells. -/
theorem onLayout_eq (l t r b : ℤ) (children : List Child) :
    view.onLayout l t r b children =
      (shownAll (r - l - view.paddingLeft - view.paddingRight) view.num children).map fun texts =>
        ({ view with num := texts.2 },
          placeCells view.paddingLeft (r - l - view.paddingLeft - view.paddingRight)
            (cells Child.measuredWidth 0
              (rowsAt (r - l - view.paddingLeft - view.paddingRight) children)) texts.1) := by
  simp only [WordWrapView.onLayout]
  generalize r - l - view.paddingLeft - view.paddingRight = available
  cases children with
  | nil => rfl
  | cons child children =>
      have slot : nextSlot available 0 0 1 child.measuredWidth =
          (((0 : ℕ) + child.measuredWidth : ℤ), ((0 : ℕ) + 1 : ℤ)) := by
        simp [nextSlot, TEXT_MARGIN_HOR]
      rcases layoutFrom_eq view available 0 0 [child] children with ⟨later, divided, places⟩
      have first : view.layoutFrom available 0 0 1 view.num (child :: children) = _ :=
        layoutFrom_cons slot (Or.inr rfl) view.num children
      simp only [total_cons, total_nil, Nat.cast_zero, add_zero, zero_add] at first places
      rw [first.trans (place_cons places), rowsAt, rows, divided, Option.map_map]
      rfl

end AndroidCollection.Layout
