import AndroidCollection.Layout.Placement

/-!
# When the children fit

The rectangles of the children are to be disjoint and inside the padding. That is
so for children of one height in a view without padding; in general it is a
condition on the cells which the greedy division gives the children.
-/

namespace AndroidCollection.Layout

open Java GreedyRows

namespace Rect

/-- The rectangles have no inner point in common. -/
def Disjoint (first second : Rect) : Prop :=
  first.right ≤ second.left ∨ second.right ≤ first.left ∨
    first.bottom ≤ second.top ∨ second.bottom ≤ first.top

structure Inside (inner outer : Rect) : Prop where
  left : outer.left ≤ inner.left
  top : outer.top ≤ inner.top
  right : inner.right ≤ outer.right
  bottom : inner.bottom ≤ outer.bottom

end Rect

/-- The view without its padding. -/
def contentArea (view : WordWrapView) (width height : ℤ) : Rect :=
  ⟨view.paddingLeft, view.paddingTop, width - view.paddingRight, height - view.paddingBottom⟩

/-- After both passes each child has a rectangle, the rectangles are disjoint, and they are inside
the padding of the measured size. -/
def WellLaid (view : WordWrapView) (specWidth : ℕ) (l t : ℤ) (children : List Child) : Prop :=
  ∃ size after placed, view.measureAndLayout specWidth l t children = (size, some (after, placed)) ∧
    placed.length = children.length ∧
    placed.Pairwise (fun first second => first.rect.Disjoint second.rect) ∧
    ∀ child ∈ placed, child.rect.Inside (contentArea view size.1 size.2)

/-! ## The condition -/

/-- The width which is laid out. -/
def available (view : WordWrapView) (specWidth : ℕ) : ℤ :=
  specWidth - view.paddingLeft - view.paddingRight

/-- Each text which is wider than the view is long enough for the number of characters which are
kept of it. The number is computed for the first one, and again as long as it is zero. -/
def TextsFit (available : ℤ) : ℤ → List Child → Prop
  | _, [] => True
  | num, child :: children =>
      match child.text with
      | none => TextsFit available num children
      | some text =>
          if (child.measuredWidth : ℤ) ≤ available then TextsFit available num children
          else if num = 0 then
            (child.measuredWidth : ℤ) ≤ text.length * available ∧
              TextsFit available (text.length * available / child.measuredWidth - 1) children
          else
            0 ≤ num ∧ num ≤ text.length ∧ TextsFit available num children

/-- Two children in different rows are beside each other, or one is above the other with its height
counted in its own row. -/
def Apart (available : ℤ) (first second : Cell Child) : Prop :=
  first.row < second.row →
    min (first.start + first.item.measuredWidth : ℤ) available ≤ second.start ∨
      min (second.start + second.item.measuredWidth : ℤ) available ≤ first.start ∨
      (first.row + 1) * first.item.measuredHeight ≤ second.row * second.item.measuredHeight ∨
      (second.row + 1) * second.item.measuredHeight ≤ first.row * first.item.measuredHeight

/-- The texts can be cut, there is no padding above or below, there are as many rows at the whole
width as there are inside the padding, no child reaches below the last one, and children of
different rows are apart. -/
structure Fits (view : WordWrapView) (specWidth : ℕ) (children : List Child) : Prop where
  texts : TextsFit (available view specWidth) view.num children
  unpadded : children ≠ [] → view.paddingTop = 0 ∧ view.paddingBottom = 0
  sameRows : (rowsAt specWidth children).length =
    (rowsAt (available view specWidth) children).length
  above : ∀ last, children.getLast? = some last →
    ∀ cell ∈ cells Child.measuredWidth 0 (rowsAt (available view specWidth) children),
      (cell.row + 1) * cell.item.measuredHeight ≤
        (rowsAt (available view specWidth) children).length * last.measuredHeight
  apart : (cells Child.measuredWidth 0 (rowsAt (available view specWidth) children)).Pairwise
    (Apart (available view specWidth))

/-! ## Texts -/

/-- A quotient which is cut off towards zero is positive only when the plain one is. -/
theorem tdiv_le_zero {dividend divisor : ℤ} (small : dividend < divisor) (positive : 0 < divisor) :
    dividend.tdiv divisor ≤ 0 := by
  rcases le_or_gt 0 dividend with nonneg | negative
  · exact (Int.tdiv_eq_zero_of_lt nonneg small).le
  · have opposite : 0 ≤ (-dividend).tdiv divisor :=
      Int.tdiv_nonneg (by omega) positive.le
    rw [Int.neg_tdiv] at opposite
    omega

/-- The first text which is too wide can be cut when at least one character is kept. -/
theorem cut_zero {width : ℕ} (positive : 0 < width) {room : ℤ} (wide : room < width)
    (text : JString) :
    WordWrapView.cut room 0 width text =
      if (width : ℤ) ≤ text.length * room then
        some (text.length * room / width - 1,
          text.take (text.length * room / width - 1).toNat ++ ascii ['.', '.', '.'])
      else none := by
  have divisor : (0 : ℤ) < width := by exact_mod_cast positive
  simp only [WordWrapView.cut, TEXT_MARGIN_HOR, mul_zero, sub_zero, if_true]
  by_cases enough : (width : ℤ) ≤ text.length * room
  · have quotient : (text.length * room : ℤ).tdiv width = text.length * room / width :=
      Int.tdiv_eq_ediv_of_nonneg (by omega)
    have atLeast : 1 ≤ (text.length * room : ℤ) / width :=
      Int.le_ediv_of_mul_le divisor (by omega)
    have atMost : (text.length * room : ℤ) / width ≤ text.length := by
      apply Int.ediv_le_of_le_mul divisor
      exact mul_le_mul_of_nonneg_left wide.le (Int.natCast_nonneg _)
    rw [if_pos enough, quotient, if_pos (by omega)]
  · have quotient := tdiv_le_zero (not_le.1 enough) divisor
    rw [if_neg enough, if_neg (by omega)]

theorem cut_of_ne_zero {num : ℤ} (computed : num ≠ 0) (room : ℤ) (width : ℕ) (text : JString) :
    WordWrapView.cut room num width text =
      if 0 ≤ num ∧ num ≤ text.length then
        some (num, text.take num.toNat ++ ascii ['.', '.', '.'])
      else none := by
  simp only [WordWrapView.cut, if_neg computed]

theorem shownAll_isSome_cons {room num : ℤ} {child : Child} {children : List Child}
    {shownNum : ℤ} {text : Option JString} (first : shown room num child = some (shownNum, text)) :
    (shownAll room num (child :: children)).isSome = (shownAll room shownNum children).isSome := by
  simp [shownAll, first]

theorem shownAll_isSome_iff (room num : ℤ) (children : List Child) :
    (shownAll room num children).isSome = true ↔ TextsFit room num children := by
  induction children generalizing num with
  | nil => simp [shownAll, TextsFit]
  | cons child children ih =>
      cases given : child.text with
      | none =>
          have first : shown room num child = some (num, none) := by
            simp [shown, WordWrapView.shorten, given]
          rw [shownAll_isSome_cons first, ih, TextsFit, given]
      | some text =>
          rw [TextsFit, given]
          dsimp only
          split
          · next fits =>
              have first : shown room num child = some (num, some text) := by
                simp [shown, fits, given]
              rw [shownAll_isSome_cons first, ih]
          · next wide =>
              have shortened : shown room num child =
                  (WordWrapView.cut room num child.measuredWidth text).map
                    fun shown => (shown.1, some shown.2) := by
                simp [shown, wide, WordWrapView.shorten, given]
              split
              · next uncomputed =>
                  subst uncomputed
                  rw [cut_zero child.width_pos (not_le.1 wide)] at shortened
                  split at shortened
                  · next enough =>
                      rw [shownAll_isSome_cons shortened, ih]
                      exact (and_iff_right enough).symm
                  · next short =>
                      simp [shownAll, shortened, short]
              · next computed =>
                  rw [cut_of_ne_zero computed] at shortened
                  split at shortened
                  · next within =>
                      rw [shownAll_isSome_cons shortened, ih, ← and_assoc]
                      exact (and_iff_right within).symm
                  · next outside =>
                      rw [← and_assoc]
                      simp [shownAll, shortened, outside]

theorem textsFit_of_narrow {room num : ℤ} {children : List Child}
    (narrow : ∀ child ∈ children, (child.measuredWidth : ℤ) ≤ room) :
    TextsFit room num children := by
  induction children generalizing num with
  | nil => trivial
  | cons child children ih =>
      have rest : TextsFit room num children :=
        ih fun later member => narrow later (List.mem_cons_of_mem _ member)
      rw [TextsFit]
      cases child.text with
      | none => exact rest
      | some text => simpa [narrow child List.mem_cons_self] using rest

theorem length_shownAll {room num : ℤ} {children : List Child}
    {texts : List (Option JString) × ℤ} (shows : shownAll room num children = some texts) :
    texts.1.length = children.length := by
  induction children generalizing num texts with
  | nil =>
      cases shows
      rfl
  | cons child children ih =>
      simp only [shownAll, Option.bind_eq_some_iff, Option.map_eq_some_iff] at shows
      rcases shows with ⟨first, _, later, rest, rfl⟩
      simp [ih rest]

/-! ## Rectangles -/

theorem map_rect_placeCells {paddingLeft room : ℤ} {cells : List (Cell Child)}
    {texts : List (Option JString)} (lengths : cells.length = texts.length) :
    (placeCells paddingLeft room cells texts).map Placed.rect =
      cells.map (cellRect paddingLeft room) := by
  induction cells generalizing texts with
  | nil => rfl
  | cons cell cells ih =>
      cases texts with
      | nil => cases lengths
      | cons text texts =>
          simp only [placeCells, List.zipWith_cons_cons, List.map_cons, List.cons.injEq, true_and]
          exact ih (Nat.succ.inj lengths)

theorem forall_rect_iff {paddingLeft room : ℤ} {placed : List Placed} {cells : List (Cell Child)}
    (rects : placed.map Placed.rect = cells.map (cellRect paddingLeft room)) (outer : Rect) :
    (∀ child ∈ placed, child.rect.Inside outer) ↔
      ∀ cell ∈ cells, (cellRect paddingLeft room cell).Inside outer := by
  have all : (∀ rect ∈ placed.map Placed.rect, rect.Inside outer) ↔
      ∀ rect ∈ cells.map (cellRect paddingLeft room), rect.Inside outer := by
    rw [rects]
  simpa only [List.forall_mem_map] using all

/-- Cells of one row give disjoint rectangles, and other cells when they are apart. -/
theorem disjoint_cellRect_iff {paddingLeft room : ℤ} {first second : Cell Child}
    (precedes : Precedes Child.measuredWidth first second) :
    (cellRect paddingLeft room first).Disjoint (cellRect paddingLeft room second) ↔
      Apart room first second := by
  rcases precedes with above | ⟨same, beside⟩
  · have apart : Apart room first second ↔ _ := forall_prop_of_true above
    rw [apart, Rect.Disjoint]
    simp only [cellRect, add_le_add_iff_left]
    norm_cast
  · apply iff_of_true
    · left
      have edge : (first.start + first.item.measuredWidth : ℤ) ≤ second.start := by
        exact_mod_cast beside
      simp only [cellRect, add_le_add_iff_left]
      exact (min_le_left _ _).trans edge
    · intro above
      omega

variable {view : WordWrapView} {specWidth : ℕ} {children : List Child}

/-- The cells of the children inside the padding. -/
abbrev cellsOf (view : WordWrapView) (specWidth : ℕ) (children : List Child) : List (Cell Child) :=
  cells Child.measuredWidth 0 (rowsAt (available view specWidth) children)

theorem measureAndLayout_eq (l t : ℤ) :
    view.measureAndLayout specWidth l t children =
      ((view.onMeasure specWidth children).2,
        (shownAll (available view specWidth) view.num children).map fun texts =>
          ({ (view.onMeasure specWidth children).1 with num := texts.2 },
            placeCells view.paddingLeft (available view specWidth)
              (cellsOf view specWidth children) texts.1)) := by
  have width : l + (view.onMeasure specWidth children).2.1 - l -
      (view.onMeasure specWidth children).1.paddingLeft -
      (view.onMeasure specWidth children).1.paddingRight = available view specWidth := by
    simp only [WordWrapView.onMeasure, available]
    ring
  simp only [WordWrapView.measureAndLayout, onLayout_eq, width]
  rfl

/-- A cell never leaves the width inside the padding. -/
theorem inside_cellRect_iff {height : ℤ} {cell : Cell Child} :
    (cellRect view.paddingLeft (available view specWidth) cell).Inside
        (contentArea view specWidth height) ↔
      (view.paddingTop : ℤ) ≤ cell.row * cell.item.measuredHeight ∧
        ((cell.row + 1) * cell.item.measuredHeight : ℤ) ≤ height - view.paddingBottom := by
  constructor
  · intro inside
    exact ⟨inside.top, inside.bottom⟩
  · rintro ⟨top, bottom⟩
    refine ⟨?_, top, ?_, bottom⟩
    · simp [cellRect, contentArea]
    · have edge := min_le_right (cell.start + cell.item.measuredWidth : ℤ)
        (available view specWidth)
      simp only [cellRect, contentArea, available] at edge ⊢
      omega

theorem available_le : available view specWidth ≤ specWidth := by
  simp only [available]
  omega

/-- The first child is at the top of the view. -/
theorem exists_first_cell (view : WordWrapView) (specWidth : ℕ) (given : children ≠ []) :
    ∃ cell ∈ cellsOf view specWidth children, cell.row = 0 := by
  cases children with
  | nil => exact absurd rfl given
  | cons child children =>
      have divided : ∃ later, cellsOf view specWidth (child :: children) =
          ⟨0, 0, child⟩ :: later := cells_fill_eq_cons 0 child [] children
      rcases divided with ⟨later, divided⟩
      refine ⟨⟨0, 0, child⟩, ?_, rfl⟩
      rw [divided]
      exact List.mem_cons_self

/-- The last child is in the last row. -/
theorem exists_last_cell_rowsAt (view : WordWrapView) (specWidth : ℕ) {last : Child}
    (ends : children.getLast? = some last) :
    ∃ cell ∈ cellsOf view specWidth children,
      cell.row + 1 = (rowsAt (available view specWidth) children).length ∧ cell.item = last := by
  cases children with
  | nil => cases ends
  | cons child children =>
      have lowest : ∃ cell ∈ cellsOf view specWidth (child :: children),
          cell.row + 1 = 0 + (rowsAt (available view specWidth) (child :: children)).length ∧
            cell.item = last := exists_last_cell 0 ends
      simpa using lowest

/-- Rows which are as high as fewer rows with something below them are no more rows. -/
theorem eq_of_height_le {fewer rows height below : ℕ} (positive : 0 < height)
    (le : fewer ≤ rows) (heights : (rows * height : ℤ) ≤ fewer * height - below) :
    fewer = rows ∧ below = 0 := by
  have reaches : rows * height + below ≤ fewer * height := by
    apply Int.ofNat_le.1
    push_cast
    omega
  have same : rows ≤ fewer := Nat.le_of_mul_le_mul_right (by omega) positive
  rcases Nat.le_antisymm le same with rfl
  exact ⟨rfl, by omega⟩

/-- All children are inside when nothing has to be kept free above or below and the last child is
the lowest one. -/
theorem all_inside_iff (expanded : view.status = true) :
    (∀ cell ∈ cellsOf view specWidth children,
        (cellRect view.paddingLeft (available view specWidth) cell).Inside
          (contentArea view specWidth (view.onMeasure specWidth children).2.2)) ↔
      (children ≠ [] → view.paddingTop = 0 ∧ view.paddingBottom = 0) ∧
        (rowsAt specWidth children).length =
          (rowsAt (available view specWidth) children).length ∧
        ∀ last, children.getLast? = some last →
          ∀ cell ∈ cellsOf view specWidth children,
            (cell.row + 1) * cell.item.measuredHeight ≤
              (rowsAt (available view specWidth) children).length * last.measuredHeight := by
  simp only [inside_cellRect_iff]
  cases ends : children.getLast? with
  | none =>
      rw [List.getLast?_eq_none_iff] at ends
      subst ends
      simp [cellsOf, rowsAt, rows, cells]
  | some last =>
      have given : children ≠ [] := by
        rintro rfl
        cases ends
      rw [measuredHeight_eq expanded specWidth ends]
      constructor
      · intro inside
        rcases exists_first_cell view specWidth given with ⟨first, member, top⟩
        rcases exists_last_cell_rowsAt view specWidth ends with ⟨lowest, member', bottom, rfl⟩
        have above := (inside first member).1
        have below := (inside lowest member').2
        have fewer : (rowsAt specWidth children).length ≤
            (rowsAt (available view specWidth) children).length :=
          length_rows_le available_le children
        rw [top, Nat.cast_zero, zero_mul] at above
        rw [← bottom] at fewer ⊢
        rcases eq_of_height_le lowest.item.height_pos fewer (by exact_mod_cast below) with
          ⟨sameRows, flush⟩
        refine ⟨fun _ => ⟨by omega, flush⟩, sameRows, ?_⟩
        intro last same cell within
        cases same
        have room := (inside cell within).2
        rw [sameRows, flush, Nat.cast_zero, sub_zero] at room
        exact_mod_cast room
      · rintro ⟨unpadded, sameRows, above⟩ cell member
        have within := above last rfl cell member
        rw [(unpadded given).1, (unpadded given).2, sameRows]
        constructor
        · positivity
        · rw [Nat.cast_zero, sub_zero]
          exact_mod_cast within

theorem length_cellsOf : (cellsOf view specWidth children).length = children.length := by
  rw [← List.length_map Cell.item, map_item_cells, flatten_rows]

/-- Children of one row are always beside each other. -/
theorem pairwise_disjoint_iff :
    ((cellsOf view specWidth children).map
        (cellRect view.paddingLeft (available view specWidth))).Pairwise Rect.Disjoint ↔
      (cellsOf view specWidth children).Pairwise (Apart (available view specWidth)) := by
  have inOrder : (cellsOf view specWidth children).Pairwise (Precedes Child.measuredWidth) :=
    pairwise_cells 0 _
  rw [List.pairwise_map]
  constructor
  · apply List.Pairwise.imp₂ _ inOrder
    intro first second precedes disjoint
    exact (disjoint_cellRect_iff precedes).1 disjoint
  · apply List.Pairwise.imp₂ _ inOrder
    intro first second precedes apart
    exact (disjoint_cellRect_iff precedes).2 apart

/-- Children of one height fit in a view without padding. -/
theorem fits_of_sameHeight (height : ℕ)
    (sameHeight : ∀ child ∈ children, child.measuredHeight = height)
    (sides : view.paddingLeft = 0 ∧ view.paddingRight = 0)
    (ends : view.paddingTop = 0 ∧ view.paddingBottom = 0)
    (narrow : ∀ child ∈ children, child.measuredWidth ≤ specWidth) :
    Fits view specWidth children := by
  have whole : available view specWidth = specWidth := by
    simp [available, sides.1, sides.2]
  have heights : ∀ cell ∈ cellsOf view specWidth children, cell.item.measuredHeight = height := by
    intro cell member
    apply sameHeight
    have item := List.mem_map_of_mem (f := Cell.item) member
    rwa [map_item_cells, flatten_rows] at item
  refine ⟨?_, fun _ => ends, by rw [whole], ?_, ?_⟩
  · rw [whole]
    exact textsFit_of_narrow fun child member => Int.ofNat_le.2 (narrow child member)
  · intro last lowest cell member
    have row := (of_mem_cells member).2
    rw [zero_add] at row
    rw [heights cell member, sameHeight last (List.mem_of_getLast? lowest)]
    exact Nat.mul_le_mul_right height row
  · apply List.Pairwise.imp_of_mem _ (pairwise_cells 0 _)
    intro first second member member' _ above
    right; right; left
    rw [heights first member, heights second member']
    exact Nat.mul_le_mul_right height above

end AndroidCollection.Layout
