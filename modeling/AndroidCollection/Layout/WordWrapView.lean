import AndroidCollection.Java.Text

/-!
# A view which wraps its children

`WordWrapView` measures its children without a limit and lays them out from left
to right, in a new row when the next one does not fit. Both passes break rows with
the same code, but measuring does it at the whole width and laying out at the width
inside the padding. A row has no height of its own: each child is put at its row
number times its own height. A child which is too wide gets the whole width, and
if it is a text it is cut first, to a number of characters which is computed once.

Sizes are those of views on a screen, whose products are far from the range of an
`int`, so they are integers.
-/

namespace AndroidCollection.Layout

open Java

def TEXT_MARGIN_HOR : ℤ :=
  0

def TEXT_MARGIN_VERTICAL : ℤ :=
  0

/-- A child after it has been measured, with its text if it is a `TextView`. -/
structure Child where
  measuredWidth : ℕ
  measuredHeight : ℕ
  width_pos : 0 < measuredWidth
  height_pos : 0 < measuredHeight
  text : Option JString := none

/-- What `layout` gets. -/
structure Rect where
  left : ℤ
  top : ℤ
  right : ℤ
  bottom : ℤ
deriving DecidableEq

/-- A child after it has been laid out, and the text which has been set. -/
structure Placed where
  rect : Rect
  text : Option JString

/-- The fields, with what the superclass knows of the padding. -/
structure WordWrapView where
  num : ℤ := 0
  foldRow : ℕ := 1
  status : Bool := false
  canExpandFold : Bool := false
  minHeight : ℤ := 0
  paddingLeft : ℕ := 0
  paddingTop : ℕ := 0
  paddingRight : ℕ := 0
  paddingBottom : ℕ := 0

/-- The right edge of the next child and its row, which both passes compute alike. -/
def nextSlot (available : ℤ) (index : ℕ) (x rows : ℤ) (width : ℕ) : ℤ × ℤ :=
  let x := x + (width + TEXT_MARGIN_HOR)
  if x > available - TEXT_MARGIN_HOR ∧ index ≠ 0 then (width + TEXT_MARGIN_HOR, rows + 1)
  else (x, rows)

/-! ## Measuring -/

namespace WordWrapView

variable (self : WordWrapView)

/-- The loop of `onMeasure`, from the number of rows and the height so far. -/
def measureFrom (actualWidth : ℤ) : ℕ → ℤ → ℤ → ℤ → List Child → ℤ × ℤ
  | _, _, rows, y, [] => (rows, y)
  | index, x, rows, _, child :: children =>
      let slot := nextSlot actualWidth index x rows child.measuredWidth
      let y := (if self.status then slot.2 else self.foldRow) *
        (child.measuredHeight + TEXT_MARGIN_VERTICAL)
      measureFrom actualWidth (index + 1) slot.1 slot.2 y children

/-- The view afterwards, and its measured width and height. -/
def onMeasure (specWidth : ℕ) (children : List Child) : WordWrapView × ℤ × ℤ :=
  let measured := self.measureFrom specWidth 0 0 1 0 children
  ({ self with canExpandFold := measured.1 > self.foldRow }, specWidth,
    if children = [] then self.minHeight else measured.2 + TEXT_MARGIN_VERTICAL)

/-! ## Laying out -/

/-- The text of a child which is too wide, and the number of characters; nothing when `substring`
throws. -/
def cut (autualWidth num : ℤ) (width : ℕ) (text : JString) : Option (ℤ × JString) :=
  let num :=
    if num = 0 then
      (text.length * (autualWidth - 2 * TEXT_MARGIN_HOR)).tdiv width - 1
    else num
  if 0 ≤ num ∧ num ≤ text.length then
    some (num, text.take num.toNat ++ ascii ['.', '.', '.'])
  else none

/-- The number of characters and the text after a child which is too wide. -/
def shorten (autualWidth num : ℤ) (view : Child) : Option (ℤ × Option JString) :=
  match view.text with
  | none => some (num, none)
  | some text =>
      (cut autualWidth num view.measuredWidth text).map fun shown => (shown.1, some shown.2)

/-- The child at its row, with its right edge at `x` inside the padding. -/
def place (x rows width : ℤ) (view : Child) (text : Option JString) : Placed :=
  let y := rows * (view.measuredHeight + TEXT_MARGIN_VERTICAL)
  ⟨⟨x + self.paddingLeft - width, y - view.measuredHeight, x + self.paddingLeft, y⟩, text⟩

/-- The loop of `onLayout`, which ends with the number of characters for a text. -/
def layoutFrom (autualWidth : ℤ) : ℕ → ℤ → ℤ → ℤ → List Child → Option (List Placed × ℤ)
  | _, _, _, num, [] => some ([], num)
  | index, x, rows, num, view :: views =>
      let slot := nextSlot autualWidth index x rows view.measuredWidth
      if slot.1 > autualWidth - TEXT_MARGIN_HOR then
        let x := autualWidth - TEXT_MARGIN_HOR
        let width := autualWidth - 2 * TEXT_MARGIN_HOR
        (shorten autualWidth num view).bind fun shown =>
          (layoutFrom autualWidth (index + 1) x slot.2 shown.1 views).map fun later =>
            (self.place x slot.2 width view shown.2 :: later.1, later.2)
      else
        (layoutFrom autualWidth (index + 1) slot.1 slot.2 num views).map fun later =>
          (self.place slot.1 slot.2 view.measuredWidth view view.text :: later.1, later.2)

/-- The view afterwards and its children; nothing when an exception ends the method. -/
def onLayout (l _t r _b : ℤ) (children : List Child) : Option (WordWrapView × List Placed) :=
  let autualWidth := r - l - self.paddingLeft - self.paddingRight
  (self.layoutFrom autualWidth 0 0 1 self.num children).map fun laid =>
    ({ self with num := laid.2 }, laid.1)

/-- Measuring, and laying out in the measured size with the given position. -/
def measureAndLayout (specWidth : ℕ) (l t : ℤ) (children : List Child) :
    (ℤ × ℤ) × Option (WordWrapView × List Placed) :=
  let measured := self.onMeasure specWidth children
  (measured.2, measured.1.onLayout l t (l + measured.2.1) (t + measured.2.2) children)

def expand : WordWrapView :=
  if self.canExpandFold then { self with status := true } else self

def fold : WordWrapView :=
  if self.canExpandFold then { self with status := false } else self

end WordWrapView

end AndroidCollection.Layout
