import AndroidCollection.Java.Text
import Mathlib.Data.Int.Cast.Defs

/-!
# A view which folds a long text

`ExpandTextView` lays a text out when it is measured for the first time after
`updateText`, and keeps its lines, the number of lines which are visible, and the
heights of the folded and the expanded view. How a text is broken, the measures of its
lines and the widths of texts come from the platform. A width is a `float`: any type
with the operations which the code uses stands for it. The animation which then moves
the height from zero to its new value, and `super.onMeasure`, are left out.
-/

namespace AndroidCollection.Layout

open Java

/-! ## The platform -/

/-- A line of a `StaticLayout`: a part of the text with its measures. -/
structure LayoutLine (F : Type) (text : JString) where
  start : ℕ
  stop : ℕ
  ordered : start ≤ stop
  within : stop ≤ text.length
  top : Int32
  bottom : Int32
  baseline : Int32
  width : F

/-- What the view asks the platform for. -/
structure Typesetting (F : Type) where
  /-- The lines of `new StaticLayout(text, ..)` in the width, which throws if there are none. -/
  staticLayout : (text : JString) → Int32 → Option (List (LayoutLine F text))
  measureText : JString → F

/-! ## The view -/

structure LineText (F : Type) where
  text : JString
  startIndex : Int32
  endIndex : Int32
  topOffset : Int32
  bottomOffset : Int32
  baseLine : Int32
  width : F
  height : Int32
deriving DecidableEq

/-- What the constructors set once; drawables are there or not. -/
structure Attributes where
  maxLines : Int32 := -1
  expandDrawable : Bool := false
  shrinkDrawable : Bool := false
  drawableWidth : Int32 := 14
  drawableHeight : Int32 := 14
  paddingLeft : Int32 := 0
  paddingTop : Int32 := 0
  paddingRight : Int32 := 0
  paddingBottom : Int32 := 0
  clickable : Bool := false

/-- The fields. -/
structure ExpandTextView (F : Type) where
  attributes : Attributes
  lineTexts : List (LineText F) := []
  maxLines : Int32
  targetLine : Int32 := 0
  maxLinesHeight : Int32 := 0
  expandHeight : Int32 := 0
  viewHeight : Int32 := 0
  ellipsizWidth : F
  ellipsizStartX : F
  text : Option JString := none
  shrinkLineText : Option JString := none
  showEllipsizText : Bool := false
  showTipDrawalbe : Bool := false
  needMeasure : Bool := true
  clickable : Bool

variable {F : Type} [IntCast F]

/-- A view after its constructor. -/
def ExpandTextView.create (attributes : Attributes) : ExpandTextView F where
  attributes := attributes
  maxLines := attributes.maxLines
  ellipsizWidth := ((0 : ℤ) : F)
  ellipsizStartX := ((0 : ℤ) : F)
  clickable := attributes.clickable

/-! ## Measuring -/

def Attributes.lineText (attributes : Attributes) {text : JString} (line : LayoutLine F text) :
    LineText F where
  text := (text.drop line.start).take (line.stop - line.start)
  startIndex := Int32.ofNat line.start
  endIndex := Int32.ofNat line.stop - 1
  topOffset := line.top
  bottomOffset := line.bottom
  baseLine := line.baseline + attributes.paddingTop
  width := line.width
  height := line.bottom - line.top

/-- The lines which are visible when the view is folded. -/
def visibleLines (maxLines lineCount : Int32) : Int32 :=
  if maxLines = -1 ∨ maxLines > lineCount then lineCount else maxLines

/-- The loop over the lines adds to the folded and to the whole height. -/
def addHeights (maxLines : Int32) : ℕ → Int32 × Int32 → List (LineText F) → Int32 × Int32
  | _, heights, [] => heights
  | index, (maxLinesHeight, text_Height), lineText :: lineTexts =>
      addHeights maxLines (index + 1)
        (if index < maxLines.toInt then maxLinesHeight + lineText.height else maxLinesHeight,
          text_Height + lineText.height) lineTexts

/-- `tempLines.get(maxLines - 1)`, which throws when there is no such line. -/
def lastVisible (tempLines : List (LineText F)) (maxLines : Int32) : Option (LineText F) :=
  if 0 < maxLines.toInt then tempLines[(maxLines.toInt - 1).toNat]? else none

def ellipsizText : JString :=
  ascii ['.', '.', '.']

namespace ExpandTextView

section Measuring

variable [Add F] [Sub F] [LT F] [LE F] [DecidableLT F] [DecidableLE F]
  (platform : Typesetting F) (self : ExpandTextView F)

/-- The width of the ellipsis and of the drawable behind it. -/
def toMarginRight : F :=
  self.ellipsizWidth +
    ((if self.showTipDrawalbe then self.attributes.drawableWidth else 0).toInt : F)

/-- The text in the last visible line, which is cut for an ellipsis if there is no room for it. -/
def ellipsize (width : Int32) (last : LineText F) : ExpandTextView F :=
  let contentWidth : F :=
    ((width - self.attributes.paddingLeft - self.attributes.paddingRight).toInt : F)
  if contentWidth - last.width < self.toMarginRight then
    let shown := (List.range' 1 (last.text.length - 1)).reverse.find? fun index =>
      decide (contentWidth - platform.measureText (last.text.take index) ≥ self.toMarginRight)
    match shown with
    | some index =>
        { self with
          showEllipsizText := true
          ellipsizStartX := platform.measureText (last.text.take index) +
            (self.attributes.paddingLeft.toInt : F)
          shrinkLineText := some (last.text.take index) }
    | none => { self with showEllipsizText := true }
  else
    { self with shrinkLineText := some last.text, showEllipsizText := false }

/-- The end of `measureHeightState`. -/
def finish (lineCount text_Height : Int32) (tempLines : List (LineText F)) : ExpandTextView F :=
  let expandHeight := self.expandHeight + (text_Height +
    if self.attributes.expandDrawable && self.showTipDrawalbe then self.attributes.drawableHeight
    else 0)
  let viewHeight := if self.maxLines = lineCount then expandHeight else self.maxLinesHeight
  { self with
    expandHeight := expandHeight
    viewHeight := viewHeight
    targetLine := self.maxLines
    lineTexts := tempLines
    clickable := decide (viewHeight < expandHeight) }

/-- The view afterwards, and whether the method has returned. -/
def measureHeightState (text : JString) (width : Int32) : ExpandTextView F × Bool :=
  let attributes := self.attributes
  match platform.staticLayout text (width - attributes.paddingLeft - attributes.paddingRight) with
  | none => (self, false)
  | some layout =>
      let lineCount := Int32.ofNat layout.length
      let maxLines := visibleLines self.maxLines lineCount
      let tempLines := layout.map attributes.lineText
      let heights := addHeights maxLines 0 (self.maxLinesHeight, 0) tempLines
      let padding := attributes.paddingTop + attributes.paddingBottom
      let self :=
        { self with
          maxLines := maxLines
          maxLinesHeight := heights.1 + padding
          expandHeight := self.expandHeight + padding
          ellipsizWidth := platform.measureText ellipsizText }
      if maxLines < lineCount then
        let self :=
          { self with showTipDrawalbe := attributes.expandDrawable && attributes.shrinkDrawable }
        match lastVisible tempLines maxLines with
        | none => (self, false)
        | some last =>
            ((self.ellipsize platform width last).finish lineCount heights.2 tempLines, true)
      else
        let self := { self with showTipDrawalbe := false, showEllipsizText := false }
        (self.finish lineCount heights.2 tempLines, true)

def onMeasure (width : Int32) : ExpandTextView F × Bool :=
  match self.text with
  | none => (self, true)
  | some text =>
      if self.needMeasure ∧ text ≠ [] then
        { self with needMeasure := false }.measureHeightState platform text width
      else (self, true)

end Measuring

def updateText (self : ExpandTextView F) (text : Option JString) : ExpandTextView F :=
  match text with
  | none => self
  | some text =>
      if text = [] then self else { self with text := some text, needMeasure := true }

end ExpandTextView

end AndroidCollection.Layout
