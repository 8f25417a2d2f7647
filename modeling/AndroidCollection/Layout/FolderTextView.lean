import AndroidCollection.Java.Text

/-!
# A text which folds to a number of lines

`FolderTextView` shows a long text with an ellipsis and a label to unfold it, cut
so that everything fits into `foldLine` lines. `tailorText` looks for the place to
cut by bisection: `finPos` compares the lines which the text up to a position
takes with `foldLine`. If no position suits exactly, `tailorTextBackUp` cuts one
character off what the lines hold and begins again.

How a text is broken into lines is up to the platform. It enters as a function
from texts to layouts, and nothing is known of how the layouts of two texts are
related. Positions are `int`s, and their sums can overflow; the memory for a text
is taken to suffice. The loop and the recursion run on fuel.
-/

namespace AndroidCollection.Layout

open Java

def DEFAULT_ELLIPSIZE : JString :=
  ascii ['.', '.', '.']

/-- What is asked of a `StaticLayout`. -/
structure StaticLayout where
  lineCount : ℕ
  lineEnd : ℕ → ℕ

/-- The fields which tell how a text is folded, with the layouts which the platform makes. -/
structure FolderTextView where
  foldLine : ℕ
  mUnFoldText : JString
  makeTextLayout : JString → StaticLayout

/-- How a call can end without a result. -/
inductive Stop where
  | stringIndexOutOfBounds
  | outOfFuel
deriving DecidableEq, Repr

/-- `text.length()`. -/
def textLength (text : JString) : Int32 :=
  Int32.ofNat text.length

/-- `text.substring(0, stop)`. -/
def substring (text : JString) (stop : Int32) : Except Stop JString :=
  if stop.toInt < 0 ∨ text.length < stop.toInt then
    .error .stringIndexOutOfBounds
  else
    .ok (text.take stop.toInt.toNat)

namespace FolderTextView

variable (view : FolderTextView)

/-- A text with the ellipsis and the label behind it. -/
def labelled (text : JString) : JString :=
  text ++ DEFAULT_ELLIPSIZE ++ view.mUnFoldText

def finPos (text : JString) (pos : Int32) : Except Stop ℤ := do
  let destStr := view.labelled (← substring text pos)
  let lineCount := (view.makeTextLayout destStr).lineCount
  let lineCountMore := (view.makeTextLayout (destStr ++ ascii ['A'])).lineCount
  if lineCount = view.foldLine ∧ lineCountMore = view.foldLine + 1 then
    return 0
  else if view.foldLine < lineCount then
    return 1
  else
    return -1

/-- The search of `tailorText` between two bounds, with what it finds at its last position. -/
def bisect (text : JString) : ℕ → Int32 → Int32 → Except Stop (Int32 × ℤ)
  | 0, _, _ => .error .outOfFuel
  | fuel + 1, start, stop => do
      let mid := (start + stop) / 2
      let find ← view.finPos text mid
      if find ≠ 0 ∧ start < stop then
        if 0 < find then bisect text fuel start (mid - 1)
        else bisect text fuel (mid + 1) stop
      else
        return (mid, find)

/-- `tailorTextBackUp`, with the call of `tailorText` which it makes as a parameter. -/
def tailorTextBackUp (tailorText : JString → Except Stop JString) (text : JString) :
    Except Stop JString :=
  let destStr := view.labelled text
  let layout := view.makeTextLayout destStr
  if view.foldLine < layout.lineCount then
    let index := min (layout.lineEnd (view.foldLine - 1)) text.length
    if index ≤ 1 then
      .ok (DEFAULT_ELLIPSIZE ++ view.mUnFoldText)
    else
      tailorText (text.take (index - 1))
  else
    .ok destStr

def tailorText : ℕ → JString → Except Stop JString
  | 0, _ => .error .outOfFuel
  | fuel + 1, text => do
      let (mid, find) ← view.bisect text fuel 0 (textLength text - 1)
      if find = 0 then
        return view.labelled (← substring text mid)
      else
        view.tailorTextBackUp (tailorText fuel) text

end FolderTextView

end AndroidCollection.Layout
