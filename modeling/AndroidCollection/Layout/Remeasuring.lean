import AndroidCollection.Layout.ExpandTextView
import AndroidCollection.Lib.Machine
import Mathlib.Data.Int.Cast.Basic

/-!
# Measuring one text after another

What `measureHeightState` does to the visible lines, the heights, the clickability and
the lines depends on what they were before: the number of visible lines stays that of a
shorter text, and both heights are added to the old ones. The view measures as a new
one does exactly as long as none of this has left anything behind which counts.
-/

namespace AndroidCollection.Layout

open Java

variable {F : Type} [IntCast F]

/-! ## What is measured -/

/-- The visible lines, the heights, whether there is something to expand, and the lines. -/
structure Measured (F : Type) where
  maxLines : Int32
  maxLinesHeight : Int32
  expandHeight : Int32
  viewHeight : Int32
  clickable : Bool
  lineTexts : List (LineText F)
deriving DecidableEq

def ExpandTextView.measured (self : ExpandTextView F) : Measured F where
  maxLines := self.maxLines
  maxLinesHeight := self.maxLinesHeight
  expandHeight := self.expandHeight
  viewHeight := self.viewHeight
  clickable := self.clickable
  lineTexts := self.lineTexts

/-- The last visible line is looked up, and there is none. -/
def NoLastVisible (maxLines : Int32) (tempLines : List (LineText F)) : Prop :=
  maxLines < Int32.ofNat tempLines.length ∧ (lastVisible tempLines maxLines).isNone = true

instance (maxLines : Int32) (tempLines : List (LineText F)) :
    Decidable (NoLastVisible maxLines tempLines) :=
  inferInstanceAs (Decidable (_ ∧ _))

/-- The lines of a text which is measured. -/
def laidOut (platform : Typesetting F) (attributes : Attributes) :
    Option JString × Int32 → Option (List (LineText F))
  | (none, _) => none
  | (some text, width) =>
      if text = [] then none
      else
        (platform.staticLayout text (width - attributes.paddingLeft - attributes.paddingRight)).map
          fun layout => layout.map attributes.lineText

section Display

variable [Add F] [Sub F] [LT F] [LE F] [DecidableLT F] [DecidableLE F]
  (platform : Typesetting F)

/-- A text is shown, and measured at a width. -/
def display (self : ExpandTextView F) (input : Option JString × Int32) : ExpandTextView F × Bool :=
  (self.updateText input.1).onMeasure platform input.2

/-- What has been measured is what a new view measures. -/
def MeasuresAsNew (attributes : Attributes) (self : ExpandTextView F)
    (input : Option JString × Int32) : Prop :=
  (display platform self input).1.measured =
    (display platform (.create attributes) input).1.measured

end Display

/-- As far as it counts for the text, the view has kept nothing from measuring. -/
def Clean (platform : Typesetting F) (attributes : Attributes) (self : ExpandTextView F)
    (input : Option JString × Int32) : Prop :=
  match laidOut platform attributes input with
  | none => self.measured = (ExpandTextView.create attributes : ExpandTextView F).measured
  | some tempLines =>
      let lineCount := Int32.ofNat tempLines.length
      visibleLines self.maxLines lineCount = visibleLines attributes.maxLines lineCount ∧
        self.maxLinesHeight = 0 ∧ self.expandHeight = 0 ∧
        (NoLastVisible (visibleLines attributes.maxLines lineCount) tempLines →
          self.viewHeight = 0 ∧ self.clickable = attributes.clickable ∧ self.lineTexts = [])

/-! ## One measurement -/

omit [IntCast F] in
theorem addHeights_eq (maxLines : Int32) (index : ℕ) (heights : Int32 × Int32)
    (lineTexts : List (LineText F)) :
    addHeights maxLines index heights lineTexts =
      (heights.1 + (addHeights maxLines index (0, 0) lineTexts).1,
        heights.2 + (addHeights maxLines index (0, 0) lineTexts).2) := by
  induction lineTexts generalizing index heights with
  | nil => simp [addHeights]
  | cons lineText lineTexts ih =>
      simp only [addHeights]
      rw [ih, ih (index + 1) (ite _ _ _, _)]
      split <;> simp [Int32.add_assoc]

/-- The same on what has been measured before. -/
def Measured.next (attributes : Attributes) (tempLines : List (LineText F)) (old : Measured F) :
    Measured F :=
  let lineCount := Int32.ofNat tempLines.length
  let maxLines := visibleLines old.maxLines lineCount
  let heights := addHeights maxLines 0 (0, 0) tempLines
  let padding := attributes.paddingTop + attributes.paddingBottom
  let maxLinesHeight := old.maxLinesHeight + (heights.1 + padding)
  if NoLastVisible maxLines tempLines then
    { old with
      maxLines := maxLines
      maxLinesHeight := maxLinesHeight
      expandHeight := old.expandHeight + padding }
  else
    let tip :=
      if maxLines < lineCount ∧ (attributes.expandDrawable && attributes.shrinkDrawable) = true then
        attributes.drawableHeight
      else 0
    let expandHeight := old.expandHeight + (padding + (heights.2 + tip))
    let viewHeight := if maxLines = lineCount then expandHeight else maxLinesHeight
    ⟨maxLines, maxLinesHeight, expandHeight, viewHeight, decide (viewHeight < expandHeight),
      tempLines⟩

section Steps

variable [Add F] [Sub F] [LT F] [LE F] [DecidableLT F] [DecidableLE F]
  (platform : Typesetting F) (self : ExpandTextView F)

/-- Where the ellipsis stands makes no difference to what is measured. -/
theorem measured_finish_ellipsize (width : Int32) (last : LineText F)
    (lineCount text_Height : Int32) (tempLines : List (LineText F)) :
    ((self.ellipsize platform width last).finish lineCount text_Height tempLines).measured =
      (self.finish lineCount text_Height tempLines).measured := by
  simp only [ExpandTextView.ellipsize]
  split
  · split <;> rfl
  · rfl

theorem measured_measureHeightState (text : JString) (width : Int32) :
    (self.measureHeightState platform text width).1.measured =
      match (platform.staticLayout text
        (width - self.attributes.paddingLeft - self.attributes.paddingRight)).map
          fun layout => layout.map self.attributes.lineText with
      | none => self.measured
      | some tempLines => self.measured.next self.attributes tempLines := by
  simp only [ExpandTextView.measureHeightState]
  cases platform.staticLayout text
    (width - self.attributes.paddingLeft - self.attributes.paddingRight) with
  | none => rfl
  | some layout =>
      simp only [Option.map_some, Measured.next, NoLastVisible, List.length_map]
      rw [addHeights_eq _ _ (_, 0)]
      split
      · next folded =>
          cases found : lastVisible (layout.map self.attributes.lineText)
            (visibleLines self.maxLines (Int32.ofNat layout.length)) with
          | none => simp [folded, found, ExpandTextView.measured, Int32.add_assoc]
          | some last =>
              simp only [measured_finish_ellipsize]
              simp [folded, found, ExpandTextView.finish, ExpandTextView.measured,
                Int32.add_assoc]
      · next whole => simp [whole, ExpandTextView.finish, ExpandTextView.measured, Int32.add_assoc]

theorem kept_measureHeightState (text : JString) (width : Int32) :
    (self.measureHeightState platform text width).1.attributes = self.attributes ∧
      (self.measureHeightState platform text width).1.needMeasure = self.needMeasure := by
  have ellipsized (view : ExpandTextView F) (last : LineText F) :
      (view.ellipsize platform width last).attributes = view.attributes ∧
        (view.ellipsize platform width last).needMeasure = view.needMeasure := by
    simp only [ExpandTextView.ellipsize]
    split
    · split <;> exact ⟨rfl, rfl⟩
    · exact ⟨rfl, rfl⟩
  simp only [ExpandTextView.measureHeightState]
  split
  · exact ⟨rfl, rfl⟩
  · split
    · split
      · exact ⟨rfl, rfl⟩
      · exact ellipsized _ _
    · exact ⟨rfl, rfl⟩

end Steps

omit [IntCast F] in
/-- Two views measure the same lines alike only if nothing which counts differs. -/
theorem Measured.next_eq_next_iff (attributes : Attributes) (tempLines : List (LineText F))
    (old new : Measured F) :
    old.next attributes tempLines = new.next attributes tempLines ↔
      visibleLines old.maxLines (Int32.ofNat tempLines.length) =
          visibleLines new.maxLines (Int32.ofNat tempLines.length) ∧
        old.maxLinesHeight = new.maxLinesHeight ∧ old.expandHeight = new.expandHeight ∧
        (NoLastVisible (visibleLines new.maxLines (Int32.ofNat tempLines.length)) tempLines →
          old.viewHeight = new.viewHeight ∧ old.clickable = new.clickable ∧
            old.lineTexts = new.lineTexts) := by
  have visible (measured : Measured F) : (measured.next attributes tempLines).maxLines =
      visibleLines measured.maxLines (Int32.ofNat tempLines.length) := by
    simp only [Measured.next]
    split <;> rfl
  by_cases same : visibleLines old.maxLines (Int32.ofNat tempLines.length) =
      visibleLines new.maxLines (Int32.ofNat tempLines.length)
  · simp only [Measured.next, same]
    split
    · next fails => simp [fails]
    · next returns =>
        simp [returns]
        intro folded expanded
        simp [folded, expanded]
  · apply iff_of_false
    · intro both
      apply same
      rw [← visible, ← visible, both]
    · rintro ⟨alike, _⟩
      exact same alike

/-! ## A sequence of texts -/

/-- Between two texts there is nothing to measure. -/
structure Idle (attributes : Attributes) (view : ExpandTextView F) : Prop where
  attributes_eq : view.attributes = attributes
  measured : view.needMeasure = true → view.text = none

theorem idle_create (attributes : Attributes) :
    Idle attributes (.create attributes : ExpandTextView F) :=
  ⟨rfl, fun _ => rfl⟩

section Sequence

variable [Add F] [Sub F] [LT F] [LE F] [DecidableLT F] [DecidableLE F]
  (platform : Typesetting F) {attributes : Attributes} {self : ExpandTextView F}

theorem display_of_idle (idle : Idle attributes self) {input : Option JString × Int32}
    (empty : input.1 = none ∨ input.1 = some []) : display platform self input = (self, true) := by
  have unchanged : self.updateText input.1 = self := by
    rcases empty with null | empty
    · rw [null]
      rfl
    · rw [empty]
      rfl
  rw [display, unchanged, ExpandTextView.onMeasure]
  split
  · rfl
  · next shown =>
      have done : ¬self.needMeasure = true := by
        intro needs
        rw [idle.measured needs] at shown
        cases shown
      exact if_neg fun needs => done needs.1

theorem display_of_text (self : ExpandTextView F) {text : JString} (given : text ≠ [])
    (width : Int32) :
    display platform self (some text, width) =
      { self with text := some text, needMeasure := false }.measureHeightState platform text
        width := by
  simp [display, ExpandTextView.updateText, ExpandTextView.onMeasure, given]

theorem measured_display (idle : Idle attributes self) (input : Option JString × Int32) :
    (display platform self input).1.measured =
      match laidOut platform attributes input with
      | none => self.measured
      | some tempLines => self.measured.next attributes tempLines := by
  rcases input with ⟨_ | text, width⟩
  · rw [display_of_idle platform idle (Or.inl rfl)]
    rfl
  by_cases empty : text = []
  · rw [display_of_idle platform idle (Or.inr (congrArg some empty)), laidOut, if_pos empty]
  · rw [display_of_text platform self empty, measured_measureHeightState, laidOut, if_neg empty,
      ← idle.attributes_eq]
    rfl

theorem idle_display (idle : Idle attributes self) (input : Option JString × Int32) :
    Idle attributes (display platform self input).1 := by
  rcases input with ⟨_ | text, width⟩
  · rwa [display_of_idle platform idle (Or.inl rfl)]
  by_cases empty : text = []
  · rwa [display_of_idle platform idle (Or.inr (congrArg some empty))]
  · rw [display_of_text platform self empty]
    rcases kept_measureHeightState platform
      { self with text := some text, needMeasure := false } text width with ⟨same, measured⟩
    refine ⟨same.trans idle.attributes_eq, ?_⟩
    intro needs
    rw [measured] at needs
    cases needs

/-- A measurement is that of a new view if nothing which counts is left from earlier ones. -/
theorem measuresAsNew_iff (idle : Idle attributes self) (input : Option JString × Int32) :
    MeasuresAsNew platform attributes self input ↔ Clean platform attributes self input := by
  rw [MeasuresAsNew, measured_display platform idle,
    measured_display platform (idle_create attributes), Clean]
  cases laidOut platform attributes input with
  | none => exact Iff.rfl
  | some tempLines => exact Measured.next_eq_next_iff attributes tempLines _ _

/-- The view measures without memory exactly along the runs in which it is always clean. -/
theorem every_measuresAsNew_iff (attributes : Attributes)
    (inputs : List (Option JString × Int32)) :
    Machine.Every (display platform) (MeasuresAsNew platform attributes) (.create attributes)
        inputs ↔
      Machine.Every (display platform) (Clean platform attributes) (.create attributes) inputs :=
  Machine.every_iff_of_invariant (Idle attributes) (fun _ input idle =>
    measuresAsNew_iff platform idle input) (fun _ input idle _ => idle_display platform idle input)
    (idle_create attributes) inputs

end Sequence

/-- A text which is always one line of ten pixels. -/
def oneLine : Typesetting ℤ where
  staticLayout text _ := some [⟨0, text.length, Nat.zero_le _, Nat.le_refl _, 0, 10, 8, 0⟩]
  measureText _ := 0

/-- The second text makes the view twice as high as the first one. -/
theorem second_text_accumulates :
    ¬∀ (platform : Typesetting ℤ) (attributes : Attributes)
      (inputs : List (Option JString × Int32)),
      Machine.Every (display platform) (MeasuresAsNew platform attributes) (.create attributes)
        inputs := by
  intro all
  have second := all oneLine {} [(some [0x61], 100), (some [0x62], 100)] [(some [0x61], 100)] _ []
    rfl
  revert second
  unfold MeasuresAsNew
  decide

end AndroidCollection.Layout
