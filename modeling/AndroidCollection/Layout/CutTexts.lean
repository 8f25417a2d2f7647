import AndroidCollection.Layout.WordWrapView

/-!
# Texts which are cut

`onLayout` of `WordWrapView` cuts the texts which are wider than the view to a number
of characters. The number comes from the first of them and is kept in a field, also for
the next layouts; only while it is zero it is computed again. It is computed by a
division by the measured width, which can be zero, and it need be neither positive nor
within a later text, so that an `ArithmeticException` or an exception of `substring`
ends the layout.

Here sizes are any which an `int` can hold, and the arithmetic is that of `int`. Which
children are too wide does not depend on their texts.
-/

namespace AndroidCollection.Layout.CutTexts

open Java

def TEXT_MARGIN_HOR : Int32 :=
  0

def TEXT_MARGIN_VERTICAL : Int32 :=
  0

/-- A child after it has been measured, with its text if it is a `TextView`. -/
structure MeasuredChild where
  measuredWidth : Int32
  measuredHeight : Int32
  text : Option JString
  width_nonneg : 0 ≤ measuredWidth

structure Padding where
  left : Int32
  right : Int32

structure LaidChild where
  left : Int32
  top : Int32
  right : Int32
  bottom : Int32
  text : Option JString

/-- The number of characters which a text of some width suggests. -/
def wordShare (autualWidth width : Int32) (text : JString) : Int32 :=
  Int32.ofNat text.length * (autualWidth - 2 * TEXT_MARGIN_HOR) / width - 1

/-- The field `num` for a text, or nothing after a division by zero. -/
def updateNum (autualWidth num width : Int32) (text : JString) : Option Int32 :=
  if num = 0 then
    if width = 0 then none else some (wordShare autualWidth width text)
  else some num

/-- The indices of `substring(0, num)` are in range. -/
def InText (num : Int32) (text : JString) : Prop :=
  0 ≤ num.toInt ∧ num.toInt ≤ text.length

instance (num : Int32) (text : JString) : Decidable (InText num text) :=
  inferInstanceAs (Decidable (_ ∧ _))

/-- A text which is too wide is cut, unless an exception is thrown. -/
def cutText (autualWidth num width : Int32) (text : JString) : Option (Int32 × JString) := do
  let num ← updateNum autualWidth num width text
  if InText num text then
    some (num, text.take num.toInt.toNat ++ ascii ['.', '.', '.'])
  else none

/-- Only the texts of a `TextView` are cut. -/
def cutChild (autualWidth num : Int32) (view : MeasuredChild) :
    Option (Int32 × Option JString) :=
  match view.text with
  | none => some (num, none)
  | some text =>
      (cutText autualWidth num view.measuredWidth text).map fun cut => (cut.1, some cut.2)

/-- The right edge of the next child and its row. -/
def nextSlot (autualWidth : Int32) (index : ℕ) (x rows width : Int32) : Int32 × Int32 :=
  let x := x + (width + TEXT_MARGIN_HOR)
  if x > autualWidth - TEXT_MARGIN_HOR ∧ index ≠ 0 then (width + TEXT_MARGIN_HOR, rows + 1)
  else (x, rows)

def place (padding : Padding) (x rows width : Int32) (view : MeasuredChild)
    (text : Option JString) : LaidChild :=
  let y := rows * (view.measuredHeight + TEXT_MARGIN_VERTICAL)
  { left := x + padding.left - width
    top := y - view.measuredHeight
    right := x + padding.left
    bottom := y
    text := text }

/-- The loop of `onLayout`: the field `num` and the children, or nothing after an exception. -/
def layoutFrom (padding : Padding) (autualWidth : Int32) :
    ℕ → Int32 → Int32 → Int32 → List MeasuredChild → Option (Int32 × List LaidChild)
  | _, _, _, num, [] => some (num, [])
  | index, x, rows, num, view :: views => do
      let slot := nextSlot autualWidth index x rows view.measuredWidth
      if slot.1 > autualWidth - TEXT_MARGIN_HOR then
        let cut ← cutChild autualWidth num view
        let x := autualWidth - TEXT_MARGIN_HOR
        let width := autualWidth - 2 * TEXT_MARGIN_HOR
        let later ← layoutFrom padding autualWidth (index + 1) x slot.2 cut.1 views
        some (later.1, place padding x slot.2 width view cut.2 :: later.2)
      else
        let later ← layoutFrom padding autualWidth (index + 1) slot.1 slot.2 num views
        some (later.1, place padding slot.1 slot.2 view.measuredWidth view view.text :: later.2)

def actualWidth (padding : Padding) (l r : Int32) : Int32 :=
  r - l - padding.left - padding.right

def onLayout (padding : Padding) (num l _t r _b : Int32) (children : List MeasuredChild) :
    Option (Int32 × List LaidChild) :=
  layoutFrom padding (actualWidth padding l r) 0 0 1 num children

/-! ## The texts which are too wide -/

/-- The widths and texts of the children which are too wide. -/
def tooWideFrom (autualWidth : Int32) :
    ℕ → Int32 → List MeasuredChild → List (Int32 × JString)
  | _, _, [] => []
  | index, x, view :: views =>
      let x := (nextSlot autualWidth index x 0 view.measuredWidth).1
      if x > autualWidth - TEXT_MARGIN_HOR then
        (view.text.map fun text => (view.measuredWidth, text)).toList ++
          tooWideFrom autualWidth (index + 1) (autualWidth - TEXT_MARGIN_HOR) views
      else tooWideFrom autualWidth (index + 1) x views

def tooWide (autualWidth : Int32) (children : List MeasuredChild) : List (Int32 × JString) :=
  tooWideFrom autualWidth 0 0 children

/-- The number of characters is within each of the texts. When the field is still zero, this
concerns the numbers of the texts up to the first which is not zero, and that one in all later
texts. -/
def CutsFit (autualWidth num : Int32) (cuts : List (Int32 × JString)) : Prop :=
  if num = 0 then
    ∀ before width text after, cuts = before ++ (width, text) :: after →
      (∀ earlier ∈ before, wordShare autualWidth earlier.1 earlier.2 = 0) →
        width ≠ 0 ∧ InText (wordShare autualWidth width text) text ∧
          (wordShare autualWidth width text ≠ 0 →
            ∀ later ∈ after, InText (wordShare autualWidth width text) later.2)
  else ∀ cut ∈ cuts, InText num cut.2

def cutAll (autualWidth : Int32) : Int32 → List (Int32 × JString) → Option Int32
  | num, [] => some num
  | num, (width, text) :: cuts => do
      let cut ← cutText autualWidth num width text
      cutAll autualWidth cut.1 cuts

section Cutting

variable {autualWidth num : Int32}

theorem nextSlot_fst (autualWidth : Int32) (index : ℕ) (x rows width : Int32) :
    (nextSlot autualWidth index x rows width).1 = (nextSlot autualWidth index x 0 width).1 := by
  simp only [nextSlot]
  split <;> rfl

/-- A layout returns when all cuts do, and then it has placed each child. -/
theorem layoutFrom_eq_some_iff {padding : Padding} {index : ℕ} {x rows : Int32}
    {children : List MeasuredChild} :
    (∃ laid, layoutFrom padding autualWidth index x rows num children = some laid ∧
      laid.2.length = children.length) ↔
      (cutAll autualWidth num (tooWideFrom autualWidth index x children)).isSome = true := by
  induction children generalizing index x rows num with
  | nil => simp [layoutFrom, tooWideFrom, cutAll]
  | cons view views ih =>
      simp only [layoutFrom, tooWideFrom, ← nextSlot_fst autualWidth index x rows]
      split
      · cases shown : view.text with
        | none =>
            rw [cutChild, shown]
            simpa [Option.bind_eq_some_iff] using ih
        | some text =>
            rw [cutChild, shown]
            cases cut : cutText autualWidth num view.measuredWidth text with
            | none => simp [cutAll, cut]
            | some cut' => simpa [cutAll, cut, Option.bind_eq_some_iff] using ih
      · simpa [Option.bind_eq_some_iff] using ih

theorem isSome_cutAll_of_ne (nonzero : num ≠ 0) (cuts : List (Int32 × JString)) :
    (cutAll autualWidth num cuts).isSome = true ↔ ∀ cut ∈ cuts, InText num cut.2 := by
  induction cuts with
  | nil => simp [cutAll]
  | cons cut cuts ih =>
      rcases cut with ⟨width, text⟩
      rw [List.forall_mem_cons, ← ih, cutAll, cutText, updateNum, if_neg nonzero]
      by_cases inText : InText num text
      · simp [inText]
      · simp [inText]

/-- As long as the number is zero, a text decides by its own. -/
theorem cutAll_zero_cons (width : Int32) (text : JString) (cuts : List (Int32 × JString)) :
    (cutAll autualWidth 0 ((width, text) :: cuts)).isSome = true ↔
      width ≠ 0 ∧ InText (wordShare autualWidth width text) text ∧
        (cutAll autualWidth (wordShare autualWidth width text) cuts).isSome = true := by
  rw [cutAll, cutText, updateNum, if_pos rfl]
  by_cases zero : width = 0
  · simp [zero]
  · by_cases inText : InText (wordShare autualWidth width text) text
    · simp [zero, inText]
    · simp [zero, inText]

theorem isSome_cutAll_zero (cuts : List (Int32 × JString)) :
    (cutAll autualWidth 0 cuts).isSome = true ↔ CutsFit autualWidth 0 cuts := by
  rw [CutsFit, if_pos rfl]
  induction cuts with
  | nil => simp [cutAll]
  | cons cut cuts ih =>
      rcases cut with ⟨width, text⟩
      rw [cutAll_zero_cons]
      constructor
      · rintro ⟨divisible, inText, later⟩ before width' text' after split zero
        cases before with
        | nil =>
            rcases List.cons.inj split with ⟨same, rfl⟩
            cases same
            refine ⟨divisible, inText, ?_⟩
            intro nonzero
            exact (isSome_cutAll_of_ne nonzero cuts).1 later
        | cons first before =>
            rcases List.cons.inj split with ⟨rfl, others⟩
            rcases List.forall_mem_cons.1 zero with ⟨firstZero, zero⟩
            rw [firstZero] at later
            exact ih.1 later before width' text' after others zero
      · intro fits
        rcases fits [] width text cuts rfl (fun _ member => absurd member List.not_mem_nil) with
          ⟨divisible, inText, later⟩
        refine ⟨divisible, inText, ?_⟩
        by_cases zero : wordShare autualWidth width text = 0
        · rw [zero]
          apply ih.2
          intro before width' text' after split earlier
          exact fits ((width, text) :: before) width' text' after
            (by rw [split, List.cons_append]) (List.forall_mem_cons.2 ⟨zero, earlier⟩)
        · exact (isSome_cutAll_of_ne zero cuts).2 (later zero)

theorem isSome_cutAll_iff (cuts : List (Int32 × JString)) :
    (cutAll autualWidth num cuts).isSome = true ↔ CutsFit autualWidth num cuts := by
  by_cases zero : num = 0
  · rw [zero]
    exact isSome_cutAll_zero cuts
  · rw [isSome_cutAll_of_ne zero, CutsFit, if_neg zero]

end Cutting

/-- A layout returns with all its children exactly when the number of characters fits the texts
which are too wide. -/
theorem onLayout_returns_iff (padding : Padding) (num l t r b : Int32)
    (children : List MeasuredChild) :
    (∃ laid, onLayout padding num l t r b children = some laid ∧
      laid.2.length = children.length) ↔
      CutsFit (actualWidth padding l r) num (tooWide (actualWidth padding l r) children) := by
  rw [onLayout, layoutFrom_eq_some_iff, isSome_cutAll_iff, tooWide]

/-- A text of ten characters which is twice as wide as the view, and then one of two. -/
theorem not_onLayout_returns_shorter :
    ¬∃ laid, onLayout ⟨0, 0⟩ 0 0 0 100 40
      [⟨200, 40, some (List.replicate 10 65), by decide⟩,
        ⟨150, 40, some (List.replicate 2 65), by decide⟩] = some laid ∧ laid.2.length = 2 := by
  rintro ⟨laid, returns, _⟩
  have some_laid := Option.isSome_of_eq_some returns
  exact absurd some_laid (by decide)

/-! ## Without overflow -/

theorem toInt_nonneg {value : Int32} (nonneg : 0 ≤ value) : 0 ≤ value.toInt :=
  Int32.le_iff_toInt_le.1 nonneg

theorem toInt_pos {value : Int32} (positive : 0 < value) : 0 < value.toInt :=
  Int32.lt_iff_toInt_lt.1 positive

section Ordinary

variable {autualWidth : Int32}

/-- A child ends behind the width exactly if it is wider, wherever its row is. -/
theorem slot_bounds {index : ℕ} {x width : Int32} (first : index = 0 → x = 0) (inside : 0 ≤ x)
    (nonneg : 0 ≤ width) (small : autualWidth.toInt + width.toInt < 2 ^ 31)
    (within : x ≤ autualWidth) :
    0 ≤ (nextSlot autualWidth index x 0 width).1 ∧
      (autualWidth - TEXT_MARGIN_HOR < (nextSlot autualWidth index x 0 width).1 ↔
        autualWidth < width) := by
  have inside := toInt_nonneg inside
  have nonneg' := toInt_nonneg nonneg
  have within := Int32.le_iff_toInt_le.1 within
  have sum : (x + width).toInt = x.toInt + width.toInt :=
    toInt_add_exact (by omega) (by omega)
  simp only [nextSlot, TEXT_MARGIN_HOR, Int32.add_zero, Int32.sub_zero]
  split
  · exact ⟨nonneg, Iff.rfl⟩
  · next stays =>
      constructor
      · rw [Int32.le_iff_toInt_le, sum]
        change 0 ≤ x.toInt + width.toInt
        omega
      · by_cases start : index = 0
        · rw [first start, Int32.zero_add]
        · have stays : ¬autualWidth < x + width := fun beyond => stays ⟨beyond, start⟩
          refine iff_of_false stays ?_
          rw [Int32.lt_iff_toInt_lt] at stays ⊢
          omega

theorem tooWideFrom_eq (content : 0 ≤ autualWidth) {index : ℕ} {x : Int32}
    {children : List MeasuredChild} (first : index = 0 → x = 0) (inside : 0 ≤ x)
    (within : x ≤ autualWidth)
    (small : ∀ view ∈ children, autualWidth.toInt + view.measuredWidth.toInt < 2 ^ 31) :
    tooWideFrom autualWidth index x children =
      children.filterMap fun view =>
        if autualWidth < view.measuredWidth then
          view.text.map fun text => (view.measuredWidth, text)
        else none := by
  induction children generalizing index x with
  | nil => rfl
  | cons view views ih =>
      rcases List.forall_mem_cons.1 small with ⟨here, later⟩
      rcases slot_bounds first inside view.width_nonneg here within with ⟨lower, wide⟩
      have next : index + 1 = 0 → ∀ edge : Int32, edge = 0 := fun zero => by omega
      simp only [tooWideFrom, gt_iff_lt, wide, List.filterMap_cons]
      split
      · have edge : autualWidth - TEXT_MARGIN_HOR = autualWidth := Int32.sub_zero _
        rw [edge, ih (fun zero => next zero _) content (Int32.le_refl _) later]
        cases view.text with
        | none => rfl
        | some text => rfl
      · next narrow =>
          have edge : (nextSlot autualWidth index x 0 view.measuredWidth).1 ≤ autualWidth := by
            rw [← wide, TEXT_MARGIN_HOR, Int32.sub_zero] at narrow
            exact Int32.not_lt.1 narrow
          exact ih (fun zero => next zero _) lower edge later

/-- In a view whose width is not negative, and without an overflow, the texts which are cut are
those wider than the view. -/
theorem tooWide_eq (content : 0 ≤ autualWidth) {children : List MeasuredChild}
    (small : ∀ view ∈ children, autualWidth.toInt + view.measuredWidth.toInt < 2 ^ 31) :
    tooWide autualWidth children =
      children.filterMap fun view =>
        if autualWidth < view.measuredWidth then
          view.text.map fun text => (view.measuredWidth, text)
        else none :=
  tooWideFrom_eq content (fun _ => rfl) (Int32.le_refl 0) content small

end Ordinary

/-! ## The layout over integers -/

/-- The child has the width and the text of a child of the model over integers. -/
structure Agrees (view : MeasuredChild) (child : Child) : Prop where
  width : view.measuredWidth.toInt = child.measuredWidth
  text : view.text = child.text

section Agreement

variable {autualWidth : Int32} (content : 0 ≤ autualWidth)

theorem nextSlot_agrees {index : ℕ} {x rows width : Int32} {row : ℤ} {width' : ℕ}
    (inside : 0 ≤ x) (within : x ≤ autualWidth) (same : width.toInt = width')
    (small : autualWidth.toInt + width.toInt < 2 ^ 31) :
    (nextSlot autualWidth index x rows width).1.toInt =
      (Layout.nextSlot autualWidth.toInt index x.toInt row width').1 := by
  have inside := toInt_nonneg inside
  have within := Int32.le_iff_toInt_le.1 within
  have sum : (x + width).toInt = x.toInt + width.toInt := toInt_add_exact (by omega) (by omega)
  simp only [nextSlot, Layout.nextSlot, TEXT_MARGIN_HOR, Layout.TEXT_MARGIN_HOR, Int32.add_zero,
    Int32.sub_zero, gt_iff_lt, Int32.lt_iff_toInt_lt, sum, same, add_zero, sub_zero]
  split
  · exact same
  · rw [sum, same]

section Cut

variable {num width : Int32} {text : JString} (positive : 0 < width)
  (length : text.length < 2 ^ 31) (short : text.length * autualWidth.toInt < 2 ^ 31)
include content positive length short

theorem toInt_wordShare :
    (wordShare autualWidth width text).toInt =
      (text.length * autualWidth.toInt).tdiv width.toInt - 1 := by
  have content := toInt_nonneg content
  have positive' := toInt_pos positive
  have wordNum : (Int32.ofNat text.length).toInt = text.length := Int32.toInt_ofNat_of_lt length
  have area : 0 ≤ text.length * autualWidth.toInt := Int.mul_nonneg (by omega) content
  have product : (Int32.ofNat text.length * autualWidth).toInt =
      text.length * autualWidth.toInt := by
    rw [toInt_mul_exact (by rw [wordNum]; omega) (by rw [wordNum]; omega), wordNum]
  have divisor : width ≠ -1 := by
    rintro rfl
    exact absurd positive (by decide)
  have quotient : (Int32.ofNat text.length * autualWidth / width).toInt =
      (text.length * autualWidth.toInt).tdiv width.toInt := by
    rw [Int32.toInt_div_of_ne_right _ _ divisor, product]
  have least : 0 ≤ (text.length * autualWidth.toInt).tdiv width.toInt :=
    Int.tdiv_nonneg area positive'.le
  have most := (Int32.ofNat text.length * autualWidth / width).toInt_lt
  rw [quotient] at most
  have margin : autualWidth - 2 * TEXT_MARGIN_HOR = autualWidth := Int32.sub_zero _
  rw [wordShare, margin, toInt_sub_exact (by rw [quotient]; change _ ≤ _ - 1; omega)
    (by rw [quotient]; change _ - 1 < _; omega), quotient]
  rfl

theorem cutText_agrees :
    (cutText autualWidth num width text).map (fun cut => (cut.1.toInt, cut.2)) =
      WordWrapView.cut autualWidth.toInt num.toInt width.toInt.toNat text := by
  have positive' := toInt_pos positive
  have divisible : width ≠ 0 := by
    rintro rfl
    exact absurd positive (by decide)
  have cast : (width.toInt.toNat : ℤ) = width.toInt := Int.toNat_of_nonneg positive'.le
  have share := toInt_wordShare content positive length short
  have cutAt : ∀ num : Int32,
      ((if InText num text then
          some (num, text.take num.toInt.toNat ++ ascii ['.', '.', '.'])
        else none).map fun cut => (cut.1.toInt, cut.2)) =
        if 0 ≤ num.toInt ∧ num.toInt ≤ text.length then
          some (num.toInt, text.take num.toInt.toNat ++ ascii ['.', '.', '.'])
        else none := by
    intro num
    by_cases inText : InText num text
    · exact (congrArg _ (if_pos inText)).trans (if_pos inText).symm
    · exact (congrArg _ (if_neg inText)).trans (if_neg inText).symm
  rw [cutText, updateNum, WordWrapView.cut, cast]
  by_cases zero : num = 0
  · rw [if_pos zero, if_neg divisible, zero, Option.bind_eq_bind, Option.bind_some, cutAt, share]
    have unset : Int32.toInt 0 = 0 := rfl
    simp only [unset, if_true, Layout.TEXT_MARGIN_HOR, mul_zero, sub_zero]
  · have other : num.toInt ≠ 0 := fun same => zero (Int32.toInt.inj same)
    rw [if_neg zero, if_neg other, Option.bind_eq_bind, Option.bind_some, cutAt]

end Cut

theorem positive_of_agrees {view : MeasuredChild} {child : Child} (same : Agrees view child) :
    0 < view.measuredWidth := by
  have positive := child.width_pos
  rw [Int32.lt_iff_toInt_lt, same.width]
  change (0 : ℤ) < child.measuredWidth
  omega

include content in
theorem cutChild_agrees {num : Int32} {view : MeasuredChild} {child : Child}
    (same : Agrees view child)
    (short : ∀ text ∈ view.text,
      text.length < 2 ^ 31 ∧ text.length * autualWidth.toInt < 2 ^ 31) :
    (cutChild autualWidth num view).map (fun cut => (cut.1.toInt, cut.2)) =
      WordWrapView.shorten autualWidth.toInt num.toInt child := by
  have width : view.measuredWidth.toInt.toNat = child.measuredWidth := by
    rw [same.width, Int.toNat_natCast]
  rw [cutChild, WordWrapView.shorten, ← same.text]
  cases shown : view.text with
  | none => rfl
  | some text =>
      rcases short text shown with ⟨length, area⟩
      have cut := @cutText_agrees autualWidth content num _ _ (positive_of_agrees same) length
        area
      rw [width] at cut
      simp only [← cut, Option.map_map]
      rfl

theorem map_texts_cons (tail : Option (Int32 × List LaidChild)) (laid : LaidChild) :
    (tail.bind fun later => some (later.1, laid :: later.2)).map
        (fun laid => (laid.1.toInt, laid.2.map LaidChild.text)) =
      (tail.map fun laid => (laid.1.toInt, laid.2.map LaidChild.text)).map
        (fun texts => (texts.1, laid.text :: texts.2)) := by
  cases tail <;> rfl

include content in
/-- Where nothing overflows and no width is zero, the layout over integers ends with the same
number of characters and the same texts, or like this one in an exception. -/
theorem layoutFrom_agrees {padding : Padding} {self : WordWrapView} {index : ℕ}
    {x rows num : Int32} {row : ℤ} {views : List MeasuredChild} {children : List Child}
    (first : index = 0 → x = 0) (inside : 0 ≤ x) (within : x ≤ autualWidth)
    (agree : views.Forall₂ Agrees children)
    (small : ∀ view ∈ views, autualWidth.toInt + view.measuredWidth.toInt < 2 ^ 31)
    (short : ∀ view ∈ views, ∀ text ∈ view.text,
      text.length < 2 ^ 31 ∧ text.length * autualWidth.toInt < 2 ^ 31) :
    (layoutFrom padding autualWidth index x rows num views).map
        (fun laid => (laid.1.toInt, laid.2.map LaidChild.text)) =
      (self.layoutFrom autualWidth.toInt index x.toInt row num.toInt children).map
        (fun laid => (laid.2, laid.1.map Placed.text)) := by
  induction agree generalizing index x rows num row with
  | nil => rfl
  | @cons view child views children same _ ih =>
      rcases List.forall_mem_cons.1 small with ⟨here, small⟩
      rcases List.forall_mem_cons.1 short with ⟨shortHere, short⟩
      have slot := @nextSlot_agrees autualWidth index x rows view.measuredWidth row
        child.measuredWidth inside within same.width here
      rcases slot_bounds first inside view.width_nonneg here within with ⟨lower, _⟩
      rw [← nextSlot_fst autualWidth index x rows] at lower
      have margin : autualWidth - TEXT_MARGIN_HOR = autualWidth := Int32.sub_zero _
      have margin' : autualWidth.toInt - Layout.TEXT_MARGIN_HOR = autualWidth.toInt := sub_zero _
      have next : index + 1 = 0 → ∀ edge : Int32, edge = 0 := fun zero => by omega
      simp only [layoutFrom, WordWrapView.layoutFrom, margin, margin', gt_iff_lt, ← slot,
        ← Int32.lt_iff_toInt_lt]
      split
      · rw [← cutChild_agrees content same shortHere]
        cases cutChild autualWidth num view with
        | none => rfl
        | some cut =>
            simp only [Option.bind_eq_bind, Option.bind_some, Option.map_some, map_texts_cons]
            rw [ih (fun zero => next zero _) content (Int32.le_refl _) small short]
            simp only [Option.map_map]
            rfl
      · next narrow =>
          simp only [Option.bind_eq_bind, map_texts_cons]
          rw [ih (fun zero => next zero _) lower (Int32.not_lt.1 narrow) small short]
          simp only [Option.map_map]
          rw [same.text]
          rfl

end Agreement

end AndroidCollection.Layout.CutTexts
