import AndroidCollection.Layout.FolderTextView
import Mathlib.Data.List.Infix
import Mathlib.Tactic.SplitIfs

/-!
# What a folded text looks like

A folded text fits if it is a prefix of the text with the ellipsis and the label,
on at most the lines to fold to, or only the ellipsis and the label. The bisection
always ends: each pass halves what lies between the bounds, which cross by at most
one, and the position between crossed bounds is still one of the text. Each way
through the fallback shortens the text. So a text of at most 2^30 characters is
always folded to fit, however texts are laid out.

For a longer text the sum of the bounds can overflow. Then the position between
them is negative, and `substring` throws. This happens when the search goes far to
the right, as it does if no prefix takes enough lines.
-/

namespace AndroidCollection.Layout.FolderTextView

open Java

/-- What is promised of the layouts. -/
structure Lawful (view : FolderTextView) : Prop where
  foldLine_pos : 1 ≤ view.foldLine
  lineCount_pos : ∀ text, 1 ≤ (view.makeTextLayout text).lineCount
  lineEnd_le : ∀ text line, line < (view.makeTextLayout text).lineCount →
    (view.makeTextLayout text).lineEnd line ≤ text.length

/-- What may be shown for a text. -/
def Fits (view : FolderTextView) (text shown : JString) : Prop :=
  (∃ kept, kept <+: text ∧ shown = view.labelled kept ∧
      (view.makeTextLayout shown).lineCount ≤ view.foldLine) ∨
    shown = DEFAULT_ELLIPSIZE ++ view.mUnFoldText

/-- With enough fuel the text is folded to something that fits. -/
def TailorsToFit (view : FolderTextView) (text : JString) : Prop :=
  ∃ enough, ∀ fuel, enough ≤ fuel →
    ∃ shown, view.tailorText fuel text = .ok shown ∧ view.Fits text shown

variable {view : FolderTextView} {text : JString} {start stop : Int32}

/-! ## Positions -/

/-- Without overflow the middle is a position of the text, between bounds which have not met. -/
theorem toInt_middle (startNonneg : 0 ≤ start.toInt) (crossed : start.toInt ≤ stop.toInt + 1)
    (small : start.toInt + stop.toInt < 2147483648) :
    0 ≤ ((start + stop) / 2).toInt ∧
      (((start + stop) / 2).toInt ≤ stop.toInt ∨ ((start + stop) / 2).toInt = 0) ∧
      (start.toInt < stop.toInt →
        start.toInt ≤ ((start + stop) / 2).toInt ∧ ((start + stop) / 2).toInt < stop.toInt) := by
  have sum : (start + stop).toInt = start.toInt + stop.toInt :=
    toInt_add_exact (by omega) small
  have half : ((start + stop) / 2).toInt = (start.toInt + stop.toInt).tdiv 2 := by
    rw [Int32.toInt_div_of_ne_right _ _ (by decide), sum]
    rfl
  rw [half]
  rcases lt_or_ge (start.toInt + stop.toInt) 0 with negative | nonneg
  · have : start.toInt + stop.toInt = -1 := by omega
    rw [this]
    refine ⟨by decide, Or.inr (by decide), ?_⟩
    intro apart
    omega
  · rw [Int.tdiv_eq_ediv_of_nonneg nonneg]
    omega

/-- When the sum of the bounds overflows, the middle is negative. -/
theorem toInt_middle_neg (large : 2147483648 ≤ start.toInt + stop.toInt) :
    ((start + stop) / 2).toInt < 0 := by
  have startBound := start.toInt_lt
  have stopBound := stop.toInt_lt
  have sum : (start + stop).toInt = start.toInt + stop.toInt - 4294967296 := by
    rw [Int32.toInt_add, Int.bmod_def]
    split <;> omega
  rw [Int32.toInt_div_of_ne_right _ _ (by decide), sum]
  change Int.tdiv _ 2 < 0
  rw [← Int.neg_neg (start.toInt + stop.toInt - 4294967296), Int.neg_tdiv,
    Int.tdiv_eq_ediv_of_nonneg (by omega)]
  omega

theorem toInt_textLength_sub_one (bounded : text.length < 2147483648) :
    (textLength text - 1).toInt = text.length - 1 := by
  have length : (textLength text).toInt = text.length := Int32.toInt_ofNat_of_lt bounded
  rw [toInt_sub_one (by omega), length]

/-! ## One look at a position -/

theorem substring_of_inside {pos : Int32} (nonneg : 0 ≤ pos.toInt)
    (inside : pos.toInt ≤ text.length) :
    substring text pos = .ok (text.take pos.toInt.toNat) := by
  rw [substring, if_neg (by omega)]

/-- A position of the text can be looked at; what is found there tells the number of lines. -/
theorem finPos_of_inside {pos : Int32} (nonneg : 0 ≤ pos.toInt)
    (inside : pos.toInt ≤ text.length) :
    ∃ find, view.finPos text pos = .ok find ∧
      (find = 0 → (view.makeTextLayout
        (view.labelled (text.take pos.toInt.toNat))).lineCount = view.foldLine) := by
  rw [finPos, substring_of_inside nonneg inside, ok_bind]
  dsimp only
  split_ifs with exact more
  · exact ⟨0, rfl, fun _ => exact.1⟩
  · exact ⟨1, rfl, by simp⟩
  · exact ⟨-1, rfl, by simp⟩

theorem finPos_of_neg {pos : Int32} (negative : pos.toInt < 0) :
    view.finPos text pos = .error .stringIndexOutOfBounds := by
  rw [finPos, substring, if_pos (Or.inl negative), error_bind]

/-! ## The search -/

/-- Between bounds whose sums do not overflow, the search ends at a position of the text. -/
theorem bisect_ok {fuel : ℕ} (startNonneg : 0 ≤ start.toInt)
    (crossed : start.toInt ≤ stop.toInt + 1) (stopInside : stop.toInt < max text.length 1)
    (short : text.length ≤ 1073741824) (room : stop.toInt + 1 - start.toInt < fuel) :
    ∃ mid find, view.bisect text fuel start stop = .ok (mid, find) ∧
      (find = 0 → 0 ≤ mid.toInt ∧ mid.toInt ≤ text.length ∧
        (view.makeTextLayout
          (view.labelled (text.take mid.toInt.toNat))).lineCount = view.foldLine) := by
  induction fuel generalizing start stop with
  | zero => omega
  | succ fuel ih =>
      rcases toInt_middle startNonneg crossed (by omega) with ⟨nonneg, below, between⟩
      have inside : ((start + stop) / 2).toInt ≤ text.length := by omega
      rcases @finPos_of_inside view text _ nonneg inside with ⟨find, looked, lines⟩
      rw [bisect, looked, ok_bind]
      split_ifs with goesOn tooMany
      · have apart := between (Int32.lt_iff_toInt_lt.mp goesOn.2)
        have left := @toInt_sub_one ((start + stop) / 2) (by omega)
        exact ih startNonneg (by omega) (by omega) (by omega)
      · have apart := between (Int32.lt_iff_toInt_lt.mp goesOn.2)
        have right := @toInt_add_one ((start + stop) / 2) (by omega)
        exact ih (by omega) (by omega) stopInside (by omega)
      · exact ⟨_, find, rfl, fun found => ⟨nonneg, inside, lines found⟩⟩

/-- A layout on which no prefix takes enough lines. -/
def oneLine : StaticLayout where
  lineCount := 1
  lineEnd := fun _ => 0

/-- A view with two lines which lays every text out on one. -/
def wide : FolderTextView where
  foldLine := 2
  mUnFoldText := []
  makeTextLayout := fun _ => oneLine

theorem lawful_wide : wide.Lawful where
  foldLine_pos := by decide
  lineCount_pos := fun _ => Nat.le_refl 1
  lineEnd_le := fun _ _ _ => Nat.zero_le _

theorem finPos_wide {pos : Int32} (nonneg : 0 ≤ pos.toInt) (inside : pos.toInt ≤ text.length) :
    wide.finPos text pos = .ok (-1) := by
  rw [finPos, substring_of_inside nonneg inside, ok_bind]
  rfl

/-- A search which only goes to the right comes to two bounds whose sum overflows. -/
theorem bisect_wide {fuel : ℕ} (startNonneg : 0 ≤ start.toInt) (ordered : start.toInt ≤ stop.toInt)
    (stopInside : stop.toInt < text.length) (large : 1073741824 ≤ stop.toInt)
    (room : stop.toInt - start.toInt < fuel) :
    wide.bisect text fuel start stop = .error .stringIndexOutOfBounds := by
  induction fuel generalizing start with
  | zero => omega
  | succ fuel ih =>
      rcases lt_or_ge (start.toInt + stop.toInt) 2147483648 with small | overflow
      · rcases toInt_middle startNonneg (by omega) small with ⟨nonneg, below, between⟩
        have apart := between (by omega)
        have right := @toInt_add_one ((start + stop) / 2) (by omega)
        rw [bisect, finPos_wide nonneg (by omega), ok_bind,
          if_pos ⟨by decide, Int32.lt_iff_toInt_lt.mpr (by omega)⟩, if_neg (by decide)]
        exact ih (by omega) (by omega) (by omega)
      · rw [bisect, finPos_of_neg (toInt_middle_neg overflow), error_bind]

/-! ## The whole text -/

theorem Fits.of_prefix {view : FolderTextView} {text shown : JString} {count : ℕ}
    (fits : view.Fits (text.take count) shown) : view.Fits text shown := by
  rcases fits with ⟨kept, keptPrefix, rest⟩ | bare
  · exact Or.inl ⟨kept, keptPrefix.trans (List.take_prefix _ _), rest⟩
  · exact Or.inr bare

/-- The recursion goes to shorter texts only, so it ends, and with a result that fits. -/
theorem tailorText_fits {fuel : ℕ} (short : text.length ≤ 1073741824)
    (room : text.length + 1 < fuel) :
    ∃ shown, view.tailorText fuel text = .ok shown ∧ view.Fits text shown := by
  induction fuel generalizing text with
  | zero => omega
  | succ fuel ih =>
      have bounded : text.length < 2147483648 := by omega
      have last := toInt_textLength_sub_one bounded
      have searched : ∃ mid find,
          view.bisect text fuel 0 (textLength text - 1) = .ok (mid, find) ∧
            (find = 0 → 0 ≤ mid.toInt ∧ mid.toInt ≤ text.length ∧
              (view.makeTextLayout
                (view.labelled (text.take mid.toInt.toNat))).lineCount = view.foldLine) := by
        have first : (0 : Int32).toInt = 0 := rfl
        apply bisect_ok <;> omega
      rcases searched with ⟨mid, find, ended, lines⟩
      rw [tailorText, ended, ok_bind]
      dsimp only
      split_ifs with found
      · rcases lines found with ⟨nonneg, inside, exact⟩
        rw [substring_of_inside nonneg inside, ok_bind]
        exact ⟨_, rfl, Or.inl ⟨_, List.take_prefix _ _, rfl, exact.le⟩⟩
      · rw [tailorTextBackUp]
        dsimp only
        split_ifs with tooMany nothingLeft
        · exact ⟨_, rfl, Or.inr rfl⟩
        · have shorter : (text.take (min ((view.makeTextLayout (view.labelled text)).lineEnd
              (view.foldLine - 1)) text.length - 1)).length < text.length := by
            rw [List.length_take]
            omega
          rcases ih (shorter.le.trans short) (by omega) with ⟨shown, tailored, fits⟩
          exact ⟨shown, tailored, fits.of_prefix⟩
        · exact ⟨_, rfl, Or.inl ⟨text, List.prefix_refl text, rfl, by omega⟩⟩

theorem tailorText_wide {fuel : ℕ} (bounded : text.length < 2147483648)
    (long : 1073741824 < text.length) (room : text.length < fuel) :
    wide.tailorText fuel text = .error .stringIndexOutOfBounds := by
  cases fuel with
  | zero => omega
  | succ fuel =>
      have first : (0 : Int32).toInt = 0 := rfl
      have last := toInt_textLength_sub_one bounded
      have searched :
          wide.bisect text fuel 0 (textLength text - 1) = .error .stringIndexOutOfBounds := by
        apply bisect_wide <;> omega
      rw [tailorText, searched, error_bind]

theorem not_tailorsToFit_wide (bounded : text.length < 2147483648)
    (long : 1073741824 < text.length) : ¬wide.TailorsToFit text := by
  rintro ⟨enough, tailors⟩
  rcases tailors (enough + text.length + 1) (by omega) with ⟨shown, returned, -⟩
  rw [tailorText_wide bounded long (by omega)] at returned
  cases returned

end AndroidCollection.Layout.FolderTextView
