import AndroidCollection.Lib.Machine
import Mathlib.Data.Rat.Floor
import Mathlib.Tactic.IntervalCases
import Mathlib.Tactic.Linarith
import Mathlib.Tactic.NormNum

/-!
# Stars

`RatingBar` has one child for each of its stars, and draws a rating on them: full
stars, perhaps half a star, and empty ones. Each value is first put on a ladder of
ratings which ends at five, however many stars there are. The loops then go to children
by the whole part of the rating, and no child is missing as long as the rating is not
above the number of stars. A value in that range never leads to such a rating, nor does
a click, but the constructor draws the value of an attribute which nothing restricts.

A float is taken for the rational number which it stands for, in the thresholds of the
ladder as well. The drawables of the stars are given, and `sameState` is the comparison
of the current drawable of a child with the one for half a star.
-/

namespace AndroidCollection.Layout

inductive StepSize where
  | half
  | full
deriving DecidableEq, Repr

structure RatingBar (Drawable : Type) where
  mClickable : Bool
  starCount : ℕ
  /-- Whether there is a listener. -/
  onRatingChangeListener : Bool
  starStep : ℚ
  starEmptyDrawable : Drawable
  starFillDrawable : Drawable
  starHalfDrawable : Drawable
  stepSize : StepSize
  /-- What the children show. -/
  children : List Drawable

structure StarAttributes (Drawable : Type) where
  starStep : ℚ
  stepSize : StepSize
  starCount : ℕ
  starEmpty : Drawable
  starFill : Drawable
  starHalf : Drawable
  clickable : Bool

namespace RatingBar

variable {Drawable : Type}

/-- The values of the literals `1.2f` to `4.7f` are those of the nearest floats. -/
def transformStars (star : ℚ) : ℚ :=
  if star = 0 then 0
  else if star < 1 then 1 / 2
  else if star ≤ 5033165 / 4194304 then 1
  else if star ≤ 7130317 / 4194304 then 3 / 2
  else if star ≤ 9227469 / 4194304 then 2
  else if star ≤ 11324621 / 4194304 then 5 / 2
  else if star ≤ 13421773 / 4194304 then 3
  else if star ≤ 15518925 / 4194304 then 7 / 2
  else if star ≤ 4404019 / 1048576 then 4
  else if star ≤ 4928307 / 1048576 then 9 / 2
  else 5

/-- The cast to `int`, which rounds towards zero. -/
def toInt (value : ℚ) : ℤ :=
  value.num.tdiv value.den

/-- `getChildAt(i).setImageDrawable` for some indices, where a missing child ends in a null
pointer. -/
def setImageDrawables (drawable : Drawable) : List Drawable → List ℕ → Option (List Drawable)
  | children, [] => some children
  | children, index :: indices =>
      if index < children.length then
        setImageDrawables drawable (children.set index drawable) indices
      else none

/-- The bar afterwards and the ratings which the listener is told, or a null pointer. -/
def setStar (bar : RatingBar Drawable) (star : ℚ) : Option (RatingBar Drawable × List ℚ) := do
  let rating := transformStars star
  let told := if bar.onRatingChangeListener then [rating] else []
  let fint := toInt rating
  let fPoint := rating - fint
  let filled ← setImageDrawables bar.starFillDrawable bar.children (List.range' 0 fint.toNat)
  let emptied ← setImageDrawables bar.starEmptyDrawable filled
    (List.range' fint.toNat (bar.starCount - fint.toNat))
  let halved ←
    if 0 < fPoint then setImageDrawables bar.starHalfDrawable emptied [fint.toNat]
    else some emptied
  some ({ bar with starStep := rating, children := halved }, told)

/-- The constructor, which ends with a call of `setStar`. -/
def construct (attributes : StarAttributes Drawable) : Option (RatingBar Drawable) :=
  let bar : RatingBar Drawable :=
    { mClickable := attributes.clickable
      starCount := attributes.starCount
      onRatingChangeListener := false
      starStep := attributes.starStep
      starEmptyDrawable := attributes.starEmpty
      starFillDrawable := attributes.starFill
      starHalfDrawable := attributes.starHalf
      stepSize := attributes.stepSize
      children := List.replicate attributes.starCount attributes.starEmpty }
  (bar.setStar attributes.starStep).map Prod.fst

def setOnRatingChangeListener (bar : RatingBar Drawable) : RatingBar Drawable :=
  { bar with onRatingChangeListener := true }

/-- The click listener of the child with an index. -/
def onClick (sameState : Drawable → Drawable → Bool) (bar : RatingBar Drawable) (index : ℕ) :
    Option (RatingBar Drawable × List ℚ) :=
  if bar.mClickable then
    let whole := toInt bar.starStep
    let fPoint := bar.starStep - whole
    let fint := if fPoint = 0 then whole - 1 else whole
    if fint < index then bar.setStar (index + 1)
    else if index = fint then
      if bar.stepSize = .full then some (bar, [])
      else if bar.children[index]?.any (sameState · bar.starHalfDrawable) then
        bar.setStar (index + 1)
      else bar.setStar (index + 1 / 2)
    else bar.setStar (index + 1)
  else some (bar, [])

/-! ## Values in range -/

structure Value (starCount : ℕ) where
  star : ℚ
  nonnegative : 0 ≤ star
  bounded : star ≤ starCount

def Value.whole {starCount : ℕ} (stars : ℕ) (le : stars ≤ starCount) : Value starCount :=
  ⟨stars, Nat.cast_nonneg stars, Nat.cast_le.2 le⟩

inductive Event (starCount : ℕ) where
  | setStar (value : Value starCount)
  | click (child : Fin starCount)

section Events

variable {starCount : ℕ} (sameState : Drawable → Drawable → Bool)

def handle (bar : RatingBar Drawable) : Event starCount → Option (RatingBar Drawable × List ℚ)
  | .setStar value => bar.setStar value.star
  | .click child => bar.onClick sameState child

/-- The bar after an event, and what the listener is told unless a child is missing. -/
def react (bar : RatingBar Drawable) (event : Event starCount) :
    RatingBar Drawable × Option (List ℚ) :=
  match bar.handle sameState event with
  | none => (bar, none)
  | some (changed, told) => (changed, some told)

/-- No child is missing, and a whole number is shown and told as it is. -/
def Shows (bar : RatingBar Drawable) (event : Event starCount) : Prop :=
  (react sameState bar event).2.isSome = true ∧
    ∀ value, event = .setStar value → ∀ stars : ℕ, value.star = stars →
      (react sameState bar event).1.children =
          List.replicate stars bar.starFillDrawable ++
            List.replicate (starCount - stars) bar.starEmptyDrawable ∧
        (react sameState bar event).2 = some [(stars : ℚ)]

/-- The ladder reaches the value if it is a whole number. -/
def OnLadder (event : Event starCount) : Prop :=
  ∀ value, event = .setStar value → ∀ stars : ℕ, value.star = stars → stars ≤ 5

end Events

/-! ## The ladder -/

/-- The rating is in the star which a positive value has begun, or at its end. -/
def InBegunStar (star rating : ℚ) : Prop :=
  ∃ begun : ℕ, (0 < star → (begun : ℚ) < star) ∧ (begun : ℚ) < rating ∧ rating ≤ begun + 1

theorem inBegunStar_ite {star rating rest : ℚ} {condition : Prop} [Decidable condition]
    (begun : ℕ) (reached : condition → 0 < star → (begun : ℚ) < star)
    (within : (begun : ℚ) < rating ∧ rating ≤ begun + 1)
    (above : ¬condition → InBegunStar star rest) :
    InBegunStar star (if condition then rating else rest) := by
  split
  · next holds => exact ⟨begun, reached holds, within⟩
  · next fails => exact above fails

theorem inBegunStar_transformStars {star : ℚ} (nonzero : star ≠ 0) :
    InBegunStar star (transformStars star) := by
  rw [transformStars, if_neg nonzero]
  refine inBegunStar_ite 0 (fun _ _ => by push_cast; linarith) (by norm_num) fun _ => ?_
  refine inBegunStar_ite 0 (fun _ _ => by push_cast; linarith) (by norm_num) fun _ => ?_
  refine inBegunStar_ite 1 (fun _ _ => by push_cast; linarith) (by norm_num) fun _ => ?_
  refine inBegunStar_ite 1 (fun _ _ => by push_cast; linarith) (by norm_num) fun _ => ?_
  refine inBegunStar_ite 2 (fun _ _ => by push_cast; linarith) (by norm_num) fun _ => ?_
  refine inBegunStar_ite 2 (fun _ _ => by push_cast; linarith) (by norm_num) fun _ => ?_
  refine inBegunStar_ite 3 (fun _ _ => by push_cast; linarith) (by norm_num) fun _ => ?_
  refine inBegunStar_ite 3 (fun _ _ => by push_cast; linarith) (by norm_num) fun _ => ?_
  refine inBegunStar_ite 4 (fun _ _ => by push_cast; linarith) (by norm_num) fun _ => ?_
  exact ⟨4, fun _ => by push_cast; linarith, by norm_num, by norm_num⟩

theorem transformStars_nonneg (star : ℚ) : 0 ≤ transformStars star := by
  by_cases zero : star = 0
  · rw [transformStars, if_pos zero]
  · rcases inBegunStar_transformStars zero with ⟨begun, _, less, _⟩
    have nonnegative : (0 : ℚ) ≤ begun := Nat.cast_nonneg begun
    linarith

theorem transformStars_le {star : ℚ} {starCount : ℕ} (nonnegative : 0 ≤ star)
    (bounded : star ≤ starCount) : transformStars star ≤ starCount := by
  rcases nonnegative.eq_or_lt with rfl | positive
  · rw [transformStars, if_pos rfl]
    exact bounded
  · rcases inBegunStar_transformStars positive.ne' with ⟨begun, reached, _, rating⟩
    have more : begun < starCount := by exact_mod_cast (reached positive).trans_le bounded
    have more : ((begun + 1 : ℕ) : ℚ) ≤ starCount := by exact_mod_cast more
    push_cast at more
    linarith

theorem transformStars_of_le_five {stars : ℕ} (low : stars ≤ 5) :
    transformStars stars = stars := by
  unfold transformStars
  interval_cases stars <;> norm_num

theorem transformStars_of_five_lt {stars : ℕ} (high : 5 < stars) : transformStars stars = 5 := by
  have high : (5 : ℚ) < stars := by exact_mod_cast high
  rw [transformStars, if_neg (by linarith), if_neg (by linarith), if_neg (by linarith),
    if_neg (by linarith), if_neg (by linarith), if_neg (by linarith), if_neg (by linarith),
    if_neg (by linarith), if_neg (by linarith), if_neg (by linarith)]

/-! ## Drawing -/

theorem toInt_of_nonneg {value : ℚ} (nonnegative : 0 ≤ value) :
    ∃ whole : ℕ, toInt value = whole ∧ (whole : ℚ) ≤ value ∧ value < whole + 1 := by
  refine ⟨⌊value⌋₊, ?_, Nat.floor_le nonnegative, Nat.lt_floor_add_one value⟩
  rw [toInt, Int.tdiv_eq_ediv_of_nonneg (Rat.num_nonneg.2 nonnegative),
    Int.natCast_floor_eq_floor nonnegative, Rat.floor_def']

/-- A rating which fits and is beyond its whole stars leaves room for the half one. -/
theorem whole_lt_of_half {rating : ℚ} {whole starCount : ℕ} (half : 0 < rating - whole)
    (fits : rating ≤ starCount) : whole < starCount := by
  have above : (whole : ℚ) < starCount := by linarith
  exact_mod_cast above

theorem setImageDrawables_range {drawable : Drawable} {children : List Drawable}
    {first count : ℕ} (enough : first + count ≤ children.length) :
    setImageDrawables drawable children (List.range' first count) =
      some (children.take first ++ List.replicate count drawable ++
        children.drop (first + count)) := by
  induction count generalizing first children with
  | zero => simp [setImageDrawables]
  | succ count ih =>
      have inside : first < children.length := by omega
      rw [List.range'_succ, setImageDrawables, if_pos inside, ih (by simp; omega)]
      have start : (children.set first drawable).take (first + 1) =
          children.take first ++ [drawable] := by
        rw [List.take_succ_eq_append_getElem (by simpa using inside), List.getElem_set_self,
          List.take_set_of_le (Nat.le_refl first)]
      have finish : (children.set first drawable).drop (first + 1 + count) =
          children.drop (first + (count + 1)) := by
        rw [List.drop_set_of_lt (by omega)]
        congr 1
        omega
      rw [start, finish, List.replicate_succ]
      simp

theorem setImageDrawables_missing {drawable : Drawable} {children : List Drawable}
    {first count : ℕ} (some_count : 0 < count) (few : children.length < first + count) :
    setImageDrawables drawable children (List.range' first count) = none := by
  induction count generalizing first children with
  | zero => exact absurd some_count (Nat.lt_irrefl 0)
  | succ count ih =>
      rw [List.range'_succ, setImageDrawables]
      split
      · next inside => exact ih (by omega) (by simp; omega)
      · rfl

def shown (bar : RatingBar Drawable) (rating : ℚ) : List Drawable :=
  let whole := (toInt rating).toNat
  List.replicate whole bar.starFillDrawable ++
    if 0 < rating - whole then
      bar.starHalfDrawable :: List.replicate (bar.starCount - whole - 1) bar.starEmptyDrawable
    else List.replicate (bar.starCount - whole) bar.starEmptyDrawable

section Drawing

variable {bar : RatingBar Drawable} (complete : bar.children.length = bar.starCount) {star : ℚ}
include complete

/-- As far as the whole stars are there, only the half star can be missing. -/
theorem setStar_of_whole {whole : ℕ} (cast : toInt (transformStars star) = whole)
    (within : whole ≤ bar.starCount) :
    bar.setStar star =
      (if 0 < transformStars star - whole then
          setImageDrawables bar.starHalfDrawable
            (List.replicate whole bar.starFillDrawable ++
              List.replicate (bar.starCount - whole) bar.starEmptyDrawable) [whole]
        else
          some (List.replicate whole bar.starFillDrawable ++
            List.replicate (bar.starCount - whole) bar.starEmptyDrawable)).map
        fun children =>
          ({ bar with starStep := transformStars star, children := children },
            if bar.onRatingChangeListener then [transformStars star] else []) := by
  have filled : setImageDrawables bar.starFillDrawable bar.children (List.range' 0 whole) =
      some (List.replicate whole bar.starFillDrawable ++ bar.children.drop whole) := by
    rw [setImageDrawables_range (by omega)]
    simp
  have emptied : setImageDrawables bar.starEmptyDrawable
        (List.replicate whole bar.starFillDrawable ++ bar.children.drop whole)
        (List.range' whole (bar.starCount - whole)) =
      some (List.replicate whole bar.starFillDrawable ++
        List.replicate (bar.starCount - whole) bar.starEmptyDrawable) := by
    rw [setImageDrawables_range (by simp; omega)]
    simp [complete, within]
  simp only [setStar, cast, Int.toNat_natCast, filled, emptied, Option.bind_eq_bind,
    Option.bind_some, Int.cast_natCast]
  rw [Option.map_eq_bind]
  split <;> rfl

theorem setStar_of_le (fits : transformStars star ≤ bar.starCount) :
    bar.setStar star =
      some ({ bar with
          starStep := transformStars star
          children := bar.shown (transformStars star) },
        if bar.onRatingChangeListener then [transformStars star] else []) := by
  rcases toInt_of_nonneg (transformStars_nonneg star) with ⟨whole, cast, least, less⟩
  have within : whole ≤ bar.starCount := by exact_mod_cast least.trans fits
  rw [setStar_of_whole complete cast within]
  simp only [shown, cast, Int.toNat_natCast]
  by_cases half : 0 < transformStars star - whole
  · have inside := whole_lt_of_half half fits
    have halved := @setImageDrawables_range _ bar.starHalfDrawable
      (List.replicate whole bar.starFillDrawable ++
        List.replicate (bar.starCount - whole) bar.starEmptyDrawable) whole 1 (by simp; omega)
    rw [List.range'_one] at halved
    simp only [if_pos half, halved, Option.map_some]
    simp [List.drop_append, Nat.sub_sub]
  · simp only [if_neg half, Option.map_some]

/-- Above the number of stars, a whole star or the half one is missing. -/
theorem setStar_of_lt (exceeds : bar.starCount < transformStars star) :
    bar.setStar star = none := by
  rcases toInt_of_nonneg (transformStars_nonneg star) with ⟨whole, cast, least, less⟩
  rcases Nat.lt_or_ge bar.starCount whole with missing | within
  · have unfilled := @setImageDrawables_missing _ bar.starFillDrawable bar.children 0 whole
      (by omega) (by omega)
    simp only [setStar, cast, Int.toNat_natCast, unfilled, Option.bind_eq_bind, Option.bind_none]
  · have within' : (whole : ℚ) ≤ bar.starCount := by exact_mod_cast within
    have next : (bar.starCount : ℚ) < (whole + 1 : ℕ) := by
      push_cast
      linarith
    have all : bar.starCount = whole := by
      have next : bar.starCount < whole + 1 := by exact_mod_cast next
      omega
    have half : 0 < transformStars star - whole := by
      rw [all] at exceeds
      linarith
    rw [setStar_of_whole complete cast within]
    simp only [if_pos half, all]
    simp [setImageDrawables]

end Drawing

/-! ## Events -/

/-- The bar has the children which the constructor has given it, and a listener. -/
structure Ready (starCount : ℕ) (bar : RatingBar Drawable) : Prop where
  starCount_eq : bar.starCount = starCount
  complete : bar.children.length = starCount
  listening : bar.onRatingChangeListener = true

theorem length_shown {bar : RatingBar Drawable} {rating : ℚ} (nonnegative : 0 ≤ rating)
    (fits : rating ≤ bar.starCount) : (bar.shown rating).length = bar.starCount := by
  rcases toInt_of_nonneg nonnegative with ⟨whole, cast, least, less⟩
  have within : whole ≤ bar.starCount := by exact_mod_cast least.trans fits
  simp only [shown, cast, Int.toNat_natCast]
  split
  · next half =>
      have inside := whole_lt_of_half half fits
      simp
      omega
  · simp
    omega

theorem shown_whole (bar : RatingBar Drawable) (stars : ℕ) :
    bar.shown stars =
      List.replicate stars bar.starFillDrawable ++
        List.replicate (bar.starCount - stars) bar.starEmptyDrawable := by
  have cast : toInt stars = stars := by simp [toInt]
  simp [shown, cast]

section Step

variable {starCount : ℕ} (sameState : Drawable → Drawable → Bool) {bar : RatingBar Drawable}
  (ready : Ready starCount bar)
include ready

theorem setStar_of_ready {star : ℚ} (nonnegative : 0 ≤ star) (bounded : star ≤ starCount) :
    bar.setStar star =
      some ({ bar with
          starStep := transformStars star
          children := bar.shown (transformStars star) }, [transformStars star]) := by
  have fits := transformStars_le nonnegative bounded
  rw [← ready.starCount_eq] at fits
  rw [setStar_of_le (ready.complete.trans ready.starCount_eq.symm) fits, ready.listening]
  rfl

theorem ready_setStar (star : ℚ) (nonnegative : 0 ≤ star) (bounded : star ≤ starCount) :
    ∃ changed told, bar.setStar star = some (changed, told) ∧ Ready starCount changed := by
  have fits := transformStars_le nonnegative bounded
  rw [← ready.starCount_eq] at fits
  refine ⟨_, _, setStar_of_ready ready nonnegative bounded, ready.starCount_eq, ?_,
    ready.listening⟩
  rw [← ready.starCount_eq]
  exact length_shown (transformStars_nonneg star) fits

/-- A click draws a value in range, or nothing. -/
theorem ready_onClick (child : Fin starCount) :
    ∃ changed told, bar.onClick sameState child = some (changed, told) ∧
      Ready starCount changed := by
  have next : ((child : ℕ) : ℚ) + 1 ≤ starCount := by exact_mod_cast child.isLt
  have nonnegative : (0 : ℚ) ≤ (child : ℕ) := Nat.cast_nonneg _
  have whole := ready_setStar ready ((child : ℕ) + 1) (by linarith) next
  have half := ready_setStar ready ((child : ℕ) + 1 / 2) (by linarith) (by linarith)
  have unchanged : ∃ changed told, some (bar, ([] : List ℚ)) = some (changed, told) ∧
      Ready starCount changed := ⟨bar, [], rfl, ready⟩
  simp only [onClick]
  split_ifs <;> assumption

theorem ready_handle (event : Event starCount) :
    ∃ changed told, bar.handle sameState event = some (changed, told) ∧
      Ready starCount changed := by
  cases event with
  | setStar value => exact ready_setStar ready value.star value.nonnegative value.bounded
  | click child => exact ready_onClick sameState ready child

theorem ready_react (event : Event starCount) : Ready starCount (react sameState bar event).1 := by
  rcases ready_handle sameState ready event with ⟨changed, told, handled, kept⟩
  rw [react, handled]
  exact kept

theorem isSome_react (event : Event starCount) :
    (react sameState bar event).2.isSome = true := by
  rcases ready_handle sameState ready event with ⟨changed, told, handled, _⟩
  rw [react, handled]
  rfl

theorem shows_iff_onLadder (event : Event starCount) :
    Shows sameState bar event ↔ OnLadder event := by
  rw [Shows, and_iff_right (isSome_react sameState ready event), OnLadder]
  refine forall_congr' fun value => forall_congr' fun asked => forall_congr' fun stars =>
    forall_congr' fun natural => ?_
  subst asked
  have handled : react sameState bar (.setStar value) =
      ({ bar with
          starStep := transformStars stars
          children := bar.shown (transformStars stars) }, some [transformStars stars]) := by
    rw [react, handle, setStar_of_ready ready value.nonnegative value.bounded, natural]
  rw [handled]
  rcases Nat.lt_or_ge 5 stars with high | low
  · have five := transformStars_of_five_lt high
    refine iff_of_false ?_ (by omega)
    rintro ⟨_, told⟩
    have same : (5 : ℚ) = stars := by simpa [five] using told
    have same : 5 = stars := by exact_mod_cast same
    omega
  · rw [transformStars_of_le_five low, shown_whole, ready.starCount_eq]
    exact iff_of_true ⟨rfl, rfl⟩ low

end Step

/-! ## Runs -/

theorem construct_of_le {attributes : StarAttributes Drawable}
    (fits : transformStars attributes.starStep ≤ attributes.starCount) :
    ∃ bar, construct attributes = some bar ∧
      Ready attributes.starCount bar.setOnRatingChangeListener := by
  rw [construct, setStar_of_le List.length_replicate fits]
  exact ⟨_, rfl, rfl, length_shown (transformStars_nonneg _) fits, rfl⟩

theorem construct_of_lt {attributes : StarAttributes Drawable}
    (exceeds : attributes.starCount < transformStars attributes.starStep) :
    construct attributes = none := by
  rw [construct, setStar_of_lt List.length_replicate exceeds]
  rfl

end RatingBar

end AndroidCollection.Layout
