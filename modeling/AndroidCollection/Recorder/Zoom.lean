import AndroidCollection.Java.Basic
import AndroidCollection.Lib.Machine
import Mathlib.Data.Rat.Floor
import Mathlib.Tactic.Linarith

/-!
# Zooming with two fingers

`MyTouchListener` moves the zoom level by one with each event whose fingers are
further apart, or closer, than before, up to ten times the maximum digital zoom.
Each side of the sensor is cropped at both ends by as many hundredths of what may
go as the level says, rounded down to a multiple of four. From a level of about
fifty on nothing is left between the ends, and a camera whose maximum digital zoom
is above five has such levels.

The crop region is given in coordinates which begin at the corner of the active
array. Sizes and levels are `int`s, zooms and distances are rational numbers.
-/

namespace AndroidCollection.Recorder.Zoom

open Java

/-- The characteristics of a camera which are read. -/
structure Camera where
  width : Int32
  height : Int32
  maxDigitalZoom : ℚ
  width_le : 100 ≤ width.toInt
  height_le : 100 ≤ height.toInt
  maxDigitalZoom_le : 1 ≤ maxDigitalZoom

/-- A touch event: the number of fingers, and the distance of the first two. -/
structure MotionEvent where
  pointerCount : ℕ
  fingerSpacing : ℚ

structure Rect where
  left : Int32
  top : Int32
  right : Int32
  bottom : Int32
deriving DecidableEq

structure MyTouchListener where
  finger_spacing : ℚ := 0
  zoom_level : Int32 := 1
  mZoom : Option Rect := none

def Camera.maxzoom (camera : Camera) : ℚ :=
  camera.maxDigitalZoom * 10

/-- `(int) (side / maxzoom)`, which is not negative. -/
def minSide (side : Int32) (maxzoom : ℚ) : Int32 :=
  Int32.ofInt ⌊(side.toInt : ℚ) / maxzoom⌋

/-- What is cropped at each end of a side. -/
def crop (side : Int32) (maxzoom : ℚ) (level : Int32) : Int32 :=
  let dif := side - minSide side maxzoom
  let crop := dif / 100 * level
  crop - (crop &&& 3)

def nextLevel (camera : Camera) (listener : MyTouchListener) (spacing : ℚ) : Int32 :=
  if listener.finger_spacing < spacing ∧ (listener.zoom_level.toInt : ℚ) < camera.maxzoom then
    listener.zoom_level + 1
  else if spacing < listener.finger_spacing ∧ 1 < listener.zoom_level then
    listener.zoom_level - 1
  else
    listener.zoom_level

def zoomRect (camera : Camera) (level : Int32) : Rect :=
  let cropW := crop camera.width camera.maxzoom level
  let cropH := crop camera.height camera.maxzoom level
  ⟨cropW, cropH, camera.width - cropW, camera.height - cropH⟩

def onTouch (camera : Camera) (listener : MyTouchListener) (event : MotionEvent) :
    MyTouchListener × Bool :=
  if 1 < event.pointerCount then
    if listener.finger_spacing ≠ 0 then
      let level := nextLevel camera listener event.fingerSpacing
      (⟨event.fingerSpacing, level, some (zoomRect camera level)⟩, true)
    else
      ({ listener with finger_spacing := event.fingerSpacing }, true)
  else
    (listener, true)

/-- A rectangle with an inside, within the active array. -/
structure Rect.Valid (camera : Camera) (rect : Rect) : Prop where
  left : 0 ≤ rect.left.toInt
  top : 0 ≤ rect.top.toInt
  width : rect.left.toInt < rect.right.toInt
  height : rect.top.toInt < rect.bottom.toInt
  right : rect.right.toInt ≤ camera.width.toInt
  bottom : rect.bottom.toInt ≤ camera.height.toInt

/-- The crop region is valid if there is one. -/
def ZoomValid (camera : Camera) (listener : MyTouchListener) : Prop :=
  ∀ rect, listener.mZoom = some rect → rect.Valid camera

/-- The hundredths of what may go of a side. -/
def hundredth (side : ℤ) (maxzoom : ℚ) : ℤ :=
  (side - ⌊(side : ℚ) / maxzoom⌋) / 100

/-- What the level takes from each end of a side is less than half of it. -/
def LeavesInside (side : ℤ) (maxzoom : ℚ) (level : ℤ) : Prop :=
  2 * (hundredth side maxzoom * level - hundredth side maxzoom * level % 4) < side

/-- Both sides keep an inside at the level. -/
structure Camera.Leaves (camera : Camera) (level : ℤ) : Prop where
  width : LeavesInside camera.width.toInt camera.maxzoom level
  height : LeavesInside camera.height.toInt camera.maxzoom level

/-- Both sides keep an inside at the highest level, ten times the maximum zoom rounded up. -/
def Camera.Moderate (camera : Camera) : Prop :=
  camera.Leaves ⌈camera.maxzoom⌉

/-! ## The crop of a side -/

theorem toInt_and_three {value : Int32} (nonneg : 0 ≤ value.toInt) :
    (value &&& 3).toInt = value.toInt % 4 := by
  have word : value.toInt = value.toBitVec.toNat := by
    rw [← Int32.toInt_toBitVec, BitVec.toInt_eq_toNat_cond] at nonneg ⊢
    split at nonneg
    · rw [if_pos ‹_›]
    · have := value.toBitVec.isLt
      omega
  have low : (value.toBitVec &&& (3 : Int32).toBitVec).toNat = value.toBitVec.toNat % 4 := by
    rw [BitVec.toNat_and]
    exact Nat.and_two_pow_sub_one_eq_mod _ 2
  rw [← Int32.toInt_toBitVec, Int32.toBitVec_and, BitVec.toInt_eq_toNat_of_lt (by omega), low,
    word]
  rfl

theorem floor_div_bounds {side : ℤ} {maxzoom : ℚ} (nonneg : 0 ≤ side) (large : 1 ≤ maxzoom) :
    0 ≤ ⌊(side : ℚ) / maxzoom⌋ ∧ ⌊(side : ℚ) / maxzoom⌋ ≤ side := by
  have sideNonneg : (0 : ℚ) ≤ side := by exact_mod_cast nonneg
  constructor
  · exact Int.floor_nonneg.mpr (div_nonneg sideNonneg (by linarith))
  · have below := Int.floor_le ((side : ℚ) / maxzoom)
    have smaller := div_le_self sideNonneg large
    have floorLe : ((⌊(side : ℚ) / maxzoom⌋ : ℤ) : ℚ) ≤ side := by linarith
    exact_mod_cast floorLe

section Sides

variable {side : Int32} {maxzoom : ℚ} (nonneg : 0 ≤ side.toInt) (large : 1 ≤ maxzoom)
include nonneg large

theorem hundredth_bounds :
    0 ≤ hundredth side.toInt maxzoom ∧ 100 * hundredth side.toInt maxzoom ≤ side.toInt := by
  have bounds := floor_div_bounds nonneg large
  rw [hundredth]
  omega

theorem toInt_hundredth :
    ((side - minSide side maxzoom) / 100).toInt = hundredth side.toInt maxzoom := by
  have bounds := floor_div_bounds nonneg large
  have bound := side.toInt_lt
  have minimal : (minSide side maxzoom).toInt = ⌊(side.toInt : ℚ) / maxzoom⌋ :=
    Int32.toInt_ofInt_of_le (by omega) (by omega)
  have dif : (side - minSide side maxzoom).toInt = side.toInt - ⌊(side.toInt : ℚ) / maxzoom⌋ := by
    rw [toInt_sub_exact (by omega) (by omega), minimal]
  rw [Int32.toInt_div_of_ne_right _ _ (by decide), dif, hundredth]
  exact Int.tdiv_eq_ediv_of_nonneg (by omega)

/-- While the product stays in range, the crop is the next multiple of four below it. -/
theorem toInt_crop {level : Int32} (levelNonneg : 0 ≤ level.toInt)
    (inRange : hundredth side.toInt maxzoom * level.toInt < 2147483648) :
    (crop side maxzoom level).toInt =
      hundredth side.toInt maxzoom * level.toInt -
        hundredth side.toInt maxzoom * level.toInt % 4 := by
  have productNonneg : 0 ≤ hundredth side.toInt maxzoom * level.toInt :=
    Int.mul_nonneg (hundredth_bounds nonneg large).1 levelNonneg
  have factor := toInt_hundredth nonneg large
  have product : ((side - minSide side maxzoom) / 100 * level).toInt =
      hundredth side.toInt maxzoom * level.toInt := by
    rw [← factor] at productNonneg inRange
    rw [toInt_mul_exact (by omega) inRange, factor]
  have low := @toInt_and_three ((side - minSide side maxzoom) / 100 * level) (by omega)
  rw [crop, toInt_sub_exact (by omega) (by omega), low, product]

/-- A crop which is in range leaves its end of the side inside the array. -/
theorem toInt_sub_crop {level : Int32} (levelNonneg : 0 ≤ level.toInt)
    (inRange : hundredth side.toInt maxzoom * level.toInt < 2147483648) :
    0 ≤ (crop side maxzoom level).toInt ∧
      (side - crop side maxzoom level).toInt = side.toInt - (crop side maxzoom level).toInt := by
  have productNonneg : 0 ≤ hundredth side.toInt maxzoom * level.toInt :=
    Int.mul_nonneg (hundredth_bounds nonneg large).1 levelNonneg
  have cropped := toInt_crop nonneg large levelNonneg inRange
  have bound := side.toInt_lt
  exact ⟨by omega, toInt_sub_exact (by omega) (by omega)⟩

end Sides

namespace Camera

variable (camera : Camera)

theorem one_le_maxzoom : 1 ≤ camera.maxzoom := by
  have := camera.maxDigitalZoom_le
  rw [maxzoom]
  linarith

/-- The products of a level stay in the range of an `int`. -/
structure InRange (level : ℤ) : Prop where
  width : hundredth camera.width.toInt camera.maxzoom * level < 2147483648
  height : hundredth camera.height.toInt camera.maxzoom * level < 2147483648

end Camera

theorem valid_zoomRect_iff {camera : Camera} {level : Int32} (levelNonneg : 0 ≤ level.toInt)
    (inRange : camera.InRange level.toInt) :
    (zoomRect camera level).Valid camera ↔ camera.Leaves level.toInt := by
  have widthNonneg : 0 ≤ camera.width.toInt := by
    have := camera.width_le
    omega
  have heightNonneg : 0 ≤ camera.height.toInt := by
    have := camera.height_le
    omega
  have large := camera.one_le_maxzoom
  have cropW := toInt_crop widthNonneg large levelNonneg inRange.width
  have cropH := toInt_crop heightNonneg large levelNonneg inRange.height
  have right := toInt_sub_crop widthNonneg large levelNonneg inRange.width
  have bottom := toInt_sub_crop heightNonneg large levelNonneg inRange.height
  constructor
  · rintro ⟨-, -, width, height, -, -⟩
    simp only [zoomRect] at width height
    exact ⟨by rw [LeavesInside]; omega, by rw [LeavesInside]; omega⟩
  · rintro ⟨width, height⟩
    rw [LeavesInside] at width height
    constructor <;> simp only [zoomRect] <;> omega

/-! ## Levels -/

section Levels

variable {side level : ℤ} {maxzoom : ℚ}

/-- What leaves an inside at a level does so at every lower one. -/
theorem LeavesInside.mono {lower : ℤ} (leaves : LeavesInside side maxzoom level)
    (nonneg : 0 ≤ hundredth side maxzoom) (le : lower ≤ level) :
    LeavesInside side maxzoom lower := by
  have product := Int.mul_le_mul_of_nonneg_left le nonneg
  rw [LeavesInside] at leaves ⊢
  omega

/-- A level which leaves an inside is in range, and so is the next one. -/
theorem LeavesInside.next_inRange (leaves : LeavesInside side maxzoom level)
    (sideInt : side < 2147483648) (small : 100 * hundredth side maxzoom ≤ side)
    (nonneg : 0 ≤ hundredth side maxzoom) :
    hundredth side maxzoom * level < 2147483648 ∧
      hundredth side maxzoom * (level + 1) < 2147483648 := by
  rw [LeavesInside] at leaves
  rw [Int.mul_add, Int.mul_one]
  omega

/-- While an inside is left, the levels up to the highest one are `int`s: either each level takes
something, or the zoom is at most the side. -/
theorem LeavesInside.level_lt (leaves : LeavesInside side maxzoom level)
    (sideInt : side < 2147483648) (sideLe : 100 ≤ side) (levelNonneg : 0 ≤ level)
    (large : 1 ≤ maxzoom) (nonneg : 0 ≤ hundredth side maxzoom) :
    level < 2147483647 ∨ ⌈maxzoom⌉ ≤ side := by
  rcases nonneg.lt_or_eq with takes | nothing
  · left
    have atLeast := Int.mul_le_mul_of_nonneg_right takes levelNonneg
    rw [LeavesInside] at leaves
    omega
  · right
    have floorPos : 1 ≤ ⌊(side : ℚ) / maxzoom⌋ := by
      rw [hundredth] at nothing
      omega
    rw [Int.le_floor, le_div_iff₀ (by linarith)] at floorPos
    rw [Int.ceil_le]
    simpa using floorPos

end Levels

section Runs

variable {camera : Camera}

/-- The bounds of a side, and of the hundredths of what may go of it. -/
theorem width_bounds (camera : Camera) :
    100 ≤ camera.width.toInt ∧ camera.width.toInt < 2147483648 ∧
      0 ≤ hundredth camera.width.toInt camera.maxzoom ∧
      100 * hundredth camera.width.toInt camera.maxzoom ≤ camera.width.toInt := by
  have atLeast := camera.width_le
  have bounds := @hundredth_bounds camera.width _ (by omega) camera.one_le_maxzoom
  exact ⟨atLeast, camera.width.toInt_lt, bounds⟩

theorem height_bounds (camera : Camera) :
    100 ≤ camera.height.toInt ∧ camera.height.toInt < 2147483648 ∧
      0 ≤ hundredth camera.height.toInt camera.maxzoom ∧
      100 * hundredth camera.height.toInt camera.maxzoom ≤ camera.height.toInt := by
  have atLeast := camera.height_le
  have bounds := @hundredth_bounds camera.height _ (by omega) camera.one_le_maxzoom
  exact ⟨atLeast, camera.height.toInt_lt, bounds⟩

theorem Camera.Leaves.mono {level lower : ℤ} (leaves : camera.Leaves level) (le : lower ≤ level) :
    camera.Leaves lower :=
  ⟨leaves.width.mono (width_bounds camera).2.2.1 le,
    leaves.height.mono (height_bounds camera).2.2.1 le⟩

theorem Camera.Leaves.inRange {level : ℤ} (leaves : camera.Leaves level) :
    camera.InRange level ∧ camera.InRange (level + 1) := by
  rcases width_bounds camera with ⟨-, wideInt, wideNonneg, wideSmall⟩
  rcases height_bounds camera with ⟨-, highInt, highNonneg, highSmall⟩
  have width := leaves.width.next_inRange wideInt wideSmall wideNonneg
  have height := leaves.height.next_inRange highInt highSmall highNonneg
  exact ⟨⟨width.1, height.1⟩, ⟨width.2, height.2⟩⟩

/-- Such a level is an `int`, and so is the next one if there is one. -/
theorem Camera.Leaves.level_lt {level : ℤ} (leaves : camera.Leaves level) (nonneg : 0 ≤ level) :
    (level ≤ ⌈camera.maxzoom⌉ → level < 2147483648) ∧
      (level < ⌈camera.maxzoom⌉ → level + 1 < 2147483648) := by
  rcases width_bounds camera with ⟨sideLe, sideInt, stepNonneg, -⟩
  rcases leaves.width.level_lt sideInt sideLe nonneg camera.one_le_maxzoom stepNonneg with
    below | highest
  · exact ⟨fun _ => by omega, fun _ => by omega⟩
  · exact ⟨fun _ => by omega, fun _ => by omega⟩

/-- The level stays between one and the highest. -/
theorem nextLevel_bounds {listener : MyTouchListener} (spacing : ℚ)
    (highest : ⌈camera.maxzoom⌉ < 2147483648) (positive : 1 ≤ listener.zoom_level.toInt)
    (below : listener.zoom_level.toInt ≤ ⌈camera.maxzoom⌉) :
    1 ≤ (nextLevel camera listener spacing).toInt ∧
      (nextLevel camera listener spacing).toInt ≤ ⌈camera.maxzoom⌉ := by
  rw [nextLevel]
  split_ifs with apart closer
  · have lower := Int.lt_ceil.mpr apart.2
    rw [Java.toInt_add_one (by omega)]
    omega
  · have above : 1 < listener.zoom_level.toInt := Int32.lt_iff_toInt_lt.mp closer.2
    rw [Java.toInt_sub_one (by omega)]
    omega
  · exact ⟨positive, below⟩

/-- The level is between its bounds, and the region is valid. -/
structure Zooms (camera : Camera) (listener : MyTouchListener) : Prop where
  positive : 1 ≤ listener.zoom_level.toInt
  below : listener.zoom_level.toInt ≤ ⌈camera.maxzoom⌉
  valid : ZoomValid camera listener

theorem zooms_onTouch (moderate : camera.Moderate) {listener : MyTouchListener}
    (zooms : Zooms camera listener) (event : MotionEvent) :
    Zooms camera (onTouch camera listener event).1 := by
  have highest := (Camera.Leaves.level_lt moderate (Int.ceil_nonneg (by
    linarith [camera.one_le_maxzoom]))).1 le_rfl
  rw [onTouch]
  split_ifs with several moved
  · rcases nextLevel_bounds event.fingerSpacing highest zooms.positive zooms.below with
      ⟨positive, below⟩
    refine ⟨positive, below, ?_⟩
    intro rect computed
    rcases Option.some.inj computed with rfl
    have leaves := Camera.Leaves.mono moderate below
    exact (valid_zoomRect_iff (by omega) leaves.inRange.1).mpr leaves
  · exact ⟨zooms.positive, zooms.below, zooms.valid⟩
  · exact zooms

theorem zooms_initial (camera : Camera) : Zooms camera {} := by
  have atLeast : 1 ≤ ⌈camera.maxzoom⌉ := Int.one_le_ceil_iff.mpr (by
    linarith [camera.one_le_maxzoom])
  refine ⟨by decide, atLeast, ?_⟩
  intro rect computed
  cases computed

/-! ## Fingers which go apart -/

/-- Two fingers go further apart with each event. -/
def spread : ℕ → List MotionEvent
  | 0 => [⟨2, 1⟩]
  | n + 1 => spread n ++ [⟨2, n + 2⟩]

/-- After `n` more events the level is `n + 1`, if there is such a level, and the region is that of
this level. -/
theorem after_spread {n : ℕ} (level : (n : ℤ) + 1 ≤ ⌈camera.maxzoom⌉) (small : n + 1 < 2147483648) :
    ∃ zoom, Machine.after (onTouch camera) {} (spread n) = ⟨n + 1, Int32.ofNat (n + 1), zoom⟩ ∧
      (n ≠ 0 → zoom = some (zoomRect camera (Int32.ofNat (n + 1)))) := by
  induction n with
  | zero => exact ⟨none, by simp [spread, onTouch], by simp⟩
  | succ n ih =>
      rcases ih (by omega) (by omega) with ⟨zoom, reached, -⟩
      have toInt : (Int32.ofNat (n + 1)).toInt = n + 1 := by
        rw [Int32.toInt_ofNat_of_lt (by omega)]
        rfl
      have below : ((Int32.ofNat (n + 1)).toInt : ℚ) < camera.maxzoom := by
        rw [← Int.lt_ceil, toInt]
        omega
      have raised : nextLevel camera ⟨n + 1, Int32.ofNat (n + 1), zoom⟩ (n + 2) =
          Int32.ofNat (n + 1 + 1) := by
        rw [nextLevel, if_pos ⟨by linarith, below⟩]
        exact (Int32.ofNat_add (n + 1) 1).symm
      have moved : ((n : ℚ) + 1) ≠ 0 := by positivity
      refine ⟨_, ?_, fun _ => rfl⟩
      rw [spread, Machine.after_append, reached]
      simp only [Machine.after_cons, Machine.after_nil, onTouch, Nat.one_lt_ofNat, if_true, ne_eq,
        moved, not_false_eq_true, raised]
      congr 1
      push_cast
      ring

/-- If the region of every level which is reached is valid, each level leaves an inside. -/
theorem leaves_of_valid
    (valid : ∀ events, ZoomValid camera (Machine.after (onTouch camera) {} events)) {n : ℕ}
    (level : (n : ℤ) + 1 ≤ ⌈camera.maxzoom⌉) : camera.Leaves (n + 1) := by
  induction n with
  | zero =>
      rcases width_bounds camera with ⟨wide, -, -, wideSmall⟩
      rcases height_bounds camera with ⟨high, -, -, highSmall⟩
      constructor <;> rw [LeavesInside] <;> omega
  | succ n ih =>
      have leaves := ih (by omega)
      have small := (leaves.level_lt (by omega)).2 (by omega)
      rcases @after_spread camera (n + 1) level (by omega) with ⟨zoom, reached, computed⟩
      have rectValid := valid (spread (n + 1)) (zoomRect camera (Int32.ofNat (n + 1 + 1)))
      rw [reached, computed (by omega)] at rectValid
      have toInt : (Int32.ofNat (n + 1 + 1)).toInt = n + 1 + 1 := by
        rw [Int32.toInt_ofNat_of_lt (by omega)]
        rfl
      have inRange := leaves.inRange.2
      rw [← toInt] at inRange
      have next := (valid_zoomRect_iff (by omega) inRange).mp (rectValid rfl)
      rw [toInt] at next
      exact next

/-- The crop region is valid after all sequences of touches exactly if both sides of the camera keep
an inside at the highest level. -/
theorem zoomValid_iff (camera : Camera) :
    (∀ events, ZoomValid camera (Machine.after (onTouch camera) {} events)) ↔
      camera.Moderate := by
  constructor
  · intro valid
    have atLeast : 1 ≤ ⌈camera.maxzoom⌉ := Int.one_le_ceil_iff.mpr (by
      linarith [camera.one_le_maxzoom])
    have highest : ((⌈camera.maxzoom⌉ - 1).toNat : ℤ) + 1 = ⌈camera.maxzoom⌉ := by omega
    have leaves := @leaves_of_valid camera valid (⌈camera.maxzoom⌉ - 1).toNat highest.le
    rw [highest] at leaves
    exact leaves
  · intro moderate events
    exact (Machine.after_invariant (Zooms camera)
      (fun _ event zooms => zooms_onTouch moderate zooms event) (zooms_initial camera) events).valid

end Runs

/-- A sensor of 4000 by 3000 with a maximum digital zoom of eight. -/
def eightfold : Camera where
  width := 4000
  height := 3000
  maxDigitalZoom := 8
  width_le := by decide
  height_le := by decide
  maxDigitalZoom_le := by norm_num

theorem hundredth_eightfold :
    hundredth eightfold.width.toInt eightfold.maxzoom = 39 ∧
      hundredth eightfold.height.toInt eightfold.maxzoom = 29 := by
  have width : eightfold.width.toInt = 4000 := rfl
  have height : eightfold.height.toInt = 3000 := rfl
  have maxzoom : eightfold.maxzoom = 80 := by norm_num [Camera.maxzoom, eightfold]
  rw [width, height, maxzoom]
  norm_num [hundredth]

/-- At level 80 more is cropped from each end than half of the side. -/
theorem not_zoomValid_eightfold :
    ¬ZoomValid eightfold (Machine.after (onTouch eightfold) {} (spread 79)) := by
  have highest : ⌈eightfold.maxzoom⌉ = 80 := by norm_num [Camera.maxzoom, eightfold]
  rcases @after_spread eightfold 79 (by omega) (by omega) with ⟨zoom, reached, computed⟩
  rw [reached, computed (by omega)]
  intro valid
  have inRange : eightfold.InRange (Int32.ofNat (79 + 1)).toInt := by
    constructor
    · rw [hundredth_eightfold.1]
      decide
    · rw [hundredth_eightfold.2]
      decide
  have leaves := ((valid_zoomRect_iff (by decide) inRange).mp (valid _ rfl)).width
  rw [LeavesInside, hundredth_eightfold.1] at leaves
  exact absurd leaves (by decide)

end AndroidCollection.Recorder.Zoom
