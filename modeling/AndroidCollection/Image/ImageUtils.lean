import AndroidCollection.Java.Basic
import Mathlib.Data.List.Range
import Mathlib.Logic.Function.Iterate

/-!
# Lowering the quality of an image

`compressImage` encodes a bitmap at full quality, and then at a quality which is lower
by ten each time, until it takes no more than 500 KB. Nothing else ends the loop: an
image which is still too large at quality zero is encoded at a negative quality next.
The encoder refuses that, but it has been asked for it.

A bitmap is taken for the length of what it is encoded to at each quality.
-/

namespace AndroidCollection.Image

/-- The variables of the loop, and the qualities which have been passed to the encoder. -/
structure Compression where
  options : Int32
  baos : ℕ
  passed : List Int32

section CompressImage

variable (bitmap : Int32 → ℕ)

def beforeLoop : Compression :=
  ⟨100, bitmap 100, [100]⟩

def Compression.tooLarge (compression : Compression) : Bool :=
  compression.baos / 1024 > 500

def lowerQuality (compression : Compression) : Compression :=
  let options := compression.options - 10
  ⟨options, bitmap options, compression.passed ++ [options]⟩

def compressLoop : ℕ → Compression → Option Compression
  | 0, _ => none
  | fuel + 1, compression =>
      if compression.tooLarge then compressLoop fuel (lowerQuality bitmap compression)
      else some compression

def round (compression : Compression) : Compression :=
  if compression.tooLarge then lowerQuality bitmap compression else compression

/-- Where the loop is after so many rounds, or where it has ended before. -/
def afterRounds (rounds : ℕ) : Compression :=
  (round bitmap)^[rounds] (beforeLoop bitmap)

/-- Each quality is in the range of the encoder, and the loop ends. -/
def Compresses : Prop :=
  (∀ rounds, ∀ quality ∈ (afterRounds bitmap rounds).passed, 0 ≤ quality ∧ quality ≤ 100) ∧
    ∃ fuel, (compressLoop bitmap fuel (beforeLoop bitmap)).isSome = true

/-- The qualities from 100 down. -/
def lowered (rounds : ℕ) : Int32 :=
  100 - 10 * Int32.ofNat rounds

/-- The image is small enough at one of the qualities 100, 90 and so on to 0. -/
def Compressible : Prop :=
  ∃ rounds ≤ 10, bitmap (lowered rounds) / 1024 ≤ 500

/-! ## The rounds -/

theorem lowered_succ (rounds : ℕ) : lowered (rounds + 1) = lowered rounds - 10 := by
  rw [lowered, lowered, Int32.ofNat_add]
  grind

theorem lowered_bounds : ∀ rounds ≤ 10, 0 ≤ lowered rounds ∧ lowered rounds ≤ 100 := by
  decide

theorem afterRounds_succ (rounds : ℕ) :
    afterRounds bitmap (rounds + 1) = round bitmap (afterRounds bitmap rounds) :=
  Function.iterate_succ_apply' _ _ _

variable {bitmap} {rounds : ℕ}

/-- As long as the image is too large, each round lowers the quality. -/
theorem afterRounds_of_large
    (large : ∀ earlier < rounds, 500 < bitmap (lowered earlier) / 1024) :
    afterRounds bitmap rounds =
      ⟨lowered rounds, bitmap (lowered rounds), (List.range (rounds + 1)).map lowered⟩ := by
  induction rounds with
  | zero => rfl
  | succ rounds ih =>
      have before := ih fun earlier less => large earlier (Nat.lt_succ_of_lt less)
      have again : (afterRounds bitmap rounds).tooLarge = true := by
        rw [before]
        exact decide_eq_true (large rounds (Nat.lt_succ_self rounds))
      rw [afterRounds_succ, round, if_pos again, before, lowerQuality, ← lowered_succ,
        List.range_succ (n := rounds + 1), List.map_append]
      rfl

theorem tooLarge_of_large (large : ∀ earlier ≤ rounds, 500 < bitmap (lowered earlier) / 1024) :
    (afterRounds bitmap rounds).tooLarge = true := by
  rw [afterRounds_of_large fun earlier less => large earlier less.le]
  exact decide_eq_true (large rounds (Nat.le_refl rounds))

section Ending

variable (large : ∀ earlier < rounds, 500 < bitmap (lowered earlier) / 1024)
  (small : bitmap (lowered rounds) / 1024 ≤ 500)
include large small

theorem not_tooLarge_of_small : (afterRounds bitmap rounds).tooLarge = false := by
  rw [afterRounds_of_large large]
  exact decide_eq_false (Nat.not_lt.2 small)

theorem afterRounds_of_small {later : ℕ} (le : rounds ≤ later) :
    afterRounds bitmap later = afterRounds bitmap rounds := by
  induction later, le using Nat.le_induction with
  | base => rfl
  | succ later le ih =>
      rw [afterRounds_succ, ih, round, not_tooLarge_of_small large small, if_neg (by decide)]

/-- The loop ends after as many rounds as are left. -/
theorem isSome_compressLoop {left earlier : ℕ} (whole : earlier + left = rounds) :
    (compressLoop bitmap (left + 1) (afterRounds bitmap earlier)).isSome = true := by
  induction left generalizing earlier with
  | zero =>
      obtain rfl : earlier = rounds := whole
      rw [compressLoop, not_tooLarge_of_small large small]
      rfl
  | succ left ih =>
      have again : (afterRounds bitmap earlier).tooLarge = true :=
        tooLarge_of_large fun before le => large before (by omega)
      have next : lowerQuality bitmap (afterRounds bitmap earlier) =
          afterRounds bitmap (earlier + 1) := by
        rw [afterRounds_succ, round, if_pos again]
      rw [compressLoop, if_pos again, next]
      exact ih (by omega)

end Ending

theorem compresses_of_compressible (compressible : Compressible bitmap) : Compresses bitmap := by
  have least := Nat.find_spec compressible
  have large : ∀ earlier < Nat.find compressible, 500 < bitmap (lowered earlier) / 1024 := by
    intro earlier less
    have other := Nat.find_min compressible less
    omega
  constructor
  · intro count quality member
    have within : afterRounds bitmap count =
        afterRounds bitmap (min count (Nat.find compressible)) := by
      rcases Nat.le_total count (Nat.find compressible) with before | after
      · rw [min_eq_left before]
      · rw [min_eq_right after, afterRounds_of_small large least.2 after]
    rw [within, afterRounds_of_large fun earlier less =>
      large earlier (less.trans_le (min_le_right _ _))] at member
    rcases List.mem_map.1 member with ⟨earlier, inRange, rfl⟩
    rw [List.mem_range] at inRange
    exact lowered_bounds earlier (by omega)
  · exact ⟨_, isSome_compressLoop large least.2 (Nat.zero_add _)⟩

/-- The eleventh round would be at quality -10. -/
theorem compressible_of_compresses (compresses : Compresses bitmap) : Compressible bitmap := by
  by_contra incompressible
  have large : ∀ earlier < 11, 500 < bitmap (lowered earlier) / 1024 := by
    intro earlier less
    by_contra small
    exact incompressible ⟨earlier, by omega, by omega⟩
  have passed := compresses.1 11 (lowered 11) (by
    rw [afterRounds_of_large large]
    exact List.mem_map_of_mem (by decide))
  exact absurd passed.1 (by decide)

theorem compresses_iff (bitmap : Int32 → ℕ) : Compresses bitmap ↔ Compressible bitmap :=
  ⟨compressible_of_compresses, compresses_of_compressible⟩

end CompressImage

theorem not_compresses_megabyte : ¬Compresses fun _ => 1048576 := by
  intro compresses
  exact absurd (compresses.1 11 (-10) (by decide)).1 (by decide)

end AndroidCollection.Image
