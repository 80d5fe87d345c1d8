import Mathlib.Algebra.Order.Floor.Ring
import Mathlib.Algebra.Order.Ring.Rat
import Mathlib.Data.Rat.Floor
import Mathlib.Tactic.FieldSimp
import Mathlib.Tactic.Linarith
import PrimeRl.Support.Fallible
import PrimeRl.Value.Math

/-!
# Projecting value targets onto the support

A scalar target lies between two neighbouring points of the support, or on one of them.
The projection gives the two points the shares that make the target their mean. Arithmetic
is exact here, so that the shares of a point that is hit exactly are one and zero.
-/

namespace PrimeRl.Value.Math

universe u
variable {Scalar : Type u} [Field Scalar] [LinearOrder Scalar] [FloorRing Scalar]

/-- Why a projection raises. -/
inductive ProjectionError (Scalar : Type u) where
  | outsideRewardRange (target low high : Scalar)
  | indexOutOfBounds (index : Int)
deriving DecidableEq, Repr

/-- How far outside the reward range a target may lie. -/
def tolerance (low high : Scalar) : Scalar := 1 / 100000 * max (high - low) 1

/-- A target that the loss refuses. -/
def Invalid (low high target : Scalar) : Prop :=
  target < low - tolerance low high ∨ high + tolerance low high < target

instance (low high target : Scalar) : Decidable (Invalid low high target) :=
  inferInstanceAs (Decidable (_ ∨ _))

def clamp (low high value : Scalar) : Scalar := min (max value low) high

/-- `scatter_add_` at one index, which must be one of a bin. -/
def scatterAdd {numBins : Nat} (distribution : Fin numBins → Scalar) (index : Int)
    (weight : Scalar) : Except (ProjectionError Scalar) (Fin numBins → Scalar) :=
  if inside : 0 ≤ index ∧ index.toNat < numBins then
    let bin : Fin numBins := ⟨index.toNat, inside.2⟩
    .ok (Function.update distribution bin (distribution bin + weight))
  else .error (.indexOutOfBounds index)

/-- The place of a target on the support, counted in bins. -/
def binPosition (low high : Scalar) (numBins : Nat) (target : Scalar) : Scalar :=
  (clamp low high target - low) / (high - low) * ((numBins - 1 : Nat) : Scalar)

/-- The distribution of one target. -/
def projectTarget (low high : Scalar) (numBins : Nat) (target : Scalar) :
    Except (ProjectionError Scalar) (Fin numBins → Scalar) := do
  let position := binPosition low high numBins target
  let lower := ⌊position⌋
  let upper := ⌈position⌉
  let upperWeight := position - lower
  let lowerWeight := 1 - upperWeight
  let distribution ← scatterAdd (fun _ => 0) lower lowerWeight
  scatterAdd distribution upper upperWeight

/-- Project scalar targets onto adjacent support bins. The first target outside the range is
reported before any is projected. -/
def classificationTargetDistribution (low high : Scalar) (numBins : Nat) (targets : List Scalar) :
    Except (ProjectionError Scalar) (List (Fin numBins → Scalar)) :=
  match targets.find? (fun target => decide (Invalid low high target)) with
  | some target => .error (.outsideRewardRange target low high)
  | none => Fallible.collect (projectTarget low high numBins) targets

/-- The mean of a distribution over the support. -/
def expectation (low high : Scalar) {numBins : Nat} (distribution : Fin numBins → Scalar) : Scalar :=
  ∑ bin, distribution bin * support low high numBins bin

/-- A distribution over at most two adjacent bins, with a given mean. -/
structure TwoHot (low high : Scalar) {numBins : Nat} (mean : Scalar)
    (distribution : Fin numBins → Scalar) : Prop where
  nonneg : ∀ bin, 0 ≤ distribution bin
  total : ∑ bin, distribution bin = 1
  adjacent : ∃ lower : Nat, ∀ bin : Fin numBins, distribution bin ≠ 0 →
    (bin : Nat) = lower ∨ (bin : Nat) = lower + 1
  expected : expectation low high distribution = mean

/-! ## Two neighbouring bins -/

/-- Shares of two bins that need not be distinct. -/
def twoPoints {numBins : Nat} (lower upper : Fin numBins) (share : Scalar) (bin : Fin numBins) :
    Scalar :=
  (if bin = lower then 1 - share else 0) + if bin = upper then share else 0

omit [LinearOrder Scalar] [FloorRing Scalar] in
theorem two_points_total {numBins : Nat} (lower upper : Fin numBins) (share : Scalar) :
    ∑ bin, twoPoints lower upper share bin = 1 := by
  simp [twoPoints, Finset.sum_add_distrib]

omit [LinearOrder Scalar] [FloorRing Scalar] in
/-- The mean over a support that is linear in the bin. -/
theorem two_points_expectation (low high : Scalar) {numBins : Nat} (lower upper : Fin numBins)
    (share : Scalar) : expectation low high (twoPoints lower upper share) =
      low + (high - low) / ((numBins - 1 : Nat) : Scalar) *
        ((1 - share) * ((lower : Nat) : Scalar) + share * ((upper : Nat) : Scalar)) := by
  have split : expectation low high (twoPoints lower upper share) =
      (1 - share) * support low high numBins lower + share * support low high numBins upper := by
    simp [expectation, twoPoints, add_mul, Finset.sum_add_distrib]
  rw [split, support, support]
  ring

omit [LinearOrder Scalar] [FloorRing Scalar] in
theorem scatter_add_at {numBins : Nat} (distribution : Fin numBins → Scalar) (bin : Fin numBins)
    (weight : Scalar) : scatterAdd distribution (bin : Nat) weight =
      .ok (Function.update distribution bin (distribution bin + weight)) := by
  have inside : (0 : Int) ≤ (bin : Nat) ∧ ((bin : Nat) : Int).toNat < numBins :=
    ⟨Int.natCast_nonneg _, bin.isLt⟩
  exact dif_pos inside

omit [LinearOrder Scalar] [FloorRing Scalar] in
/-- Adding both shares to an empty distribution, also when they fall on the same bin. -/
theorem scatter_two_points {numBins : Nat} (lower upper : Fin numBins) (share : Scalar) :
    (scatterAdd (fun _ => 0) (lower : Nat) (1 - share) >>= fun distribution =>
      scatterAdd distribution (upper : Nat) share) = .ok (twoPoints lower upper share) := by
  rw [scatter_add_at]
  apply (scatter_add_at _ upper share).trans
  apply congrArg
  funext bin
  simp only [twoPoints, Function.update_apply, zero_add]
  by_cases atUpper : bin = upper
  · subst atUpper
    simp
  · simp [atUpper]

/-! ## The position of a target -/

variable [IsStrictOrderedRing Scalar]

omit [Field Scalar] [FloorRing Scalar] [IsStrictOrderedRing Scalar] in
theorem clamp_bounds {low high : Scalar} (increasing : low < high) (target : Scalar) :
    low ≤ clamp low high target ∧ clamp low high target ≤ high :=
  ⟨le_min (le_max_right _ _) increasing.le, min_le_right _ _⟩

omit [Field Scalar] [FloorRing Scalar] [IsStrictOrderedRing Scalar] in
theorem clamp_inside {low high target : Scalar} (above : low ≤ target) (below : target ≤ high) :
    clamp low high target = target := by
  rw [clamp, max_eq_left above, min_eq_left below]

section
variable {low high : Scalar} {numBins : Nat} (increasing : low < high) (enough : 2 ≤ numBins)
include increasing enough

omit [FloorRing Scalar] enough in
theorem bin_position_bounds (target : Scalar) :
    0 ≤ binPosition low high numBins target ∧
      binPosition low high numBins target ≤ ((numBins - 1 : Nat) : Scalar) := by
  obtain ⟨above, below⟩ := clamp_bounds increasing target
  have width : 0 < high - low := sub_pos.mpr increasing
  have count : (0 : Scalar) ≤ ((numBins - 1 : Nat) : Scalar) := Nat.cast_nonneg _
  constructor
  · exact mul_nonneg (div_nonneg (sub_nonneg.mpr above) width.le) count
  · have share : (clamp low high target - low) / (high - low) ≤ 1 :=
      (div_le_one width).mpr (sub_le_sub_right below low)
    calc binPosition low high numBins target ≤ 1 * ((numBins - 1 : Nat) : Scalar) :=
          mul_le_mul_of_nonneg_right share count
      _ = _ := one_mul _

/-- The value at the position of a target is the clamped target. -/
theorem bin_position_value (target : Scalar) :
    low + (high - low) / ((numBins - 1 : Nat) : Scalar) * binPosition low high numBins target =
      clamp low high target := by
  have width : high - low ≠ 0 := (sub_pos.mpr increasing).ne'
  have count : ((numBins - 1 : Nat) : Scalar) ≠ 0 := Nat.cast_ne_zero.mpr (by omega)
  rw [binPosition]
  field_simp
  ring

/-- The neighbours of a position are bins, and the position is their mean. -/
theorem neighbours (target : Scalar) : ∃ lower upper : Fin numBins,
    ⌊binPosition low high numBins target⌋ = (lower : Nat) ∧
      ⌈binPosition low high numBins target⌉ = (upper : Nat) ∧
        ((upper : Nat) = lower ∧ binPosition low high numBins target - ((lower : Nat) : Scalar) = 0 ∨
          (upper : Nat) = lower + 1) := by
  obtain ⟨above, below⟩ := bin_position_bounds increasing target
  generalize binPosition low high numBins target = position at above below
  have floorAbove : 0 ≤ ⌊position⌋ := Int.floor_nonneg.mpr above
  have ceilBelow : ⌈position⌉ ≤ ((numBins - 1 : Nat) : Int) := Int.ceil_le.mpr (by simpa using below)
  have ordered : ⌊position⌋ ≤ ⌈position⌉ := Int.floor_le_ceil position
  have next : ⌈position⌉ ≤ ⌊position⌋ + 1 := Int.ceil_le_floor_add_one position
  refine ⟨⟨⌊position⌋.toNat, by omega⟩, ⟨⌈position⌉.toNat, by omega⟩, by simp [floorAbove], by
    simp only [Int.ofNat_toNat]
    omega, ?_⟩
  simp only
  rcases Int.lt_or_eq_of_le ordered with apart | same
  · right
    omega
  · left
    refine ⟨by rw [same], ?_⟩
    have exact : (⌊position⌋ : Scalar) = position := by
      apply le_antisymm (Int.floor_le position)
      rw [same]
      exact Int.le_ceil position
    have cast : ((⌊position⌋.toNat : Nat) : Scalar) = (⌊position⌋ : Scalar) := by
      rw [← Int.cast_natCast, Int.toNat_of_nonneg floorAbove]
    rw [cast, exact, sub_self]

/-- The projection of a target is a distribution of two neighbouring bins, with the clamped
target as its mean. -/
theorem project_target_two_hot (target : Scalar) :
    ∃ distribution, projectTarget low high numBins target = .ok distribution ∧
      TwoHot low high (clamp low high target) distribution := by
  obtain ⟨lower, upper, isLower, isUpper, near⟩ := neighbours increasing enough target
  have value := bin_position_value increasing enough target
  have share : 0 ≤ binPosition low high numBins target - ((lower : Nat) : Scalar) ∧
      binPosition low high numBins target - ((lower : Nat) : Scalar) ≤ 1 := by
    have below := Int.floor_le (binPosition low high numBins target)
    have above := (Int.lt_floor_add_one (binPosition low high numBins target)).le
    rw [isLower, Int.cast_natCast] at below above
    exact ⟨sub_nonneg.mpr below, sub_le_iff_le_add'.mpr above⟩
  refine ⟨twoPoints lower upper (binPosition low high numBins target - ((lower : Nat) : Scalar)),
    ?_, ?_, two_points_total _ _ _, ⟨lower, ?_⟩, ?_⟩
  · simp only [projectTarget, isLower, isUpper, Int.cast_natCast]
    exact scatter_two_points lower upper _
  · intro bin
    apply add_nonneg
    · split
      · exact sub_nonneg.mpr share.2
      · exact le_refl 0
    · split
      · exact share.1
      · exact le_refl 0
  · intro bin weighted
    by_contra apart
    have notLower : bin ≠ lower := fun same => apart (Or.inl (congrArg Fin.val same))
    have notUpper : bin ≠ upper := by
      rintro rfl
      rcases near with ⟨same, -⟩ | next
      · exact apart (Or.inl same)
      · exact apart (Or.inr next)
    exact weighted (by simp [twoPoints, notLower, notUpper])
  · rw [two_points_expectation, ← value]
    apply congrArg (low + (high - low) / ((numBins - 1 : Nat) : Scalar) * ·)
    rcases near with ⟨same, none⟩ | next
    · rw [none, same, ← sub_eq_zero.mp none]
      ring
    · rw [next, Nat.cast_succ]
      ring

end

/-- Within the tolerance every target is projected onto at most two adjacent bins, its
clamped value is the mean, and the mean grows strictly with the target on the range. -/
theorem two_hot_projection (low high : Scalar) (numBins : Nat) (increasing : low < high)
    (enough : 2 ≤ numBins) :
    (∀ targets : List Scalar, (∀ target ∈ targets, ¬ Invalid low high target) →
      ∃ distributions, classificationTargetDistribution low high numBins targets = .ok distributions ∧
        List.Forall₂ (fun target distribution => TwoHot low high (clamp low high target) distribution)
          targets distributions) ∧
      ∀ first second, low ≤ first → first < second → second ≤ high →
        ∃ firstDistribution secondDistribution,
          projectTarget low high numBins first = .ok firstDistribution ∧
            projectTarget low high numBins second = .ok secondDistribution ∧
              expectation low high firstDistribution < expectation low high secondDistribution := by
  constructor
  · intro targets within
    obtain ⟨distributions, collected, each⟩ := Fallible.collect_accepts
      (projectTarget low high numBins)
      (fun target distribution => TwoHot low high (clamp low high target) distribution) targets
      (fun target _ => project_target_two_hot increasing enough target)
    have noneInvalid : targets.find? (fun target => decide (Invalid low high target)) = none := by
      simpa using within
    refine ⟨distributions, ?_, each⟩
    rw [classificationTargetDistribution, noneInvalid]
    exact collected
  · intro first second above smaller below
    obtain ⟨firstDistribution, isFirst, firstTwoHot⟩ :=
      project_target_two_hot increasing enough first
    obtain ⟨secondDistribution, isSecond, secondTwoHot⟩ :=
      project_target_two_hot increasing enough second
    refine ⟨firstDistribution, secondDistribution, isFirst, isSecond, ?_⟩
    rw [firstTwoHot.expected, secondTwoHot.expected, clamp_inside above (smaller.le.trans below),
      clamp_inside (above.trans smaller.le) below]
    exact smaller

/-- Three bins over the range from minus one to one, with targets on a bin, between two, at
the upper end and just outside it. -/
theorem two_hot_projection_three_bins :
    (∃ distributions, classificationTargetDistribution (-1 : ℚ) 1 3 [0, 1 / 2, 1, 100001 / 100000] =
        .ok distributions ∧
      List.Forall₂ (fun target distribution => TwoHot (-1 : ℚ) 1 (clamp (-1) 1 target) distribution)
        [0, 1 / 2, 1, 100001 / 100000] distributions) ∧
      ∃ firstDistribution secondDistribution,
        projectTarget (-1 : ℚ) 1 3 0 = .ok firstDistribution ∧
          projectTarget (-1 : ℚ) 1 3 (1 / 2) = .ok secondDistribution ∧
            expectation (-1 : ℚ) 1 firstDistribution < expectation (-1 : ℚ) 1 secondDistribution :=
  have projection := two_hot_projection (-1 : ℚ) 1 3 (by norm_num) (by decide)
  ⟨projection.1 _ (by decide +kernel), projection.2 0 (1 / 2) (by norm_num) (by norm_num)
    (by norm_num)⟩

end PrimeRl.Value.Math
