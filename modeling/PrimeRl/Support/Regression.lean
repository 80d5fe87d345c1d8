import Mathlib.Algebra.Order.Field.Basic
import Mathlib.Tactic.FieldSimp
import Mathlib.Tactic.Linarith
import Mathlib.Tactic.LinearCombination
import Mathlib.Tactic.Positivity
import Mathlib.Tactic.Ring
import PrimeRl.Support.Sums

/-!
# Regression through the origin

Rows of a feature and a target are summed to their second moments. The residual
of a coefficient is a sum of squares of the rows, so the moments of rows satisfy
the Cauchy inequality. A fit with a penalty relative to the larger of the two
powers is bounded by the penalty alone.
-/

namespace Regression

universe u
variable {Scalar : Type u}

/-- Number of rows and sums of squared features, products and squared targets. -/
@[ext]
structure Moments (Scalar : Type u) where
  count : Nat
  features : Scalar
  products : Scalar
  targets : Scalar

namespace Moments

section
variable [CommRing Scalar]

instance : Zero (Moments Scalar) := ⟨⟨0, 0, 0, 0⟩⟩

instance : Add (Moments Scalar) :=
  ⟨fun first second => ⟨first.count + second.count, first.features + second.features,
    first.products + second.products, first.targets + second.targets⟩⟩

@[simp] theorem count_zero : (0 : Moments Scalar).count = 0 := rfl
@[simp] theorem features_zero : (0 : Moments Scalar).features = 0 := rfl
@[simp] theorem products_zero : (0 : Moments Scalar).products = 0 := rfl
@[simp] theorem targets_zero : (0 : Moments Scalar).targets = 0 := rfl

@[simp] theorem count_add (first second : Moments Scalar) :
    (first + second).count = first.count + second.count := rfl

@[simp] theorem features_add (first second : Moments Scalar) :
    (first + second).features = first.features + second.features := rfl

@[simp] theorem products_add (first second : Moments Scalar) :
    (first + second).products = first.products + second.products := rfl

@[simp] theorem targets_add (first second : Moments Scalar) :
    (first + second).targets = first.targets + second.targets := rfl

instance : AddCommMonoid (Moments Scalar) where
  nsmul := nsmulRec
  add_assoc first second third := by ext <;> simp [add_assoc]
  zero_add moments := by ext <;> simp
  add_zero moments := by ext <;> simp
  add_comm first second := by ext <;> simp [add_comm]

/-- The moments of one row. -/
def ofRow (row : Scalar × Scalar) : Moments Scalar :=
  ⟨1, row.1 * row.1, row.1 * row.2, row.2 * row.2⟩

/-- The moments of a list of rows. -/
def ofRows (rows : List (Scalar × Scalar)) : Moments Scalar := (rows.map ofRow).sum

@[simp] theorem of_rows_nil : ofRows ([] : List (Scalar × Scalar)) = 0 := rfl

@[simp] theorem of_rows_cons (row : Scalar × Scalar) (rows : List (Scalar × Scalar)) :
    ofRows (row :: rows) = ofRow row + ofRows rows := by
  rw [ofRows, List.map_cons, List.sum_cons, ofRows]

@[simp] theorem of_rows_append (first second : List (Scalar × Scalar)) :
    ofRows (first ++ second) = ofRows first + ofRows second := by
  rw [ofRows, List.map_append, List.sum_append, ofRows, ofRows]

theorem of_rows_count (rows : List (Scalar × Scalar)) : (ofRows rows).count = rows.length := by
  induction rows with
  | nil => rfl
  | cons row rows inductionHypothesis =>
    rw [of_rows_cons, count_add, inductionHypothesis, List.length_cons, Nat.add_comm]
    rfl

/-- Sum of the squared errors of a coefficient, from the moments. -/
def residual (moments : Moments Scalar) (coefficient : Scalar) : Scalar :=
  moments.targets - 2 • (coefficient * moments.products) +
    coefficient * coefficient * moments.features

theorem residual_eq (moments : Moments Scalar) (coefficient : Scalar) :
    moments.residual coefficient = moments.targets - 2 * coefficient * moments.products +
      coefficient * coefficient * moments.features := by
  rw [residual, nsmul_eq_mul]
  push_cast
  ring

@[simp] theorem residual_zero (coefficient : Scalar) :
    (0 : Moments Scalar).residual coefficient = 0 := by
  simp [residual]

@[simp] theorem residual_add (first second : Moments Scalar) (coefficient : Scalar) :
    (first + second).residual coefficient =
      first.residual coefficient + second.residual coefficient := by
  simp only [residual, targets_add, products_add, features_add]
  ring

/-- The residual is the sum of the squared errors of the rows. -/
theorem residual_of_rows (rows : List (Scalar × Scalar)) (coefficient : Scalar) :
    (ofRows rows).residual coefficient =
      (rows.map (fun row => (row.2 - coefficient * row.1) ^ 2)).sum := by
  induction rows with
  | nil => exact residual_zero coefficient
  | cons row rows inductionHypothesis =>
    rw [of_rows_cons, residual_add, inductionHypothesis, List.map_cons, List.sum_cons]
    congr 1
    simp only [residual, ofRow]
    ring

/-- Moments that some rows have. -/
def Realized (moments : Moments Scalar) : Prop := ∃ rows, moments = ofRows rows

theorem realized_zero : (0 : Moments Scalar).Realized := ⟨[], rfl⟩

theorem Realized.add {first second : Moments Scalar} (isFirst : first.Realized)
    (isSecond : second.Realized) : (first + second).Realized := by
  obtain ⟨firstRows, rfl⟩ := isFirst
  obtain ⟨secondRows, rfl⟩ := isSecond
  exact ⟨firstRows ++ secondRows, (of_rows_append firstRows secondRows).symm⟩

end

section
variable [Field Scalar] [LinearOrder Scalar] [IsStrictOrderedRing Scalar]

theorem features_nonneg (rows : List (Scalar × Scalar)) : 0 ≤ (ofRows rows).features := by
  induction rows with
  | nil => exact le_rfl
  | cons row rows inductionHypothesis =>
    rw [of_rows_cons, features_add]
    exact add_nonneg (mul_self_nonneg row.1) inductionHypothesis

theorem targets_nonneg (rows : List (Scalar × Scalar)) : 0 ≤ (ofRows rows).targets := by
  induction rows with
  | nil => exact le_rfl
  | cons row rows inductionHypothesis =>
    rw [of_rows_cons, targets_add]
    exact add_nonneg (mul_self_nonneg row.2) inductionHypothesis

/-- No features' power is exactly no feature. -/
theorem features_eq_zero_iff (rows : List (Scalar × Scalar)) :
    (ofRows rows).features = 0 ↔ ∀ row ∈ rows, row.1 = 0 := by
  induction rows with
  | nil => simp
  | cons row rows inductionHypothesis =>
    have here : 0 ≤ (ofRow row).features := mul_self_nonneg row.1
    rw [of_rows_cons, features_add, add_eq_zero_iff_of_nonneg here (features_nonneg rows),
      inductionHypothesis, List.forall_mem_cons]
    exact and_congr_left (fun _ => mul_self_eq_zero)

theorem residual_nonneg (rows : List (Scalar × Scalar)) (coefficient : Scalar) :
    0 ≤ (ofRows rows).residual coefficient := by
  rw [residual_of_rows]
  apply List.sum_nonneg
  intro square member
  obtain ⟨row, _, rfl⟩ := List.mem_map.mp member
  exact sq_nonneg _

/-- The Cauchy inequality: without features every product vanishes, otherwise the
residual of the unpenalized fit is not negative. -/
theorem products_bounded (rows : List (Scalar × Scalar)) :
    (ofRows rows).products ^ 2 ≤ (ofRows rows).features * (ofRows rows).targets := by
  rcases (features_nonneg rows).eq_or_lt with absent | present
  · have noProducts : (ofRows rows).products = 0 := by
      have zeros := (features_eq_zero_iff rows).mp absent.symm
      clear absent
      induction rows with
      | nil => rfl
      | cons row rows inductionHypothesis =>
        obtain ⟨here, later⟩ := List.forall_mem_cons.mp zeros
        rw [of_rows_cons, products_add, inductionHypothesis later, ofRow, here]
        ring
    rw [noProducts, ← absent]
    simp
  · have fitted := residual_nonneg rows ((ofRows rows).products / (ofRows rows).features)
    have scaled := mul_nonneg present.le fitted
    have expanded : (ofRows rows).features *
        (ofRows rows).residual ((ofRows rows).products / (ofRows rows).features) =
        (ofRows rows).features * (ofRows rows).targets - (ofRows rows).products ^ 2 := by
      rw [residual_eq]
      field_simp
      ring
    rw [expanded] at scaled
    exact sub_nonneg.mp scaled

end

end Moments

/-! ## Penalized fits -/

section
variable [Field Scalar] [LinearOrder Scalar] [IsStrictOrderedRing Scalar]

/-- A fit whose denominator adds a multiple of the larger power is bounded by the
multiple, whatever the powers are. -/
theorem relative_ridge_bounded (features products targets ridge : Scalar)
    (present : 0 < features) (penalized : 0 < ridge)
    (cauchy : products ^ 2 ≤ features * targets) :
    4 * ridge * (products / (features + ridge * max features targets)) ^ 2 ≤ 1 := by
  have larger : 0 < max features targets := lt_max_of_lt_left present
  have denominator : 0 < features + ridge * max features targets := by positivity
  have arithmeticGeometric : 4 * (features * (ridge * max features targets)) ≤
      (features + ridge * max features targets) ^ 2 := by
    have square := sq_nonneg (features - ridge * max features targets)
    linear_combination square
  have targetsLarger : features * targets ≤ features * max features targets :=
    mul_le_mul_of_nonneg_left (le_max_right _ _) present.le
  have dominated : 4 * ridge * products ^ 2 ≤ (features + ridge * max features targets) ^ 2 :=
    calc 4 * ridge * products ^ 2
        ≤ 4 * ridge * (features * max features targets) :=
          mul_le_mul_of_nonneg_left (cauchy.trans targetsLarger) (by positivity)
      _ = 4 * (features * (ridge * max features targets)) := by ring
      _ ≤ _ := arithmeticGeometric
  rw [div_pow, ← mul_div_assoc]
  exact (div_le_one (by positivity)).mpr dominated

/-- A fit that is penalized in any way has no larger residual than no fit. -/
theorem penalized_fit_improves (moments : Moments Scalar) (denominator : Scalar)
    (present : 0 < moments.features) (penalized : moments.features ≤ denominator) :
    moments.residual (moments.products / denominator) ≤ moments.residual 0 := by
  have positive : 0 < denominator := present.trans_le penalized
  have gain : moments.residual 0 - moments.residual (moments.products / denominator) =
      (moments.products / denominator) ^ 2 * (2 * denominator - moments.features) := by
    simp only [Moments.residual_eq]
    field_simp
    ring
  have gained : 0 ≤ (moments.products / denominator) ^ 2 * (2 * denominator - moments.features) :=
    mul_nonneg (sq_nonneg _) (by linarith)
  rw [← gain] at gained
  exact sub_nonneg.mp gained

/-- A moving average of values whose scaled squares are bounded is bounded the same
way. -/
theorem moving_average_bounded (decay scale bound previous next : Scalar) (decayNonneg : 0 ≤ decay)
    (decayBelow : decay ≤ 1) (scaleNonneg : 0 ≤ scale) (isPrevious : scale * previous ^ 2 ≤ bound)
    (isNext : scale * next ^ 2 ≤ bound) :
    scale * (decay * previous + (1 - decay) * next) ^ 2 ≤ bound := by
  have convex : scale * (decay * previous + (1 - decay) * next) ^ 2 =
      decay * (scale * previous ^ 2) + (1 - decay) * (scale * next ^ 2) -
        scale * (decay * (1 - decay)) * (previous - next) ^ 2 := by ring
  have spread : 0 ≤ scale * (decay * (1 - decay)) * (previous - next) ^ 2 :=
    mul_nonneg (mul_nonneg scaleNonneg (mul_nonneg decayNonneg (sub_nonneg.mpr decayBelow)))
      (sq_nonneg _)
  have weighted : decay * (scale * previous ^ 2) + (1 - decay) * (scale * next ^ 2) ≤ bound := by
    have first := mul_le_mul_of_nonneg_left isPrevious decayNonneg
    have second := mul_le_mul_of_nonneg_left isNext (sub_nonneg.mpr decayBelow)
    linear_combination first + second
  rw [convex]
  linarith

end

end Regression
