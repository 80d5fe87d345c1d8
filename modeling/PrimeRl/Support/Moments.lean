import Mathlib.Algebra.CharZero.Defs
import Mathlib.Algebra.Field.Basic
import Mathlib.Data.List.MinMax
import Mathlib.Tactic.FieldSimp
import Mathlib.Tactic.Ring

/-!
# Moments of finite populations

The mean of a population and the sum of its squared deviations from the mean.
Deviations from any other center exceed the spread by the population size times
the squared distance of the center from the mean, and from that follows how the
spread of a union is made of the spreads of its parts. The least and the greatest
value of a union are those of its parts.
-/

namespace Moments

universe u
variable {Scalar : Type u} [Field Scalar]

/-- The mean of a population; that of the empty one is zero. -/
def mean (values : List Scalar) : Scalar := values.sum / (max values.length 1 : Nat)

/-- The sum of the squared deviations from a center. -/
def deviation (center : Scalar) (values : List Scalar) : Scalar :=
  (values.map (fun value => (value - center) ^ 2)).sum

/-- The sum of the squared deviations from the mean. -/
def spread (values : List Scalar) : Scalar := deviation (mean values) values

theorem deviation_append (center : Scalar) (first second : List Scalar) :
    deviation center (first ++ second) = deviation center first + deviation center second := by
  rw [deviation, List.map_append, List.sum_append]
  rfl

theorem deviation_flatten (center : Scalar) (groups : List (List Scalar)) :
    deviation center groups.flatten = (groups.map (deviation center)).sum := by
  induction groups with
  | nil => rfl
  | cons group rest inductionHypothesis =>
    rw [List.flatten_cons, deviation_append, inductionHypothesis, List.map_cons, List.sum_cons]

/-- Moving the center changes each term by the same amount on average. -/
theorem deviation_recenter (center other : Scalar) (values : List Scalar) :
    deviation center values = deviation other values +
      2 * (other - center) * (values.sum - values.length * other) +
      values.length * (other - center) ^ 2 := by
  induction values with
  | nil => simp [deviation]
  | cons value rest inductionHypothesis =>
    rw [deviation, deviation, List.map_cons, List.map_cons, List.sum_cons, List.sum_cons,
      List.sum_cons, ← deviation, ← deviation, inductionHypothesis, List.length_cons]
    push_cast
    ring

variable [CharZero Scalar]

theorem sum_eq_mean (values : List Scalar) : values.sum = values.length * mean values := by
  rcases Nat.eq_zero_or_pos values.length with empty | positive
  · rw [List.length_eq_zero_iff.mp empty, List.sum_nil, List.length_nil, Nat.cast_zero, zero_mul]
  · have counted : (values.length : Scalar) ≠ 0 := Nat.cast_ne_zero.mpr positive.ne'
    rw [mean, Nat.max_eq_left positive, mul_div_cancel₀ _ counted]

/-- The deviation from a center is the spread and the distance of the center, counted for
each value. -/
theorem deviation_eq_spread (center : Scalar) (values : List Scalar) :
    deviation center values =
      spread values + values.length * (mean values - center) ^ 2 := by
  rw [deviation_recenter center (mean values), ← sum_eq_mean, sub_self, mul_zero, add_zero, spread]

/-- The spread of groups taken together, from the moments of each. -/
theorem spread_flatten (groups : List (List Scalar)) :
    spread groups.flatten =
      (groups.map (fun group =>
        spread group + group.length * (mean group - mean groups.flatten) ^ 2)).sum := by
  rw [spread, deviation_flatten]
  congr 1
  exact List.map_congr_left (fun group _ => deviation_eq_spread _ group)

/-- The mean of two populations taken together. -/
theorem mean_append (first second : List Scalar) (some : 0 < first.length + second.length) :
    mean (first ++ second) =
      (first.length * mean first + second.length * mean second) /
        (first.length + second.length : Scalar) := by
  rw [mean, List.sum_append, List.length_append, Nat.max_eq_left some, sum_eq_mean first,
    sum_eq_mean second, Nat.cast_add]

/-- The spread of two populations that are not empty is their spreads and a term for the
distance of their means. -/
theorem spread_append (first second : List Scalar) (some : 0 < first.length)
    (other : 0 < second.length) :
    spread (first ++ second) = spread first + spread second +
      (mean second - mean first) ^ 2 * first.length * second.length /
        (first.length + second.length : Scalar) := by
  have both : (first.length + second.length : Scalar) ≠ 0 := by
    rw [← Nat.cast_add]
    exact Nat.cast_ne_zero.mpr (by omega)
  have joined := mean_append first second (by omega)
  rw [spread, deviation_append, deviation_eq_spread _ first, deviation_eq_spread _ second, joined]
  field_simp
  ring

omit [CharZero Scalar] in
theorem mean_perm {first second : List Scalar} (same : first.Perm second) :
    mean first = mean second := by
  rw [mean, mean, same.sum_eq, same.length_eq]

omit [CharZero Scalar] in
theorem spread_perm {first second : List Scalar} (same : first.Perm second) :
    spread first = spread second := by
  rw [spread, spread, mean_perm same, deviation, deviation]
  exact (same.map _).sum_eq

end Moments

namespace Extremes

universe u
variable {Value : Type u} [LinearOrder Value]

theorem minimum_flatten (groups : List (List Value)) :
    groups.flatten.minimum = (groups.map List.minimum).foldr min ⊤ := by
  induction groups with
  | nil => rfl
  | cons group rest inductionHypothesis =>
    rw [List.flatten_cons, List.minimum_append, inductionHypothesis, List.map_cons, List.foldr_cons]

theorem maximum_flatten (groups : List (List Value)) :
    groups.flatten.maximum = (groups.map List.maximum).foldr max ⊥ := by
  induction groups with
  | nil => rfl
  | cons group rest inductionHypothesis =>
    rw [List.flatten_cons, List.maximum_append, inductionHypothesis, List.map_cons, List.foldr_cons]

end Extremes
