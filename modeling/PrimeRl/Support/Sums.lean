import Mathlib.Algebra.BigOperators.Group.List.Basic
import Mathlib.Order.Nat

/-!
# Sums over lists

The items that satisfy a condition, and the items sorted into the places of a
range.
-/

namespace Sums

universe u v
variable {Total : Type u} [AddCommMonoid Total] {Item : Type v}

/-- Items that are left out count as zero. -/
theorem sum_filter_map (items : List Item) (condition : Item → Bool) (value : Item → Total) :
    ((items.filter condition).map value).sum =
      (items.map (fun item => if condition item then value item else 0)).sum := by
  induction items with
  | nil => rfl
  | cons item rest inductionHypothesis =>
    rw [List.map_cons, List.sum_cons, ← inductionHypothesis]
    cases selected : condition item with
    | false => simp [selected]
    | true => simp [selected]

/-- A range with one value at one of its places sums to the value. -/
theorem sum_single (value : Total) (place count : Nat) :
    ((List.range count).map (fun other => if place = other then value else 0)).sum =
      if place < count then value else 0 := by
  induction count with
  | zero => rfl
  | succ count inductionHypothesis =>
    rw [List.range_succ, List.map_append, List.sum_append, inductionHypothesis, List.map_singleton,
      List.sum_singleton]
    rcases Nat.lt_trichotomy place count with below | rfl | above
    · rw [if_pos below, if_neg (Nat.ne_of_lt below), if_pos (Nat.lt_succ_of_lt below), add_zero]
    · rw [if_neg (Nat.lt_irrefl _), if_pos rfl, if_pos (Nat.lt_succ_self _), zero_add]
    · rw [if_neg (Nat.not_lt.mpr (Nat.le_of_lt above)), if_neg (Nat.ne_of_gt above), if_neg (by omega), add_zero]

/-- Items sorted into places keep their sum. -/
theorem sum_fibers (fiber : Item → Nat) (value : Item → Total) (count : Nat)
    (items : List Item) (inside : ∀ item ∈ items, fiber item < count) :
    ((List.range count).map (fun place =>
      ((items.filter (fun item => decide (fiber item = place))).map value).sum)).sum =
      (items.map value).sum := by
  induction items with
  | nil =>
    simp only [List.filter_nil, List.map_nil, List.sum_nil, List.map_const', List.sum_replicate,
      nsmul_zero]
  | cons item items inductionHypothesis =>
    obtain ⟨here, later⟩ := List.forall_mem_cons.mp inside
    have split (place : Nat) :
        (((item :: items).filter (fun item => decide (fiber item = place))).map value).sum =
          (if fiber item = place then value item else 0) +
            ((items.filter (fun item => decide (fiber item = place))).map value).sum := by
      by_cases same : fiber item = place
      · rw [List.filter_cons, if_pos (decide_eq_true same), List.map_cons, List.sum_cons,
          if_pos same]
      · rw [List.filter_cons, if_neg (fun accepted => same (of_decide_eq_true accepted)),
          if_neg same, zero_add]
    simp only [split]
    rw [List.sum_map_add, inductionHypothesis later, sum_single, if_pos here, List.map_cons,
      List.sum_cons]

end Sums
