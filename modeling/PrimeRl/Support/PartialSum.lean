import Mathlib.Algebra.BigOperators.Group.List.Basic
import Mathlib.Algebra.Group.Hom.Defs

/-!
# Sums of values that may be missing

A sum has a value only when every summand has one. As with a sum of plain values, neither
the order of the items nor the way they are grouped matters.
-/

namespace PartialSum

universe u v w
variable {Total : Type u} [AddCommMonoid Total] {Item : Type v}

/-- The sum of the items' values, if they all have one. -/
def total (value : Item → Option Total) : List Item → Option Total
  | [] => some 0
  | item :: rest => (value item).bind fun here => (total value rest).map fun later => here + later

theorem total_append (value : Item → Option Total) (left right : List Item) :
    total value (left ++ right) = (total value left).bind fun here =>
      (total value right).map fun later => here + later := by
  induction left with
  | nil => simp [total]
  | cons item rest inductionHypothesis =>
    rw [List.cons_append, total, inductionHypothesis, total]
    cases value item with
    | none => rfl
    | some here =>
      cases total value rest with
      | none => rfl
      | some later =>
        cases total value right with
        | none => rfl
        | some last => simp [add_assoc]

/-- Grouped items sum to what they sum to one by one. -/
theorem total_flatten (value : Item → Option Total) (groups : List (List Item)) :
    total value groups.flatten = total (total value) groups := by
  induction groups with
  | nil => rfl
  | cons group rest inductionHypothesis =>
    rw [List.flatten_cons, total_append, inductionHypothesis, total]

theorem total_perm (value : Item → Option Total) {left right : List Item} (same : left.Perm right) :
    total value left = total value right := by
  induction same with
  | nil => rfl
  | cons item _ inductionHypothesis => rw [total, total, inductionHypothesis]
  | swap first second rest =>
    simp only [total]
    cases value first with
    | none => cases value second <;> rfl
    | some here =>
      cases value second with
      | none => rfl
      | some there =>
        cases total value rest with
        | none => rfl
        | some later => simp [add_left_comm]
  | trans _ _ first second => exact first.trans second

theorem total_map {Other : Type w} (value : Item → Option Total) (change : Other → Item)
    (items : List Other) : total value (items.map change) = total (value ∘ change) items := by
  induction items with
  | nil => rfl
  | cons item rest inductionHypothesis =>
    rw [List.map_cons, total, total, inductionHypothesis]
    rfl

theorem total_congr {value other : Item → Option Total} {items : List Item}
    (same : ∀ item ∈ items, value item = other item) : total value items = total other items := by
  induction items with
  | nil => rfl
  | cons item rest inductionHypothesis =>
    obtain ⟨here, later⟩ := List.forall_mem_cons.mp same
    rw [total, total, here, inductionHypothesis later]

/-- A change that keeps sums can be made before or after summing. -/
theorem total_hom (change : Total →+ Total) (value : Item → Option Total) (items : List Item) :
    total (fun item => (value item).map change) items = (total value items).map change := by
  induction items with
  | nil => simp [total]
  | cons item rest inductionHypothesis =>
    rw [total, total, inductionHypothesis]
    cases value item with
    | none => rfl
    | some here =>
      cases total value rest with
      | none => rfl
      | some later => simp

/-- One missing summand leaves the sum without a value. -/
theorem total_none {value : Item → Option Total} {items : List Item} {item : Item}
    (member : item ∈ items) (missing : value item = none) : total value items = none := by
  induction items with
  | nil => cases member
  | cons first rest inductionHypothesis =>
    rw [total]
    rcases List.mem_cons.mp member with rfl | later
    · rw [missing]
      rfl
    · rw [inductionHypothesis later]
      cases value first with
      | none => rfl
      | some here => rfl

/-- Where every item has a value the sum is that of the values. -/
theorem total_some (value : Item → Total) (items : List Item) :
    total (fun item => some (value item)) items = some (items.map value).sum := by
  induction items with
  | nil => rfl
  | cons item rest inductionHypothesis =>
    rw [total, inductionHypothesis, List.map_cons, List.sum_cons]
    rfl

end PartialSum
