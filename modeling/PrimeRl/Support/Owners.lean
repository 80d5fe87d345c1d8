import Mathlib.Algebra.Order.Group.Nat
import Mathlib.Algebra.Ring.Int.Defs
import Mathlib.Algebra.Ring.Nat
import Mathlib.Data.List.Basic

/-!
# Counts that give each item an owner

A list of counts assigns consecutive items to owners: as many items as the first
count to the first owner, then to the next. Cutting the counts to a window of
items gives the counts of the window, whose owners are those of the items in it.
-/

namespace PrimeRl.Owners

/-- The owner of each item, counting owners from `first`. -/
def expand : Nat → List Nat → List Nat
  | _, [] => []
  | first, count :: rest => List.replicate count first ++ expand (first + 1) rest

/-- The counts of the `size` items behind the first `skip`. -/
def cut : Nat → Nat → List Nat → List Nat
  | _, _, [] => []
  | skip, size, count :: rest =>
      min (count - skip) size :: cut (skip - count) (size - min (count - skip) size) rest

@[simp] theorem expand_length (first : Nat) (counts : List Nat) :
    (expand first counts).length = counts.sum := by
  induction counts generalizing first with
  | nil => rfl
  | cons count rest inductionHypothesis =>
    rw [expand, List.length_append, List.length_replicate, inductionHypothesis, List.sum_cons]

@[simp] theorem cut_length (skip size : Nat) (counts : List Nat) :
    (cut skip size counts).length = counts.length := by
  induction counts generalizing skip size with
  | nil => rfl
  | cons count rest inductionHypothesis =>
    rw [cut, List.length_cons, List.length_cons, inductionHypothesis]

theorem expand_append (first : Nat) (counts others : List Nat) :
    expand first (counts ++ others) =
      expand first counts ++ expand (first + counts.length) others := by
  induction counts generalizing first with
  | nil => rfl
  | cons count rest inductionHypothesis =>
    rw [List.cons_append, expand, expand, inductionHypothesis, List.append_assoc, List.length_cons,
      Nat.add_right_comm, Nat.add_assoc]

theorem expand_zeros (first size : Nat) : expand first (List.replicate size 0) = [] := by
  induction size generalizing first with
  | zero => rfl
  | succ size inductionHypothesis =>
    rw [List.replicate_succ, expand, inductionHypothesis, List.replicate_zero, List.append_nil]

/-- Items of one owner only. -/
theorem expand_single (first owner size count : Nat) (inside : owner < size) :
    expand first ((List.replicate size 0).modify owner (· + count)) =
      List.replicate count (first + owner) := by
  induction size generalizing first owner with
  | zero => exact absurd inside (Nat.not_lt_zero owner)
  | succ size inductionHypothesis =>
    rw [List.replicate_succ]
    cases owner with
    | zero =>
      rw [List.modify_zero_cons, expand, expand_zeros, List.append_nil, Nat.zero_add, Nat.add_zero]
    | succ owner =>
      rw [List.modify_succ_cons, expand, List.replicate_zero, List.nil_append,
        inductionHypothesis (first + 1) owner (Nat.lt_of_succ_lt_succ inside), Nat.add_assoc,
        Nat.add_comm 1]

/-- Items that the last owner gets on top come behind all others. -/
theorem expand_modify_last (first count : Nat) (counts : List Nat) (nonempty : counts ≠ []) :
    expand first (counts.modify (counts.length - 1) (· + count)) =
      expand first counts ++ List.replicate count (first + (counts.length - 1)) := by
  induction counts generalizing first with
  | nil => exact absurd rfl nonempty
  | cons head rest inductionHypothesis =>
    cases rest with
    | nil =>
      simp only [List.length_singleton, Nat.sub_self, List.modify_zero_cons, expand,
        List.append_nil, Nat.add_zero, List.replicate_add]
    | cons next others =>
      have tail := inductionHypothesis (first + 1) (List.cons_ne_nil next others)
      have position : (head :: next :: others).length - 1 = (next :: others).length - 1 + 1 := rfl
      have shifted : first + 1 + ((next :: others).length - 1) =
          first + ((next :: others).length - 1 + 1) := by omega
      rw [position, List.modify_succ_cons, expand, tail, shifted, ← List.append_assoc, ← expand]

/-- The owners of a window of items are the owners that its counts give. -/
theorem expand_cut (first skip size : Nat) (counts : List Nat) :
    expand first (cut skip size counts) = ((expand first counts).drop skip).take size := by
  induction counts generalizing first skip size with
  | nil => rw [cut, expand, List.drop_nil, List.take_nil]
  | cons count rest inductionHypothesis =>
    rw [cut, expand, expand, inductionHypothesis, List.drop_append, List.take_append,
      List.drop_replicate, List.take_replicate, List.length_replicate, List.length_replicate]
    -- what the first owner has inside the window comes off the size of the rest
    have inWindow : min size (count - skip) = min (count - skip) size := Nat.min_comm _ _
    have left : size - (count - skip) = size - min (count - skip) size := by omega
    rw [inWindow, left]

theorem expand_lower (first owner : Nat) (counts : List Nat) (member : owner ∈ expand first counts) :
    first ≤ owner := by
  induction counts generalizing first with
  | nil => cases member
  | cons count rest inductionHypothesis =>
    rcases List.mem_append.mp member with here | later
    · exact (List.eq_of_mem_replicate here).ge
    · exact Nat.le_of_succ_le (inductionHypothesis (first + 1) later)

/-- An owner has as many items as it is counted for. -/
theorem count_expand (first owner : Nat) (counts : List Nat) :
    (expand first counts).count (first + owner) = counts.getD owner 0 := by
  induction counts generalizing first owner with
  | nil => rfl
  | cons count rest inductionHypothesis =>
    rw [expand, List.count_append]
    cases owner with
    | zero =>
      have absent : first ∉ expand (first + 1) rest :=
        fun member => absurd (expand_lower _ _ _ member) (Nat.not_succ_le_self first)
      rw [Nat.add_zero, List.count_replicate_self, List.count_eq_zero_of_not_mem absent]
      rfl
    | succ owner =>
      have other : first + (owner + 1) = first + 1 + owner := by omega
      have differs : first ≠ first + 1 + owner := by omega
      rw [other, inductionHypothesis, List.count_replicate, if_neg (by simpa using differs),
        Nat.zero_add]
      rfl

end PrimeRl.Owners
