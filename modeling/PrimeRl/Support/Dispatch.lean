import Mathlib.Algebra.Ring.Int.Defs
import Mathlib.Algebra.Ring.Nat
import Mathlib.Data.List.SplitLengths
import PrimeRl.Support.Argsort
import PrimeRl.Support.Owners
import PrimeRl.Support.Sums

/-!
# Tasks sorted by owner and gathered again

Each item has a fixed number of tasks and each task an owner. Sorting the tasks by
their owners lets every owner work on one block. Adding what the tasks give to the
items they belong to undoes the order, so each item gets the sum over its own tasks.
-/

namespace Dispatch

open PrimeRl

universe u v
variable {Item : Type u} {Value : Type v}

/-! ## Blocks of owners -/

/-- How many tasks each owner has. -/
def histogram (owners : Nat) (tasks : List Nat) : List Nat :=
  (List.range owners).map (fun owner => tasks.count owner)

theorem histogram_sum {owners : Nat} {tasks : List Nat} (inside : ∀ task ∈ tasks, task < owners) :
    (histogram owners tasks).sum = tasks.length := by
  have counted := Sums.sum_fibers (fun task : Nat => task) (fun _ => 1) owners tasks inside
  rw [List.map_const', List.sum_replicate_nat, Nat.mul_one] at counted
  rw [← counted, histogram]
  congr 1
  apply List.map_congr_left
  intro owner _
  rw [List.map_const', List.sum_replicate_nat, Nat.mul_one, List.count_eq_countP,
    List.countP_eq_length_filter]
  rfl

theorem expand_sorted (first : Nat) (counts : List Nat) :
    (Owners.expand first counts).Pairwise (· ≤ ·) := by
  induction counts generalizing first with
  | nil => exact List.Pairwise.nil
  | cons count rest inductionHypothesis =>
    refine List.pairwise_append.mpr
      ⟨List.pairwise_replicate.mpr (.inr (Nat.le_refl first)), inductionHypothesis _, ?_⟩
    intro here listed later member
    rw [List.eq_of_mem_replicate listed]
    exact (Nat.le_succ first).trans (Owners.expand_lower _ _ _ member)

/-- Sorted tasks are the blocks that their counts describe. -/
theorem expand_histogram {owners : Nat} {tasks : List Nat} (sorted : tasks.Pairwise (· ≤ ·))
    (inside : ∀ task ∈ tasks, task < owners) :
    Owners.expand 0 (histogram owners tasks) = tasks := by
  refine List.Perm.eq_of_pairwise' (expand_sorted 0 _) sorted ?_
  rw [List.perm_iff_count]
  intro owner
  have counted := Owners.count_expand 0 owner (histogram owners tasks)
  rw [Nat.zero_add] at counted
  rw [counted, List.getD_eq_getElem?_getD, histogram, List.getElem?_map]
  by_cases known : owner < owners
  · rw [List.getElem?_range known]
    rfl
  · have absent : owner ∉ tasks := fun member => known (inside owner member)
    rw [List.getElem?_eq_none (by simpa using known), List.count_eq_zero_of_not_mem absent]
    rfl

theorem zip_with_block (work : Nat → Item → Value) (owner count : Nat) (others : List Nat)
    (rows : List Item) :
    List.zipWith work (List.replicate count owner ++ others) rows =
      (rows.take count).map (work owner) ++ List.zipWith work others (rows.drop count) := by
  induction count generalizing rows with
  | zero => rfl
  | succ count inductionHypothesis =>
    cases rows with
    | nil => simp
    | cons row rest =>
      rw [List.replicate_succ, List.cons_append, List.zipWith_cons_cons, inductionHypothesis]
      rfl

/-- Work done block by block is the work of each row for its owner. -/
theorem work_by_block (work : Nat → Item → Value) (first : Nat) (counts : List Nat)
    (rows : List Item) :
    ((counts.splitLengths rows).zipIdx first).flatMap (fun block => block.1.map (work block.2)) =
      List.zipWith work (Owners.expand first counts) rows := by
  induction counts generalizing first rows with
  | nil => simp [Owners.expand]
  | cons count rest inductionHypothesis =>
    rw [List.splitLengths_cons, List.zipIdx_cons, List.flatMap_cons, inductionHypothesis,
      Owners.expand, zip_with_block]

/-- Two lists of one width, read index by index. -/
theorem zip_with_range {First Second : Type u} {width : Nat} (join : First → Second → Value)
    {firsts : List First} {seconds : List Second} (first : First) (second : Second)
    (firstWidth : firsts.length = width) (secondWidth : seconds.length = width) :
    List.zipWith join firsts seconds =
      (List.range width).map (fun index =>
        join (firsts.getD index first) (seconds.getD index second)) := by
  apply List.ext_getElem
  · simp [firstWidth, secondWidth]
  · intro index inside _
    have inFirst : index < firsts.length := by
      simp only [List.length_zipWith] at inside
      omega
    have inSecond : index < seconds.length := by
      simp only [List.length_zipWith] at inside
      omega
    rw [List.getElem_zipWith, List.getElem_map, List.getElem_range,
      List.getD_eq_getElem _ _ inFirst, List.getD_eq_getElem _ _ inSecond]

theorem zip_with_again {First Second Third : Type u} (join : First → Second → Third)
    (again : First → Third → Value) (firsts : List First) (seconds : List Second) :
    List.zipWith again firsts (List.zipWith join firsts seconds) =
      List.zipWith (fun first second => again first (join first second)) firsts seconds := by
  induction firsts generalizing seconds with
  | nil => rfl
  | cons first firsts inductionHypothesis =>
    cases seconds with
    | nil => rfl
    | cons second seconds =>
      simp only [List.zipWith_cons_cons, inductionHypothesis]

/-! ## Adding into places -/

section Scatter

variable [AddCommMonoid Value]

/-- Add each value to the place it is for. -/
def scatterAdd (base : List Value) (updates : List (Nat × Value)) : List Value :=
  updates.foldl (fun sums update => sums.modify update.1 (· + update.2)) base

theorem scatter_add_get (base : List Value) (updates : List (Nat × Value)) (place : Nat) :
    (scatterAdd base updates)[place]? =
      base[place]?.map (· + ((updates.filter (fun update => decide (update.1 = place))).map
        Prod.snd).sum) := by
  induction updates generalizing base with
  | nil =>
    simp [scatterAdd]
  | cons update rest inductionHypothesis =>
    change (scatterAdd (base.modify update.1 (· + update.2)) rest)[place]? = _
    rw [inductionHypothesis, List.getElem?_modify, Option.map_eq_map, Option.map_map]
    congr 1
    funext sum
    by_cases here : update.1 = place
    · rw [List.filter_cons, if_pos (by simpa using here), List.map_cons, List.sum_cons,
        Function.comp_apply, if_pos here, add_assoc]
    · rw [List.filter_cons, if_neg (by simpa using here), Function.comp_apply, if_neg here]

theorem scatter_add_length (base : List Value) (updates : List (Nat × Value)) :
    (scatterAdd base updates).length = base.length := by
  induction updates generalizing base with
  | nil => rfl
  | cons update rest inductionHypothesis =>
    change (scatterAdd (base.modify update.1 (· + update.2)) rest).length = _
    rw [inductionHypothesis, List.length_modify]

end Scatter

/-- The tasks of one item. -/
theorem filter_range_div (items width item : Nat) :
    (List.range (items * width)).filter (fun task => decide (task / width = item)) =
      if item < items then (List.range width).map (item * width + ·) else [] := by
  induction items with
  | zero => simp
  | succ items inductionHypothesis =>
    have owner : ∀ task ∈ List.range width, (items * width + task) / width = items := by
      intro task listed
      have small := List.mem_range.mp listed
      rw [Nat.mul_comm, Nat.mul_add_div (Nat.zero_lt_of_lt small), Nat.div_eq_of_lt small,
        Nat.add_zero]
    rw [Nat.succ_mul, List.range_add, List.filter_append, inductionHypothesis, List.filter_map]
    rcases Nat.lt_trichotomy item items with below | rfl | above
    · have none_ : (List.range width).filter
          ((fun task => decide (task / width = item)) ∘ (items * width + ·)) = [] := by
        rw [List.filter_eq_nil_iff]
        intro task listed
        simp [owner task listed, Nat.ne_of_gt below]
      rw [none_, if_pos below, if_pos (Nat.lt_succ_of_lt below), List.map_nil, List.append_nil]
    · have all : (List.range width).filter
          ((fun task => decide (task / width = item)) ∘ (item * width + ·)) = List.range width := by
        rw [List.filter_eq_self]
        intro task listed
        simp [owner task listed]
      rw [all, if_neg (Nat.lt_irrefl _), if_pos (Nat.lt_succ_self _), List.nil_append]
    · have none_ : (List.range width).filter
          ((fun task => decide (task / width = item)) ∘ (items * width + ·)) = [] := by
        rw [List.filter_eq_nil_iff]
        intro task listed
        simp [owner task listed, Nat.ne_of_lt above]
      rw [none_, if_neg (Nat.not_lt.mpr above.le), if_neg (Nat.not_lt.mpr above), List.map_nil,
        List.append_nil]

/-- What all tasks give, in any order, adds up item by item. -/
theorem scatter_add_tasks [AddCommMonoid Value] (base : List Value) (width : Nat)
    (order : List Nat) (value : Nat → Value) (item : Nat)
    (all : order.Perm (List.range (base.length * width))) :
    (scatterAdd base (order.map (fun task => (task / width, value task))))[item]? =
      base[item]?.map (· + ((List.range width).map
        (fun task => value (item * width + task))).sum) := by
  rw [scatter_add_get, List.filter_map, List.map_map]
  have own := (all.filter (fun task => decide (task / width = item))).map value
  rw [filter_range_div] at own
  cases listed : base[item]? with
  | none => rfl
  | some sum =>
    obtain ⟨inside, _⟩ := List.getElem?_eq_some_iff.mp listed
    rw [if_pos inside, List.map_map] at own
    have total := own.sum_eq
    simpa [Function.comp_def] using congrArg (sum + ·) total

end Dispatch
