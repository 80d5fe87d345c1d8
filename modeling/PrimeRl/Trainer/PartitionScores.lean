import Mathlib.Data.List.Chain
import PrimeRl.Trainer.PartitionWords

/-!
# Scores of the refined groups

Each exchange of the refinement lowers the score, so the refined groups score no
worse than the groups it starts from, and it stops only where no exchange lowers
the score any more.
-/

namespace PrimeRl.Trainer.Partition

/-- The score of groups: their largest load, then the distance between their
extreme loads. -/
def groupScore (weights : List Int) (partitions : List (List Nat)) : Int × Int :=
  score (partitionLoads weights partitions)

/-- One round of the refinement: the exchange it chooses, which lowers the score. -/
def Refines (weights : List Int) (before after : List (List Nat)) : Prop :=
  ∃ swap, bestSwap weights (Division.init weights before) = some swap ∧
    after = swap.partitions before ∧
    lower (groupScore weights after) (groupScore weights before) = true

/-- What a chosen exchange of the groups with their loads does. -/
theorem chosen_refines (weights : List Int) (partitions : List (List Nat)) (swap : Swap)
    (chosen : bestSwap weights (Division.init weights partitions) = some swap) :
    Refines weights partitions (swap.partitions partitions) ∧
      swap.apply weights (Division.init weights partitions) =
        Division.init weights (swap.partitions partitions) := by
  obtain ⟨candidate, lowers⟩ := best_swap_lowers weights _ swap chosen
  have applied := swap_apply_init weights partitions swap candidate
  have loads : swap.loads weights (Division.init weights partitions) =
      partitionLoads weights (swap.partitions partitions) := congrArg Division.loads applied
  rw [loads] at lowers
  exact ⟨⟨swap, chosen, rfl, lowers⟩, applied⟩

/-- The refinement is a finite chain of rounds, and after the last one no exchange
lowers the score. -/
theorem refine_rounds (weights : List Int) (partitions : List (List Nat)) :
    ∃ later : List (List (List Nat)),
      List.IsChain (Refines weights) (partitions :: later) ∧
      (partitions :: later).getLast (List.cons_ne_nil _ _) =
        refineScalar weights (Division.init weights partitions) ∧
      bestSwap weights (Division.init weights
        (refineScalar weights (Division.init weights partitions))) = none := by
  obtain ⟨division, isDivision⟩ : ∃ division, division = Division.init weights partitions := ⟨_, rfl⟩
  rw [← isDivision]
  induction division using refineScalar.induct weights generalizing partitions with
  | case1 division finished =>
    have stays : refineScalar weights division = partitions := by
      rw [refineScalar, finished, isDivision]
      rfl
    refine ⟨[], List.isChain_singleton _, stays.symm, ?_⟩
    rw [stays, ← isDivision]
    exact finished
  | case2 division swap chosen inductionHypothesis =>
    subst isDivision
    obtain ⟨refines, applied⟩ := chosen_refines weights partitions swap chosen
    obtain ⟨later, chain, last, stops⟩ := inductionHypothesis _ applied
    have next : refineScalar weights (Division.init weights partitions) =
        refineScalar weights (swap.apply weights (Division.init weights partitions)) := by
      rw [refineScalar, chosen]
    refine ⟨swap.partitions partitions :: later, ?_, ?_, ?_⟩
    · exact List.IsChain.cons_cons refines chain
    · rw [next, List.getLast_cons (List.cons_ne_nil _ _)]
      exact last
    · rw [next]
      exact stops

/-- A chain of rounds never ends above the score it starts from. -/
theorem rounds_lower (weights : List Int) (first : List (List Nat)) (later : List (List (List Nat)))
    (chain : List.IsChain (Refines weights) (first :: later)) :
    lower (groupScore weights first)
      (groupScore weights ((first :: later).getLast (List.cons_ne_nil _ _))) = false := by
  induction later generalizing first with
  | nil =>
    rw [List.getLast_singleton, ← Bool.not_eq_true, lower_iff_lex]
    exact lt_irrefl _
  | cons second rest inductionHypothesis =>
    obtain ⟨⟨swap, -, -, lowers⟩, others⟩ := List.isChain_cons_cons.mp chain
    have below := inductionHypothesis second others
    rw [lower_iff_lex] at lowers
    rw [← Bool.not_eq_true, lower_iff_lex, not_lt] at below ⊢
    rw [List.getLast_cons (List.cons_ne_nil _ _)]
    exact below.trans lowers.le

/-- An exchange of any item of a group with any item of a later group is searched. -/
theorem mem_candidates (partitions : List (List Nat)) (swap : Swap)
    (ascending : swap.leftRank < swap.rightRank) (inside : swap.rightRank < partitions.length)
    (leftInside : swap.leftPos < (partitions.getD swap.leftRank []).length)
    (rightInside : swap.rightPos < (partitions.getD swap.rightRank []).length) :
    swap ∈ candidates partitions := by
  simp only [candidates, List.mem_flatMap, List.mem_map, List.mem_filter, List.mem_range,
    decide_eq_true_eq]
  exact ⟨swap.leftRank, ascending.trans inside, swap.rightRank, ⟨inside, ascending⟩, swap.leftPos,
    leftInside, swap.rightPos, rightInside, rfl⟩

/-- Groups of one cardinality that list all indices once share them evenly. -/
theorem even_count (partitions : List (List Nat)) (items count : Nat) (some : partitions ≠ [])
    (even : ∀ partition ∈ partitions, partition.length = count)
    (listed : partitions.flatten.Perm (List.range items)) :
    count = items / partitions.length := by
  have sizes : partitions.map List.length = List.replicate partitions.length count := by
    rw [List.eq_replicate_iff]
    refine ⟨List.length_map _, ?_⟩
    intro size member
    obtain ⟨partition, isPartition, rfl⟩ := List.mem_map.mp member
    exact even partition isPartition
  have total := listed.length_eq
  rw [List.length_flatten, sizes, List.sum_replicate_nat, List.length_range] at total
  rw [← total, Nat.mul_div_cancel_left _ (List.length_pos_iff.mpr some)]

/-- For all weights that split evenly, the partition has `numPartitions` groups of
the same number of items and lists every index once. It is reached from the
differencing partition by finitely many exchanges, each of which strictly lowers
the largest load or, at the same largest load, the distance to the smallest one.
It scores no worse than that partition, and no exchange between two of its groups
scores lower. -/
theorem balanced_partition_exact (weights : List Int) (numPartitions : Nat)
    (positive : 0 < numPartitions) (nonempty : weights ≠ [])
    (divides : weights.length % numPartitions = 0) :
    ∃ start partitions, karmarkarKarp weights numPartitions = .ok start ∧
      balancedPartition weights numPartitions = .ok partitions ∧
      partitions.length = numPartitions ∧
      (∀ partition ∈ partitions, partition.length = weights.length / numPartitions) ∧
      partitions.flatten.Perm (List.range weights.length) ∧
      (∃ later : List (List (List Nat)), List.IsChain (Refines weights) (start :: later) ∧
        (start :: later).getLast (List.cons_ne_nil _ _) = partitions) ∧
      lower (groupScore weights start) (groupScore weights partitions) = false ∧
      ∀ swap : Swap, swap.leftRank < swap.rightRank → swap.rightRank < partitions.length →
        swap.leftPos < (partitions.getD swap.leftRank []).length →
        swap.rightPos < (partitions.getD swap.rightRank []).length →
        lower (groupScore weights (swap.partitions partitions)) (groupScore weights partitions) =
          false := by
  obtain ⟨start, startCount, differenced, startGroups, -, -⟩ :=
    karmarkar_karp_even weights numPartitions positive nonempty divides
  obtain ⟨partitions, count, balanced, groups, even, listed⟩ :=
    balanced_partition_even weights numPartitions positive nonempty divides
  have some : start.isEmpty = false := by
    rw [List.isEmpty_eq_false_iff, ← List.length_pos_iff, startGroups]
    exact positive
  have refined : partitions = refineScalar weights (Division.init weights start) := by
    rw [balancedPartition, differenced, Except.bind, refine_by_swapping_eq, refineBySwappingScalar,
      some] at balanced
    exact (Except.ok.inj balanced).symm
  obtain ⟨later, chain, last, stops⟩ := refine_rounds weights start
  rw [← refined] at last stops
  refine ⟨start, partitions, differenced, balanced, groups, ?_, listed, ⟨later, chain, last⟩, ?_, ?_⟩
  · intro partition member
    have present : partitions ≠ [] := List.ne_nil_of_mem member
    rw [even partition member, even_count partitions weights.length count present even listed, groups]
  · have below := rounds_lower weights start later chain
    rwa [last] at below
  · intro swap ascending inside leftInside rightInside
    have candidate := mem_candidates partitions swap ascending inside leftInside rightInside
    rcases best_swap_outcome weights (Division.init weights partitions) with
      ⟨-, none⟩ | ⟨other, -, chosen, -⟩
    · have loads : swap.loads weights (Division.init weights partitions) =
          partitionLoads weights (swap.partitions partitions) :=
        congrArg Division.loads (swap_apply_init weights partitions swap candidate)
      have notLower := none swap candidate
      rw [loads] at notLower
      exact notLower
    · rw [stops] at chosen
      cases chosen

/-- Six items in two groups. -/
theorem balanced_partition_exact_six_items :
    ∃ start partitions, karmarkarKarp [8, 1, 5, 4, 7, 3] 2 = .ok start ∧
      balancedPartition [8, 1, 5, 4, 7, 3] 2 = .ok partitions ∧ partitions.length = 2 ∧
      (∀ partition ∈ partitions, partition.length = 3) ∧
      partitions.flatten.Perm (List.range 6) := by
  obtain ⟨start, partitions, differenced, balanced, groups, even, listed, -⟩ :=
    balanced_partition_exact [8, 1, 5, 4, 7, 3] 2 (by decide) (by decide) (by decide)
  exact ⟨start, partitions, differenced, balanced, groups, even, listed⟩

end PrimeRl.Trainer.Partition
