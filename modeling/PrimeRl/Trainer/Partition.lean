import Mathlib.Algebra.Order.BigOperators.Group.List
import Mathlib.Algebra.Order.Group.Int
import Mathlib.Data.List.GetD
import Mathlib.Data.List.Sort
import Mathlib.Data.Prod.Lex
import Mathlib.Tactic.Linarith
import PrimeRl.Support.FirstLowest
import PrimeRl.Support.Pool

/-!
# Partitioning items into groups of equal cardinality

Items are dealt in blocks of one item for each group, lightest first, and the
blocks are merged by the largest differencing rule. The groups are then refined
by the best pairwise swap until none lowers the score. A merge joins groups of
one cardinality with groups of another and a swap keeps every cardinality, so
the weights decide where an item goes but never how many items a group has.
-/

namespace PrimeRl.Trainer.Partition

structure WeightedSet where
  total : Int
  items : List Nat
deriving DecidableEq, Repr

namespace WeightedSet

def empty : WeightedSet := ⟨0, []⟩

def add (set : WeightedSet) (idx : Nat) (weight : Int) : WeightedSet :=
  ⟨set.total + weight, set.items ++ [idx]⟩

def merge (set other : WeightedSet) : WeightedSet :=
  ⟨set.total + other.total, set.items ++ other.items⟩

/-- The order of the sets: lighter first, then by the listed items. -/
def precedes (set other : WeightedSet) : Bool :=
  if set.total ≠ other.total then decide (set.total < other.total)
  else decide (set.items < other.items)

end WeightedSet

/-- One set for each group, heaviest first. -/
structure KKState where
  sets : List WeightedSet
deriving DecidableEq, Repr

namespace KKState

/-- Stable sort, heaviest first. -/
def sortDescending (sets : List WeightedSet) : List WeightedSet :=
  sets.insertionSort (fun first second => first.precedes second = false)

/-- The `k` sets of a block of weighted items: the first item alone in the first
set, and so on. -/
def init (items : List (Nat × Int)) (k : Nat) : KKState where
  sets := sortDescending ((List.range k).map (fun setIdx =>
    (items[setIdx]?).elim WeightedSet.empty (fun item => WeightedSet.empty.add item.1 item.2)))

def spread (state : KKState) : Int :=
  (state.sets.head?.map WeightedSet.total).getD 0 -
    (state.sets.getLast?.map WeightedSet.total).getD 0

/-- Join the heaviest set of one state with the lightest of the other. -/
def merge (state other : KKState) : KKState where
  sets := sortDescending (List.zipWith WeightedSet.merge state.sets other.sets.reverse)

def partitions (state : KKState) : List (List Nat) :=
  state.sets.map (fun set => set.items.insertionSort (· ≤ ·))

/-- The order of the heap: wider spread first, then the heavier first set. -/
def precedes (state other : KKState) : Bool :=
  if state.spread ≠ other.spread then decide (other.spread < state.spread)
  else (other.sets.headD .empty).precedes (state.sets.headD .empty)

end KKState

/-- Remove the state that comes first in the order of the heap. -/
def heappop : List KKState → Option (KKState × List KKState)
  | [] => none
  | first :: rest =>
      match heappop rest with
      | none => some (first, [])
      | some (least, others) =>
          if least.precedes first then some (least, first :: others) else some (first, rest)

/-- Merge the two first states until one is left. Each merge removes one state,
which the fuel counts. -/
def mergeStates : Nat → List KKState → List KKState
  | 0, states => states
  | fuel + 1, states =>
      match heappop states with
      | none => states
      | some (state, remaining) =>
          match heappop remaining with
          | none => states
          | some (other, others) => mergeStates fuel (others ++ [state.merge other])

/-- Items in blocks of `numPartitions`, lightest first. -/
def initialStates (weights : List Int) (numPartitions : Nat) : List KKState :=
  let weightedIndices := weights.zipIdx.insertionSort
    (fun first second => first.1 < second.1 ∨ first.1 = second.1 ∧ first.2 ≤ second.2)
  (List.range (weights.length / numPartitions)).map (fun block =>
    KKState.init (((weightedIndices.drop (block * numPartitions)).take numPartitions).map Prod.swap)
      numPartitions)

def karmarkarKarp (weights : List Int) (numPartitions : Nat) : Except String (List (List Nat)) :=
  if weights.length < numPartitions then .error "AssertionError"
  else if weights.length % numPartitions ≠ 0 then .error "AssertionError"
  else
    let states := initialStates weights numPartitions
    match mergeStates states.length states with
    | [] => .error "list index out of range"
    | state :: _ => .ok state.partitions

/-- Groups with the total weight of each. -/
structure Division where
  partitions : List (List Nat)
  loads : List Int
  loaded : loads.length = partitions.length

/-- An exchange of one item of a group with one item of a later group. -/
structure Swap where
  leftRank : Nat
  rightRank : Nat
  leftPos : Nat
  rightPos : Nat
deriving DecidableEq, Repr

/-- All exchanges in the order rank pair, left position, right position. -/
def candidates (partitions : List (List Nat)) : List Swap :=
  (List.range partitions.length).flatMap (fun leftRank =>
    ((List.range partitions.length).filter (fun rightRank => decide (leftRank < rightRank))).flatMap
      (fun rightRank =>
        (List.range (partitions.getD leftRank []).length).flatMap (fun leftPos =>
          (List.range (partitions.getD rightRank []).length).map (fun rightPos =>
            ⟨leftRank, rightRank, leftPos, rightPos⟩))))

/-- The total weights after an exchange: what one group gains the other loses. -/
def Swap.loads (swap : Swap) (weights : List Int) (division : Division) : List Int :=
  let leftIdx := (division.partitions.getD swap.leftRank []).getD swap.leftPos 0
  let rightIdx := (division.partitions.getD swap.rightRank []).getD swap.rightPos 0
  let change := weights.getD rightIdx 0 - weights.getD leftIdx 0
  (division.loads.set swap.leftRank (division.loads.getD swap.leftRank 0 + change)).set
    swap.rightRank (division.loads.getD swap.rightRank 0 - change)

/-- The groups after an exchange. -/
def Swap.partitions (swap : Swap) (partitions : List (List Nat)) : List (List Nat) :=
  let left := partitions.getD swap.leftRank []
  let right := partitions.getD swap.rightRank []
  (partitions.set swap.leftRank (left.set swap.leftPos (right.getD swap.rightPos 0))).set
    swap.rightRank (right.set swap.rightPos (left.getD swap.leftPos 0))

def Swap.apply (swap : Swap) (weights : List Int) (division : Division) : Division where
  partitions := swap.partitions division.partitions
  loads := swap.loads weights division
  loaded := by simp only [Swap.loads, Swap.partitions, List.length_set, division.loaded]

def maxLoad (loads : List Int) : Int := loads.max?.getD 0
def minLoad (loads : List Int) : Int := loads.min?.getD 0

/-- Largest load first, then the distance between the extreme loads. -/
def score (loads : List Int) : Int × Int := (maxLoad loads, maxLoad loads - minLoad loads)

/-- Lexicographic comparison of scores. -/
def lower (first second : Int × Int) : Bool :=
  decide (first.1 < second.1) || (decide (first.1 = second.1) && decide (first.2 < second.2))

/-- The first exchange with the lowest score, if one scores below the present. -/
def bestSwap (weights : List Int) (division : Division) : Option Swap :=
  ((candidates division.partitions).foldl
    (fun best swap =>
      if lower (score (swap.loads weights division)) best.1 then
        (score (swap.loads weights division), some swap)
      else best)
    (score division.loads, none)).2

/-! ## A swap lowers the score -/

theorem lower_iff (first second : Int × Int) :
    lower first second = true ↔
      first.1 < second.1 ∨ first.1 = second.1 ∧ first.2 < second.2 := by
  simp only [lower, Bool.or_eq_true, Bool.and_eq_true, decide_eq_true_eq]

theorem candidate_bounds (partitions : List (List Nat)) (swap : Swap)
    (candidate : swap ∈ candidates partitions) :
    swap.leftRank < swap.rightRank ∧ swap.rightRank < partitions.length ∧
      swap.leftPos < (partitions.getD swap.leftRank []).length ∧
      swap.rightPos < (partitions.getD swap.rightRank []).length := by
  simp only [candidates, List.mem_flatMap, List.mem_map, List.mem_filter, List.mem_range,
    decide_eq_true_eq] at candidate
  obtain ⟨leftRank, _, rightRank, ⟨inside, ascending⟩, leftPos, leftInside, rightPos, rightInside,
    rfl⟩ := candidate
  exact ⟨ascending, inside, leftInside, rightInside⟩

theorem lower_iff_lex (first second : Int × Int) :
    lower first second = true ↔ toLex first < toLex second := by
  rw [lower_iff, Prod.Lex.toLex_lt_toLex]

/-- What the scan for the best exchange comes to: none is chosen exactly when no
candidate scores below the present loads. -/
theorem best_swap_outcome (weights : List Int) (division : Division) :
    (bestSwap weights division = none ∧ ∀ swap ∈ candidates division.partitions,
        lower (score (swap.loads weights division)) (score division.loads) = false) ∨
      ∃ swap ∈ candidates division.partitions, bestSwap weights division = some swap ∧
        lower (score (swap.loads weights division)) (score division.loads) = true := by
  rcases FirstLowest.scan_outcome lower_iff_lex (fun swap : Swap => score (swap.loads weights division))
      (candidates division.partitions) (score division.loads, none) with
    ⟨same, above⟩ | ⟨swap, candidate, ends, less⟩
  · refine Or.inl ⟨congrArg Prod.snd same, ?_⟩
    intro swap candidate
    rw [← Bool.not_eq_true, lower_iff_lex]
    exact not_lt_of_ge (above swap candidate)
  · exact Or.inr ⟨swap, candidate, congrArg Prod.snd ends, (lower_iff_lex _ _).mpr less⟩

/-- A chosen exchange is a candidate that scores below the present loads. -/
theorem best_swap_lowers (weights : List Int) (division : Division) (swap : Swap)
    (chosen : bestSwap weights division = some swap) :
    swap ∈ candidates division.partitions ∧
      lower (score (swap.loads weights division)) (score division.loads) = true := by
  rcases best_swap_outcome weights division with ⟨none, -⟩ | ⟨other, candidate, isBest, improved⟩
  · rw [none] at chosen
    cases chosen
  · obtain rfl : other = swap := Option.some.inj (isBest.symm.trans chosen)
    exact ⟨candidate, improved⟩

theorem sum_le_max (loads : List Int) : loads.sum ≤ loads.length * maxLoad loads := by
  have bounded : ∀ load ∈ loads, load ≤ maxLoad loads := by
    intro load member
    cases largest : loads.max? with
    | none =>
      rw [List.max?_eq_none_iff] at largest
      exact absurd (largest ▸ member) List.not_mem_nil
    | some top =>
      simp only [maxLoad, largest, Option.getD_some]
      exact (List.max?_eq_some_iff.mp largest).2 load member
  have total := List.sum_le_card_nsmul loads (maxLoad loads) bounded
  rwa [nsmul_eq_mul] at total

theorem min_le_max (loads : List Int) : minLoad loads ≤ maxLoad loads := by
  cases smallest : loads.min? with
  | none =>
    rw [List.min?_eq_none_iff] at smallest
    rw [smallest]
    rfl
  | some low =>
    cases largest : loads.max? with
    | none =>
      rw [List.max?_eq_none_iff] at largest
      rw [largest] at smallest
      simp at smallest
    | some top =>
      simp only [minLoad, maxLoad, smallest, largest, Option.getD_some]
      exact (List.max?_eq_some_iff.mp largest).2 low (List.min?_eq_some_iff.mp smallest).1

/-- An exchange moves weight between groups and keeps the total. -/
theorem swap_loads_sum (weights : List Int) (division : Division) (swap : Swap)
    (candidate : swap ∈ candidates division.partitions) :
    (swap.loads weights division).sum = division.loads.sum := by
  obtain ⟨ascending, inside, _, _⟩ := candidate_bounds division.partitions swap candidate
  rw [← division.loaded] at inside
  have leftInside : swap.leftRank < division.loads.length := by omega
  have leftFound : division.loads[swap.leftRank]? =
      some (division.loads.getD swap.leftRank 0) := by
    rw [List.getElem?_eq_getElem leftInside, List.getD_eq_getElem _ _ leftInside]
  have rightFound (value : Int) : (division.loads.set swap.leftRank value)[swap.rightRank]? =
      some (division.loads.getD swap.rightRank 0) := by
    rw [List.getElem?_set_ne (by omega), List.getElem?_eq_getElem inside,
      List.getD_eq_getElem _ _ inside]
  simp only [Swap.loads]
  generalize weights.getD ((division.partitions.getD swap.rightRank []).getD swap.rightPos 0) 0 -
    weights.getD ((division.partitions.getD swap.leftRank []).getD swap.leftPos 0) 0 = change
  have first := Pool.sum_set id division.loads swap.leftRank _
    (division.loads.getD swap.leftRank 0 + change) leftFound
  have second := Pool.sum_set id (division.loads.set swap.leftRank
    (division.loads.getD swap.leftRank 0 + change)) swap.rightRank _
    (division.loads.getD swap.rightRank 0 - change) (rightFound _)
  simp only [List.map_id, id_eq] at first second
  omega

/-- What the refinement lowers: how far the largest load is above the average,
then the distance between the extreme loads. -/
def refineMeasure (division : Division) : Nat × Nat :=
  ((division.loads.length * maxLoad division.loads - division.loads.sum).toNat,
    (maxLoad division.loads - minLoad division.loads).toNat)

theorem refine_decreases (weights : List Int) (division : Division) (swap : Swap)
    (chosen : bestSwap weights division = some swap) :
    Prod.Lex (· < ·) (· < ·) (refineMeasure (swap.apply weights division))
      (refineMeasure division) := by
  obtain ⟨candidate, improved⟩ := best_swap_lowers weights division swap chosen
  obtain ⟨_, inside, _, _⟩ := candidate_bounds division.partitions swap candidate
  have total := swap_loads_sum weights division swap candidate
  have sameLength : (swap.loads weights division).length = division.loads.length := by
    simp only [Swap.loads, List.length_set]
  have average := sum_le_max (swap.loads weights division)
  rw [total, sameLength] at average
  have extremes := min_le_max (swap.loads weights division)
  have groups : (0 : Int) < division.loads.length := by
    rw [division.loaded]
    omega
  rw [lower_iff] at improved
  simp only [score] at improved
  simp only [refineMeasure, Swap.apply, total, sameLength]
  rcases improved with below | ⟨same, closer⟩
  · apply Prod.Lex.left
    have scaled := mul_lt_mul_of_pos_left below groups
    omega
  · rw [same] at closer extremes ⊢
    apply Prod.Lex.right
    omega

/-- The loop that applies the best pairwise swap until none lowers the score. -/
def refineScalar (weights : List Int) (division : Division) : List (List Nat) :=
  match _chosen : bestSwap weights division with
  | none => division.partitions
  | some swap => refineScalar weights (swap.apply weights division)
termination_by refineMeasure division
decreasing_by exact refine_decreases weights division swap _chosen

def partitionLoads (weights : List Int) (partitions : List (List Nat)) : List Int :=
  partitions.map (fun partition => (partition.map (fun idx => weights.getD idx 0)).sum)

/-- Groups with the loads they have. -/
def Division.init (weights : List Int) (partitions : List (List Nat)) : Division :=
  ⟨partitions, partitionLoads weights partitions, by rw [partitionLoads, List.length_map]⟩

/-- The search in Python integers. There is no largest load without groups. -/
def refineBySwappingScalar (weights : List Int) (partitions : List (List Nat)) :
    Except String (List (List Nat)) :=
  if partitions.isEmpty then .error "max() iterable argument is empty"
  else .ok (refineScalar weights (Division.init weights partitions))

/-! ## Every group gets the same number of items -/

/-- A state of `k` sets that all list `count` items. -/
structure KKState.Even (k count : Nat) (state : KKState) : Prop where
  groups : state.sets.length = k
  listed : ∀ set ∈ state.sets, set.items.length = count

/-- The items of a state, group after group. -/
def KKState.items (state : KKState) : List Nat := state.sets.flatMap WeightedSet.items

theorem sort_descending_perm (sets : List WeightedSet) :
    (KKState.sortDescending sets).Perm sets :=
  List.perm_insertionSort _ _

/-- A full block starts as `k` sets of one item each. -/
theorem init_even (items : List (Nat × Int)) :
    (KKState.init items items.length).Even items.length 1 ∧
      (KKState.init items items.length).items.Perm (items.map Prod.fst) := by
  have unsorted : (List.range items.length).map (fun setIdx => (items[setIdx]?).elim
      WeightedSet.empty (fun item => WeightedSet.empty.add item.1 item.2)) =
      items.map (fun item => WeightedSet.empty.add item.1 item.2) := by
    apply List.ext_getElem
    · rw [List.length_map, List.length_map, List.length_range]
    · intro position inRange inItems
      have inside : position < items.length := by simpa using inRange
      simp [inside]
  have sorted : (KKState.init items items.length).sets.Perm
      (items.map (fun item => WeightedSet.empty.add item.1 item.2)) := by
    rw [KKState.init, unsorted]
    exact sort_descending_perm _
  refine ⟨⟨?_, ?_⟩, ?_⟩
  · rw [sorted.length_eq, List.length_map]
  · intro set member
    obtain ⟨item, _, rfl⟩ := List.mem_map.mp (sorted.mem_iff.mp member)
    rfl
  · refine (sorted.flatMap_right WeightedSet.items).trans (List.Perm.of_eq ?_)
    rw [List.flatMap_map, List.map_eq_flatMap]
    rfl

theorem zip_merge_items (left right : List WeightedSet) (same : left.length = right.length) :
    ((List.zipWith WeightedSet.merge left right).flatMap WeightedSet.items).Perm
      (left.flatMap WeightedSet.items ++ right.flatMap WeightedSet.items) := by
  induction left generalizing right with
  | nil =>
    cases right with
    | nil => rfl
    | cons set rest => simp at same
  | cons first others inductionHypothesis =>
    cases right with
    | nil => simp at same
    | cons set rest =>
      have tails := inductionHypothesis rest (by simpa using same)
      simp only [List.zipWith_cons_cons, List.flatMap_cons, WeightedSet.merge, List.append_assoc]
      refine List.Perm.append_left first.items ((tails.append_left set.items).trans ?_)
      rw [← List.append_assoc, ← List.append_assoc]
      exact List.perm_append_comm.append_right _

/-- Merging two even states gives an even state with all their items. -/
theorem merge_even (k first second : Nat) (state other : KKState)
    (even : state.Even k first) (otherEven : other.Even k second) :
    (state.merge other).Even k (first + second) ∧
      (state.merge other).items.Perm (state.items ++ other.items) := by
  have sorted : (state.merge other).sets.Perm
      (List.zipWith WeightedSet.merge state.sets other.sets.reverse) :=
    sort_descending_perm _
  have sameLength : state.sets.length = other.sets.reverse.length := by
    rw [List.length_reverse, even.groups, otherEven.groups]
  refine ⟨⟨?_, ?_⟩, ?_⟩
  · rw [sorted.length_eq, List.length_zipWith, ← sameLength, even.groups, Nat.min_self]
  · intro set member
    obtain ⟨position, inside, rfl⟩ := List.getElem_of_mem (sorted.mem_iff.mp member)
    rw [List.getElem_zipWith, WeightedSet.merge, List.length_append,
      even.listed _ (List.getElem_mem _),
      otherEven.listed _ (List.mem_reverse.mp (List.getElem_mem _))]
  · refine (sorted.flatMap_right _).trans ((zip_merge_items _ _ sameLength).trans ?_)
    exact ((List.reverse_perm other.sets).flatMap_right _).append_left _

theorem heappop_isSome (first : KKState) (rest : List KKState) :
    ∃ least others, heappop (first :: rest) = some (least, others) := by
  rw [heappop]
  split
  · exact ⟨_, _, rfl⟩
  · split <;> exact ⟨_, _, rfl⟩

/-- Popping takes one state and keeps the others. -/
theorem heappop_perm (states : List KKState) (least : KKState) (others : List KKState)
    (popped : heappop states = some (least, others)) : states.Perm (least :: others) := by
  induction states generalizing least others with
  | nil => simp [heappop] at popped
  | cons first rest inductionHypothesis =>
    cases rest with
    | nil =>
      obtain ⟨rfl, rfl⟩ : first = least ∧ [] = others := by simpa [heappop] using popped
      rfl
    | cons second tail =>
      obtain ⟨lower, remaining, below⟩ := heappop_isSome second tail
      have reordered := inductionHypothesis lower remaining below
      rw [heappop, below] at popped
      dsimp only at popped
      split at popped
      · obtain ⟨rfl, rfl⟩ : lower = least ∧ first :: remaining = others := by simpa using popped
        exact (reordered.cons first).trans (List.Perm.swap _ _ _)
      · obtain ⟨rfl, rfl⟩ : first = least ∧ second :: tail = others := by simpa using popped
        rfl

/-- One state is left by the merges, even and with the items of all states. -/
theorem merge_states_even (k fuel : Nat) (states : List KKState) (enough : states.length ≤ fuel)
    (nonempty : states ≠ []) (even : ∀ state ∈ states, ∃ count, state.Even k count) :
    ∃ state count, mergeStates fuel states = [state] ∧ state.Even k count ∧
      state.items.Perm (states.flatMap KKState.items) := by
  induction fuel generalizing states with
  | zero => exact absurd (List.length_eq_zero_iff.mp (Nat.le_zero.mp enough)) nonempty
  | succ fuel inductionHypothesis =>
    cases states with
    | nil => exact absurd rfl nonempty
    | cons first rest =>
      obtain ⟨state, remaining, popped⟩ := heappop_isSome first rest
      have firstOrder := heappop_perm _ _ _ popped
      cases remaining with
      | nil =>
        obtain ⟨rfl, rfl⟩ : first = state ∧ rest = [] := by simpa using firstOrder
        obtain ⟨count, firstEven⟩ := even first List.mem_cons_self
        refine ⟨first, count, ?_, firstEven, ?_⟩
        · simp only [mergeStates, heappop]
        · rw [List.flatMap_singleton]
      | cons second tail =>
        obtain ⟨other, others, poppedAgain⟩ := heappop_isSome second tail
        have order := firstOrder.trans ((heappop_perm _ _ _ poppedAgain).cons state)
        have evenPopped : ∀ popped ∈ state :: other :: others, ∃ count, popped.Even k count :=
          fun popped member => even popped (order.mem_iff.mpr member)
        obtain ⟨firstCount, stateEven⟩ := evenPopped state List.mem_cons_self
        obtain ⟨secondCount, otherEven⟩ :=
          evenPopped other (List.mem_cons_of_mem _ List.mem_cons_self)
        obtain ⟨mergedEven, mergedItems⟩ := merge_even k _ _ state other stateEven otherEven
        have shorter : (others ++ [state.merge other]).length ≤ fuel := by
          have sameLength := order.length_eq
          simp only [List.length_cons, List.length_append, List.length_nil] at sameLength enough ⊢
          omega
        obtain ⟨last, count, merged, lastEven, lastItems⟩ :=
          inductionHypothesis (others ++ [state.merge other]) shorter (by simp) (by
            intro member inside
            rcases List.mem_append.mp inside with kept | joined
            · exact evenPopped member (List.mem_cons_of_mem _ (List.mem_cons_of_mem _ kept))
            · obtain rfl := List.mem_singleton.mp joined
              exact ⟨_, mergedEven⟩)
        refine ⟨last, count, ?_, lastEven, lastItems.trans ?_⟩
        · simp only [mergeStates, popped, poppedAgain, merged]
        · rw [List.flatMap_append, List.flatMap_singleton]
          refine List.perm_append_comm.trans ((mergedItems.append_right _).trans ?_)
          rw [List.append_assoc, ← List.flatMap_cons, ← List.flatMap_cons]
          exact (order.flatMap_right KKState.items).symm

/-- Blocks of `width` items, one after the other, are the whole list. -/
theorem blocks_flatten {Item : Type} (width blocks : Nat) (items : List Item)
    (whole : items.length = blocks * width) :
    (List.range blocks).flatMap (fun block => (items.drop (block * width)).take width) = items := by
  induction blocks generalizing items with
  | zero =>
    rw [Nat.zero_mul] at whole
    rw [List.length_eq_zero_iff.mp whole]
    rfl
  | succ blocks inductionHypothesis =>
    have shorter : (items.drop width).length = blocks * width := by
      rw [List.length_drop, whole, Nat.succ_mul]
      omega
    rw [List.range_succ_eq_map, List.flatMap_cons, List.flatMap_map]
    have shifted : ∀ block, (items.drop ((block + 1) * width)).take width =
        ((items.drop width).drop (block * width)).take width := by
      intro block
      rw [List.drop_drop, Nat.succ_mul, Nat.add_comm]
    simp only [Nat.succ_eq_add_one, shifted, inductionHypothesis _ shorter, Nat.zero_mul,
      List.drop_zero, List.take_append_drop]

/-- The differencing method gives `numPartitions` groups of equal cardinality
that list every index once. -/
theorem karmarkar_karp_even (weights : List Int) (numPartitions : Nat)
    (positive : 0 < numPartitions) (nonempty : weights ≠ [])
    (divides : weights.length % numPartitions = 0) :
    ∃ partitions count, karmarkarKarp weights numPartitions = .ok partitions ∧
      partitions.length = numPartitions ∧ (∀ partition ∈ partitions, partition.length = count) ∧
      partitions.flatten.Perm (List.range weights.length) := by
  have some : 0 < weights.length := List.length_pos_iff.mpr nonempty
  obtain ⟨blocks, whole⟩ := Nat.dvd_of_mod_eq_zero divides
  rw [Nat.mul_comm] at whole
  have quotient : weights.length / numPartitions = blocks := by
    rw [whole, Nat.mul_div_cancel _ positive]
  have someBlock : 0 < blocks := by
    rcases Nat.eq_zero_or_pos blocks with rfl | someBlock
    · omega
    · exact someBlock
  obtain ⟨sorted, isSorted⟩ : ∃ sorted, sorted = weights.zipIdx.insertionSort
    (fun first second => first.1 < second.1 ∨ first.1 = second.1 ∧ first.2 ≤ second.2) := ⟨_, rfl⟩
  have sortedPerm : sorted.Perm weights.zipIdx := isSorted ▸ List.perm_insertionSort _ _
  have sortedLength : sorted.length = blocks * numPartitions := by
    rw [sortedPerm.length_eq, List.length_zipIdx, whole]
  have states : initialStates weights numPartitions = (List.range blocks).map (fun block =>
      KKState.init (((sorted.drop (block * numPartitions)).take numPartitions).map Prod.swap)
        numPartitions) := by
    rw [initialStates, quotient, isSorted]
  have blockSpec : ∀ block ∈ List.range blocks,
      (KKState.init (((sorted.drop (block * numPartitions)).take numPartitions).map Prod.swap)
          numPartitions).Even numPartitions 1 ∧
        (KKState.init (((sorted.drop (block * numPartitions)).take numPartitions).map Prod.swap)
          numPartitions).items.Perm
            (((sorted.drop (block * numPartitions)).take numPartitions).map Prod.snd) := by
    intro block member
    have before : block * numPartitions + numPartitions ≤ sorted.length := by
      rw [sortedLength, ← Nat.succ_mul]
      exact Nat.mul_le_mul_right _ (List.mem_range.mp member)
    have width : (((sorted.drop (block * numPartitions)).take numPartitions).map
        Prod.swap).length = numPartitions := by
      rw [List.length_map, List.length_take, List.length_drop]
      omega
    have full := init_even (((sorted.drop (block * numPartitions)).take numPartitions).map Prod.swap)
    rw [width, List.map_map] at full
    exact full
  obtain ⟨state, count, merged, even, items⟩ := merge_states_even numPartitions
    (initialStates weights numPartitions).length (initialStates weights numPartitions) (Nat.le_refl _)
    (by
      rw [states, ne_eq, List.map_eq_nil_iff, List.range_eq_nil]
      omega)
    (by
      intro state member
      rw [states] at member
      obtain ⟨block, inRange, rfl⟩ := List.mem_map.mp member
      exact ⟨1, (blockSpec block inRange).1⟩)
  have allItems : ((initialStates weights numPartitions).flatMap KKState.items).Perm
      (List.range weights.length) := by
    rw [states, List.flatMap_map]
    refine (List.Perm.flatMap_left _ (fun block member => (blockSpec block member).2)).trans ?_
    rw [← List.map_flatMap, blocks_flatten numPartitions blocks sorted sortedLength]
    refine (sortedPerm.map Prod.snd).trans (List.Perm.of_eq ?_)
    rw [List.zipIdx_map_snd, List.range_eq_range']
  refine ⟨state.partitions, count, ?_, ?_, ?_, ?_⟩
  · have large : ¬ weights.length < numPartitions := by
      rw [whole]
      have := Nat.le_mul_of_pos_left numPartitions someBlock
      omega
    simp only [karmarkarKarp, large, divides, if_false, ne_eq, not_true_eq_false, merged]
  · rw [KKState.partitions, List.length_map, even.groups]
  · intro partition member
    obtain ⟨set, inside, rfl⟩ := List.mem_map.mp member
    rw [List.length_insertionSort, even.listed set inside]
  · rw [KKState.partitions, ← List.flatMap_def]
    refine (List.Perm.flatMap_left _ (fun set _ => List.perm_insertionSort _ _)).trans ?_
    exact items.trans allItems

/-! ## Refinement keeps the cardinalities and the items -/

/-- An exchange keeps the cardinality of the groups and what they list together. -/
theorem swap_keeps_items (partitions : List (List Nat)) (swap : Swap) (count : Nat)
    (candidate : swap ∈ candidates partitions)
    (even : ∀ partition ∈ partitions, partition.length = count) :
    (∀ partition ∈ swap.partitions partitions, partition.length = count) ∧
      (swap.partitions partitions).flatten.Perm partitions.flatten := by
  obtain ⟨ascending, inside, leftInside, rightInside⟩ := candidate_bounds partitions swap candidate
  obtain ⟨left, isLeft⟩ : ∃ left, left = partitions.getD swap.leftRank [] := ⟨_, rfl⟩
  obtain ⟨right, isRight⟩ : ∃ right, right = partitions.getD swap.rightRank [] := ⟨_, rfl⟩
  have leftFound : partitions[swap.leftRank]? = some left := by
    rw [isLeft, List.getD_eq_getElem _ _ (by omega), List.getElem?_eq_getElem]
  have rightFound : partitions[swap.rightRank]? = some right := by
    rw [isRight, List.getD_eq_getElem _ _ inside, List.getElem?_eq_getElem]
  rw [← isLeft] at leftInside
  rw [← isRight] at rightInside
  have rightStill (replaced : List Nat) :
      (partitions.set swap.leftRank replaced)[swap.rightRank]? = some right := by
    rw [List.getElem?_set_ne (by omega), rightFound]
  simp only [Swap.partitions, ← isLeft, ← isRight]
  have leftItem : left[swap.leftPos]? = some (left.getD swap.leftPos 0) := by
    rw [List.getD_eq_getElem _ _ leftInside, List.getElem?_eq_getElem]
  have rightItem : right[swap.rightPos]? = some (right.getD swap.rightPos 0) := by
    rw [List.getD_eq_getElem _ _ rightInside, List.getElem?_eq_getElem]
  generalize left.getD swap.leftPos 0 = leftIdx at leftItem ⊢
  generalize right.getD swap.rightPos 0 = rightIdx at rightItem ⊢
  constructor
  · intro partition member
    rcases List.mem_or_eq_of_mem_set member with earlier | rfl
    · rcases List.mem_or_eq_of_mem_set earlier with kept | rfl
      · exact even partition kept
      · rw [List.length_set]
        exact even left (List.mem_of_getElem? leftFound)
    · rw [List.length_set]
      exact even right (List.mem_of_getElem? rightFound)
  · rw [List.perm_iff_count]
    intro item
    rw [List.count_flatten, List.count_flatten]
    have afterLeft := Pool.sum_set (List.count item) partitions swap.leftRank left
      (left.set swap.leftPos rightIdx) leftFound
    have afterRight := Pool.sum_set (List.count item)
      (partitions.set swap.leftRank (left.set swap.leftPos rightIdx)) swap.rightRank right
      (right.set swap.rightPos leftIdx) (rightStill _)
    have leftCount := Pool.countP_set (· == item) left swap.leftPos leftIdx rightIdx leftItem
    have rightCount := Pool.countP_set (· == item) right swap.rightPos rightIdx leftIdx rightItem
    simp only [List.count] at afterLeft afterRight ⊢
    omega

theorem swap_partitions_length (partitions : List (List Nat)) (swap : Swap) :
    (swap.partitions partitions).length = partitions.length := by
  simp only [Swap.partitions, List.length_set]

theorem refine_keeps_items (weights : List Int) (division : Division) (count : Nat)
    (even : ∀ partition ∈ division.partitions, partition.length = count) :
    (refineScalar weights division).length = division.partitions.length ∧
      (∀ partition ∈ refineScalar weights division, partition.length = count) ∧
      (refineScalar weights division).flatten.Perm division.partitions.flatten := by
  induction division using refineScalar.induct weights with
  | case1 division finished =>
    rw [refineScalar, finished]
    exact ⟨rfl, even, List.Perm.refl _⟩
  | case2 division swap chosen inductionHypothesis =>
    have candidate := (best_swap_lowers weights division swap chosen).1
    obtain ⟨stillEven, sameItems⟩ := swap_keeps_items division.partitions swap count candidate even
    obtain ⟨groups, listed, reordered⟩ := inductionHypothesis stillEven
    rw [refineScalar, chosen]
    refine ⟨groups.trans ?_, listed, reordered.trans sameItems⟩
    exact swap_partitions_length division.partitions swap

end PrimeRl.Trainer.Partition
