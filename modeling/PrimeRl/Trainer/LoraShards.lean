import Mathlib.Algebra.BigOperators.Ring.Finset
import PrimeRl.Support.Owners
import PrimeRl.Trainer.Lora

/-!
# Shards by owner

Below the capacity of 32-bit offsets, the adjusted counts of a rank are the cut
of the counts to its chunk, so the linear layer assigns each token to the owner
that the counts of the whole row give it. Grouped experts follow the greatest
count of the shard.
-/

namespace PrimeRl.Trainer.Lora

open PrimeRl.Transport PrimeRl.Owners

variable {Scalar Factor : Type}

theorem int32_small (value : Int) (lower : -2 ^ 31 ≤ value) (upper : value < 2 ^ 31) :
    int32 value = value := by
  rw [int32, Int.bmod_def]
  omega

theorem int32_tensor_small (values : List Nat) (small : ∀ value ∈ values, value < 2 ^ 31) :
    int32Tensor values = .ok (values.map Int.ofNat) := by
  have fits : values.any (fun value => decide (2 ^ 31 ≤ value)) = false := by
    rw [List.any_eq_false]
    intro value member
    have below := small value member
    simpa using below
  rw [int32Tensor, fits]
  rfl

/-- Sums below the capacity of 32 bits are exact. -/
theorem int32_add (total count : Nat) (capacity : total + count < 2 ^ 31) :
    int32 ((total : Int) + Int.ofNat count) = ((total + count : Nat) : Int) := by
  have exactly : (total : Int) + Int.ofNat count = ((total + count : Nat) : Int) := rfl
  rw [exactly, int32_small _ (by omega) (by omega)]

/-! ## Cutting the counts -/

/-- The differences of clipped offsets are the cut counts. -/
theorem diff_clip_cut (counts : List Nat) (total skip size : Nat)
    (capacity : total + counts.sum < 2 ^ 31) (skipped : skip < 2 ^ 31) (sized : size < 2 ^ 31) :
    diff (min (total - skip) size : Nat) ((cumsum total (counts.map Int.ofNat)).map
        (fun offset => clip 0 size (int32 (offset - skip)))) =
      (cut (skip - total) (size - min (total - skip) size) counts).map Int.ofNat := by
  induction counts generalizing total with
  | nil => rfl
  | cons count rest inductionHypothesis =>
    rw [List.sum_cons] at capacity
    have added := int32_add total count (by omega)
    have clipped : clip 0 size (int32 (((total + count : Nat) : Int) - skip)) =
        ((min (total + count - skip) size : Nat) : Int) := by
      rw [int32_small _ (by omega) (by omega), clip]
      omega
    have grows : min (total + count - skip) size =
        min (total - skip) size + min (count - (skip - total)) (size - min (total - skip) size) := by
      omega
    have change : int32 (((min (total + count - skip) size : Nat) : Int) -
        ((min (total - skip) size : Nat) : Int)) =
        ((min (count - (skip - total)) (size - min (total - skip) size) : Nat) : Int) := by
      have bounded := (Nat.min_le_right (count - (skip - total)) (size - min (total - skip) size)).trans
        (Nat.sub_le _ _)
      rw [grows, Nat.cast_add, add_sub_cancel_left]
      generalize min (count - (skip - total)) (size - min (total - skip) size) = piece at bounded
      exact int32_small _ (by omega) (by omega)
    have behind : skip - total - count = skip - (total + count) := Nat.sub_sub _ _ _
    have remaining : size - min (total - skip) size -
        min (count - (skip - total)) (size - min (total - skip) size) =
          size - min (total + count - skip) size := by rw [grows, Nat.sub_sub]
    rw [List.map_cons, cumsum, added, List.map_cons, clipped, diff, change,
      inductionHypothesis (total + count) (by omega), cut, List.map_cons, behind, remaining]
    rfl

theorem adjust_cuts (counts : List Nat) (chunkSize cpRank : Nat) (capacity : counts.sum < 2 ^ 31)
    (skipped : chunkSize * cpRank < 2 ^ 31) (sized : chunkSize < 2 ^ 31) :
    adjustLoraNumTokens (counts.map Int.ofNat) chunkSize cpRank =
      (cut (chunkSize * cpRank) chunkSize counts).map Int.ofNat := by
  have cuts := diff_clip_cut counts 0 (chunkSize * cpRank) chunkSize (by omega) skipped sized
  simpa [adjustLoraNumTokens] using cuts

/-- A window that holds all items cuts nothing. -/
theorem cut_whole (counts : List Nat) (size : Nat) (whole : counts.sum ≤ size) :
    cut 0 size counts = counts := by
  induction counts generalizing size with
  | nil => rfl
  | cons count rest inductionHypothesis =>
    rw [List.sum_cons] at whole
    have here : min (count - 0) size = count := by omega
    rw [cut, here, Nat.zero_sub, inductionHypothesis (size - count) (by omega)]

/-! ## The linear layer -/

theorem int32_add_int32 (value added : Int) : int32 (int32 value + added) = int32 (value + added) := by
  rw [int32, int32, int32, Int.bmod_add_bmod]

/-- The last offset is the total, as far as 32 bits hold it. -/
theorem cumsum_last (counts : List Int) (total : Int) (nonempty : counts ≠ []) :
    (cumsum total counts).getLast? = some (int32 (total + counts.sum)) := by
  induction counts generalizing total with
  | nil => exact absurd rfl nonempty
  | cons count rest inductionHypothesis =>
    cases rest with
    | nil => rw [cumsum, cumsum, List.sum_singleton, List.getLast?_singleton]
    | cons next others =>
      have behind := inductionHypothesis (int32 (total + count)) (List.cons_ne_nil next others)
      rw [cumsum, List.getLast?_cons, behind, int32_add_int32, Int.add_assoc]
      rfl

/-- The loop multiplies every position in order, each by its owner. -/
theorem run_lora_owners (counts : List Nat) (size adapter start : Nat)
    (inside : start + counts.sum ≤ size) (capacity : size < 2 ^ 31) :
    runLoraForLoop size adapter start (cumsum start (counts.map Int.ofNat)) =
      (List.range' start counts.sum).zip (expand adapter counts) := by
  induction counts generalizing adapter start with
  | nil => rfl
  | cons count rest inductionHypothesis =>
    rw [List.sum_cons] at inside
    have added := int32_add start count (by omega)
    have sliced : slice size start ((start + count : Nat) : Int) = List.range' start count := by
      have fromStart : clampIndex size start = start := by
        rw [clampIndex, if_neg (by omega)]
        omega
      have toStop : clampIndex size ((start + count : Nat) : Int) = start + count := by
        rw [clampIndex, if_neg (by omega)]
        omega
      rw [slice, fromStart, toStop, Nat.add_sub_cancel_left]
    have pairs : (List.range' start count).map (fun position => (position, adapter)) =
        (List.range' start count).zip (List.replicate count adapter) := by
      rw [List.map_prod_left_eq_zip, List.map_const', List.length_range']
    rw [List.map_cons, cumsum, added, runLoraForLoop, sliced, inductionHypothesis (adapter + 1)
      (start + count) (by omega), pairs, expand, List.sum_cons, ← List.range'_append_1,
      List.zip_append (by simp)]

/-- Each item is scaled by the factor of its owner. -/
theorem repeat_factors (factors : List Factor) (counts : List Nat) (first : Nat)
    (read : Nat → Option Factor) (sized : factors.length = counts.length)
    (reads : ∀ owner < factors.length, read (first + owner) = factors[owner]?) :
    (List.zipWith (fun factor (count : Int) => List.replicate count.toNat factor) factors
        (counts.map Int.ofNat)).flatten.map some = (expand first counts).map read := by
  induction counts generalizing first factors with
  | nil =>
    obtain rfl := List.length_eq_zero_iff.mp sized
    rfl
  | cons count rest inductionHypothesis =>
    cases factors with
    | nil => cases sized
    | cons factor others =>
      have here : read first = some factor := reads 0 (Nat.succ_pos _)
      have later : ∀ owner < others.length, read (first + 1 + owner) = others[owner]? := by
        intro owner bound
        have next := reads (owner + 1) (Nat.succ_lt_succ bound)
        rw [← Nat.add_assoc, Nat.add_right_comm] at next
        exact next
      have tail := inductionHypothesis others (first + 1) (by simpa using sized) later
      rw [List.map_cons, List.zipWith_cons_cons, List.flatten_cons, List.map_append, tail, expand,
        List.map_append, List.map_replicate, List.map_replicate, here]
      rfl

/-- The linear layer assigns every position of a shard to its owner, with the
owner's factor. -/
theorem multi_lora_linear_owners (factors : List Factor) (counts : List Nat)
    (sized : factors.length = counts.length) (nonempty : counts ≠ [])
    (capacity : counts.sum < 2 ^ 31) :
    ∃ tokens, multiLoraLinear factors counts.sum (counts.map Int.ofNat) = .ok tokens ∧
      ∀ position owner factor, (expand 0 counts)[position]? = some owner →
        factors[owner]? = some factor → tokens[position]? = some (⟨position, owner, factor⟩ : TokenUse Factor) := by
  have last : (cumsum 0 (counts.map Int.ofNat)).getLast? = some ((counts.sum : Nat) : Int) := by
    have total : (counts.map Int.ofNat).sum = ((counts.sum : Nat) : Int) :=
      (Nat.cast_list_sum counts).symm
    rw [cumsum_last _ 0 (by simpa using nonempty), Int.zero_add, total, int32_small _ (by omega) (by omega)]
  have rows := run_lora_owners counts counts.sum 0 0 (by omega) capacity
  have repeated := repeat_factors factors counts 0 (fun owner => factors[owner]?) sized
    (fun owner _ => by rw [Nat.zero_add])
  obtain ⟨scaling, isScaling⟩ : ∃ scaling, scaling =
    (List.zipWith (fun factor (count : Int) => List.replicate count.toNat factor) factors
      (counts.map Int.ofNat)).flatten := ⟨_, rfl⟩
  rw [← isScaling] at repeated
  have scales : repeatInterleave factors (counts.map Int.ofNat) = .ok scaling := by
    have signs : (counts.map Int.ofNat).any (fun count => decide (count < 0)) = false := by
      rw [List.any_eq_false]
      intro count member
      obtain ⟨natural, -, rfl⟩ := List.mem_map.mp member
      simp
    rw [repeatInterleave, if_neg (by simpa using sized), signs, ← isScaling]
    rfl
  have scalingLength : scaling.length = counts.sum := by
    have lengths := congrArg List.length repeated
    rwa [List.length_map, List.length_map, expand_length] at lengths
  obtain ⟨loraOut, isOut⟩ : ∃ loraOut, loraOut =
    (List.range' 0 counts.sum).zip (expand 0 counts) := ⟨_, rfl⟩
  have outLength : loraOut.length = counts.sum := by
    rw [isOut, List.length_zip, List.length_range', expand_length, Nat.min_self]
  refine ⟨List.zipWith (fun row factor => ⟨row.1, row.2, factor⟩) loraOut scaling, ?_, ?_⟩
  · have rowsAre : runLoraForLoop counts.sum 0 0 (cumsum 0 (counts.map Int.ofNat)) = loraOut :=
      rows.trans isOut.symm
    simp only [multiLoraLinear, last, ne_eq, not_true_eq_false, if_false, rowsAre, scales,
      scalingLength, outLength]
  · intro position owner factor owned known
    have bound : position < counts.sum := by
      rw [← expand_length 0 counts]
      exact (List.getElem?_eq_some_iff.mp owned).1
    have outAt : loraOut[position]? = some (position, owner) := by
      rw [isOut, List.getElem?_zip_eq_some]
      refine ⟨?_, owned⟩
      rw [List.getElem?_range' bound]
      simp
    have scalingAt : scaling[position]? = some factor := by
      have mapped := congrArg (fun values => values[position]?) repeated
      simp only [List.getElem?_map, owned, Option.map_some, known] at mapped
      cases found : scaling[position]? with
      | none => simp [found] at mapped
      | some value =>
        rw [found] at mapped
        exact Option.some.inj mapped
    rw [List.getElem?_zipWith, outAt, scalingAt]

/-! ## Grouped experts -/

/-- The first position of a value is not behind any of its positions. -/
theorem idx_of_le (values : List Int) (position : Nat) (value : Int)
    (found : values[position]? = some value) : values.idxOf value ≤ position := by
  by_contra behind
  obtain ⟨bound, isValue⟩ := List.getElem?_eq_some_iff.mp found
  have differs := List.not_of_lt_findIdx (Nat.not_le.mp behind)
  rw [isValue, beq_self_eq_true] at differs
  cases differs

/-- A count is chosen when no other is greater and none before it is as great. -/
theorem argmax_eq_some_iff (counts : List Int) (idx : Nat) :
    argmax counts = some idx ↔ ∃ greatest, counts[idx]? = some greatest ∧
      (∀ other ∈ counts, other ≤ greatest) ∧
      ∀ earlier < idx, ∀ value, counts[earlier]? = some value → value < greatest := by
  rw [argmax, Option.map_eq_some_iff]
  constructor
  · rintro ⟨greatest, isMax, rfl⟩
    obtain ⟨member, above⟩ := List.max?_eq_some_iff.mp isMax
    have position := List.idxOf_lt_length_of_mem member
    refine ⟨greatest, ?_, above, ?_⟩
    · rw [List.getElem?_eq_getElem position, List.getElem_idxOf]
    · intro earlier before value found
      have differs : value ≠ greatest := by
        rintro rfl
        exact absurd before (Nat.not_lt.mpr (idx_of_le counts earlier value found))
      exact lt_of_le_of_ne (above value (List.mem_of_getElem? found)) differs
  · rintro ⟨greatest, found, above, earlier⟩
    have member := List.mem_of_getElem? found
    refine ⟨greatest, List.max?_eq_some_iff.mpr ⟨member, above⟩, ?_⟩
    have position := List.idxOf_lt_length_of_mem member
    rcases Nat.lt_trichotomy (counts.idxOf greatest) idx with before | same | behind
    · have value := earlier _ before greatest (by
        rw [List.getElem?_eq_getElem position, List.getElem_idxOf])
      exact absurd value (lt_irrefl _)
    · exact same
    · exact absurd behind (Nat.not_lt.mpr (idx_of_le counts idx greatest found))

end PrimeRl.Trainer.Lora
