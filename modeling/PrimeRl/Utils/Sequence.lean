import Mathlib.Algebra.Ring.Int.Defs
import Mathlib.Algebra.Ring.Nat
import Mathlib.Data.Int.Init
import Mathlib.Data.List.Basic
import Mathlib.Data.List.Destutter

/-!
# Packed sequence metadata

Variable-length attention reads the boundaries of a packed row from cumulative
32-bit offsets. The offsets are computed from the host-side packing lengths, or from
the places where the position ids of the row, or of one shard of it, are zero.
-/

namespace PrimeRl.Utils.Sequence

/-- Largest value of a signed 32-bit cumulative offset. -/
def int32Max : Nat := 2147483647

structure PackedSequenceMetadata where
  lengths : List Nat
  offsets : List Nat
  maxSeqlen : Nat
  cuSeqlens : List Nat
deriving DecidableEq, Repr

/-- Running sums of the lengths, from an initial zero to the total. -/
def accumulate (lengths : List Nat) : List Nat := lengths.scanl (· + ·) 0

/-- Prepare varlen boundaries from packing lengths. The type checks on the
arguments are those of the Lean types. -/
def preparePackedSequenceMetadata (lengths : List Nat) (totalTokens : Nat) :
    Except String PackedSequenceMetadata :=
  if lengths.isEmpty || lengths.any (fun length => decide (length ≤ 0)) then
    .error "Packing lengths must be nonempty positive integers"
  else if decide (totalTokens ≤ 0) || decide (lengths.sum ≠ totalTokens) then
    .error "Packing lengths must sum to the positive input token count"
  else if int32Max < totalTokens then
    .error "Packed token count exceeds int32 cumulative-offset capacity"
  else
    .ok
      { lengths := lengths
        offsets := accumulate lengths
        maxSeqlen := lengths.foldl max 0
        cuSeqlens := accumulate lengths }

def PackedSequenceMetadata.totalTokens (metadata : PackedSequenceMetadata) : Nat :=
  metadata.offsets.getLastD 0

/-- The metadata of one context-parallel shard. A difference of ends below zero is
dropped with the empty ones. -/
def PackedSequenceMetadata.forCp (metadata : PackedSequenceMetadata)
    (cpRank cpWorldSize : Nat) : Except String PackedSequenceMetadata :=
  if cpWorldSize < 1 then .error "Context parallel world size must be a positive integer"
  else if ¬ cpRank < cpWorldSize then
    .error "Context parallel rank is outside the world size"
  else if metadata.totalTokens % cpWorldSize ≠ 0 then
    .error "Packed token count must be divisible by context parallel world size"
  else if cpWorldSize = 1 then .ok metadata
  else
    let chunk := metadata.totalTokens / cpWorldSize
    let start := cpRank * chunk
    let stop := (cpRank + 1) * chunk
    let lengths := (metadata.offsets.zip metadata.offsets.tail).map
      (fun ends => min ends.2 stop - max ends.1 start)
    preparePackedSequenceMetadata (lengths.filter (0 < ·)) chunk

/-- The indices at which position ids are zero, counted from the first one's. -/
def zeroStarts (index : Nat) : List Nat → List Nat
  | [] => []
  | positionId :: rest =>
    if positionId = 0 then index :: zeroStarts (index + 1) rest
    else zeroStarts (index + 1) rest

/-- What a 32-bit tensor holds of a sum. -/
def int32 (value : Nat) : Int := Int.bmod value (2 ^ 32)

/-- Cumulative offsets and longest length, from the position ids of a row or a shard. -/
def getCuSeqlensFromPositionIds (positionIds : List Nat) : Except String (List Int × Nat) :=
  let totalTokens := positionIds.length
  if totalTokens = 0 then .error "Cannot build cu_seqlens for an empty position_ids tensor"
  else
    let starts := (0 :: zeroStarts 0 positionIds).destutter (· ≠ ·)
    let ends := starts.tail ++ [totalTokens]
    let seqlens := List.zipWith (· - ·) ends starts
    .ok (0 :: (accumulate seqlens).tail.map int32, seqlens.foldl max 0)

/-- The metadata of a row of packed sequences. -/
def PackedSequenceMetadata.ofLengths (lengths : List Nat) : PackedSequenceMetadata where
  lengths := lengths
  offsets := accumulate lengths
  maxSeqlen := lengths.foldl max 0
  cuSeqlens := accumulate lengths

/-- Positive lengths that sum to the row are refused only for the offset capacity. -/
theorem prepare_positive (lengths : List Nat) (nonempty : lengths ≠ [])
    (positive : ∀ length ∈ lengths, 0 < length) :
    preparePackedSequenceMetadata lengths lengths.sum =
      if int32Max < lengths.sum then
        .error "Packed token count exceeds int32 cumulative-offset capacity"
      else .ok (.ofLengths lengths) := by
  have noEmpty : (lengths.isEmpty || lengths.any (fun length => decide (length ≤ 0))) = false := by
    simp only [Bool.or_eq_false_iff, List.isEmpty_eq_false_iff, ne_eq, nonempty, not_false_eq_true,
      List.any_eq_false, decide_eq_true_eq, true_and]
    intro length member
    exact Nat.not_le.mpr (positive length member)
  have total : 0 < lengths.sum := by
    cases lengths with
    | nil => exact absurd rfl nonempty
    | cons first rest =>
      have atLeast := positive first List.mem_cons_self
      simp only [List.sum_cons]
      omega
  have exactTotal : (decide (lengths.sum ≤ 0) || decide (lengths.sum ≠ lengths.sum)) = false := by
    simp only [ne_eq, not_true_eq_false, decide_false, Bool.or_false, decide_eq_false_iff_not]
    exact Nat.not_le.mpr total
  simp only [preparePackedSequenceMetadata, noEmpty, exactTotal, Bool.false_eq_true, if_false]
  rfl

/-- Positive lengths that sum to the row are accepted exactly up to the 32-bit
offset capacity, and their metadata lists them unchanged. -/
theorem prepare_accepts (lengths : List Nat) (nonempty : lengths ≠ [])
    (positive : ∀ length ∈ lengths, 1 ≤ length) :
    (lengths.sum ≤ int32Max →
      ∃ metadata, preparePackedSequenceMetadata lengths lengths.sum = .ok metadata ∧
        metadata.lengths = lengths) ∧
      (int32Max < lengths.sum → preparePackedSequenceMetadata lengths lengths.sum =
        .error "Packed token count exceeds int32 cumulative-offset capacity") := by
  have prepared := prepare_positive lengths nonempty positive
  constructor
  · intro fits
    exact ⟨_, prepared.trans (if_neg (Nat.not_lt.mpr fits)), rfl⟩
  · intro tooLong
    exact prepared.trans (if_pos tooLong)

/-- The last running sum is the total. -/
theorem total_tokens_of_lengths (lengths : List Nat) :
    (PackedSequenceMetadata.ofLengths lengths).totalTokens = lengths.sum := by
  have last : ∀ index, (lengths.scanl (· + ·) index).getLastD 0 = index + lengths.sum := by
    induction lengths with
    | nil => intro index; rfl
    | cons length rest inductionHypothesis =>
      intro index
      have later := inductionHypothesis (index + length)
      cases rest with
      | nil => simp
      | cons next rest => simpa [Nat.add_assoc] using later
  exact (last 0).trans (Nat.zero_add _)

end PrimeRl.Utils.Sequence
