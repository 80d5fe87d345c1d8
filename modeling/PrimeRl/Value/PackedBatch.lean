import Mathlib.Data.List.Induction
import PrimeRl.Value.Inference
import PrimeRl.Value.Loss
import PrimeRl.Value.Trainer

/-!
# The packed training batch

Packing rearranges the samples of a batch into rows: every sample is in one row, with its
streams in one piece, and dummy rows carry one masked token. A row's loss is a sum over
its masked tokens, so the losses of all rows together, divided by the count of masked
tokens of all ranks, are the mean over the samples' tokens.
-/

namespace PrimeRl.Value.Batch

open PrimeRl.Utils.Sequence PrimeRl.Value.Math PrimeRl.Value.Inference

universe u
variable {Scalar : Type u}

/-- A sample whose streams have one entry for each token. -/
def Aligned (sample : ValueTrainingSample Scalar) : Prop :=
  sample.mask.length = sample.tokenIds.length ∧ sample.targets.length = sample.tokenIds.length

instance (sample : ValueTrainingSample Scalar) : Decidable (Aligned sample) :=
  inferInstanceAs (Decidable (_ ∧ _))

/-- The samples that indices stand for. -/
def placedSamples (samples : List (ValueTrainingSample Scalar)) (indices : List Nat) :
    List (ValueTrainingSample Scalar) :=
  indices.filterMap (fun index => samples[index]?)

/-- A row with the streams of samples one after the other. -/
structure Concatenates (placed : List (ValueTrainingSample Scalar))
    (row : ValueMicroBatch Scalar) : Prop where
  inputIds : row.inputIds = placed.flatMap ValueTrainingSample.tokenIds
  positionIds : row.positionIds = placed.flatMap (fun sample => List.range sample.tokenIds.length)
  mask : row.mask = placed.flatMap ValueTrainingSample.mask
  targets : row.targets = placed.flatMap ValueTrainingSample.targets
  sequenceLengths : row.sequenceLengths = placed.map (fun sample => sample.tokenIds.length)

/-- The sample that fills a row without any. -/
def dummySample [Zero Scalar] (padTokenId : Nat) : ValueTrainingSample Scalar :=
  ⟨[padTokenId], [false], [0]⟩

/-- A row of placed samples, or of the dummy where nothing is placed. -/
inductive Row [Zero Scalar] (samples : List (ValueTrainingSample Scalar)) (padTokenId : Nat) :
    List Nat → ValueMicroBatch Scalar → Prop where
  | dummy (row : ValueMicroBatch Scalar) (isDummy : Concatenates [dummySample padTokenId] row)
      (labelled : row.sampleIndices = [-1]) : Row samples padTokenId [] row
  | placed (indices : List Nat) (row : ValueMicroBatch Scalar) (nonempty : indices ≠ [])
      (present : ∀ index ∈ indices, index < samples.length)
      (streams : Concatenates (placedSamples samples indices) row)
      (labelled : row.sampleIndices = indices.map Int.ofNat) : Row samples padTokenId indices row

/-- What packing makes of a batch. -/
structure PackedBatch [Zero Scalar] (samples : List (ValueTrainingSample Scalar))
    (seqLen worldSize padTokenId : Nat) (packSequences : Bool)
    (grid : List (List (ValueMicroBatch Scalar))) : Prop where
  ranks : grid.length = worldSize
  even : ∃ rounds, ∀ rank ∈ grid, rank.length = rounds
  placed : ∃ indices : List (List (List Nat)),
    List.Forall₂ (List.Forall₂ (Row samples padTokenId)) indices grid ∧
      indices.flatten.flatten.Perm (List.range samples.length)
  short : ∀ rank ∈ grid, ∀ row ∈ rank, row.inputIds.length ≤ seqLen
  trainable : (grid.map ValueTrainerRuntime.localScale).sum =
    (samples.map (fun sample => sample.mask.count true)).sum
  full : packSequences = true →
    (grid.flatten.filter (fun row => decide (row.sampleIndices ≠ [-1]))).Pairwise
      (fun row other => seqLen < row.inputIds.length + other.inputIds.length)

/-! ## Rows -/

theorem placed_all (samples : List (ValueTrainingSample Scalar)) :
    placedSamples samples (List.range samples.length) = samples := by
  induction samples using List.reverseRecOn with
  | nil => rfl
  | append_singleton earlier last inductionHypothesis =>
    have before : (List.range earlier.length).filterMap (fun index => (earlier ++ [last])[index]?) =
        placedSamples earlier (List.range earlier.length) := by
      apply List.filterMap_congr
      intro index member
      exact List.getElem?_append_left (List.mem_range.mp member)
    rw [List.length_append, List.length_singleton, placedSamples, List.range_succ,
      List.filterMap_append, before, inductionHypothesis]
    simp

/-- Bins that hold every index once hold every sample once. -/
theorem placed_perm {samples : List (ValueTrainingSample Scalar)} {bins : List (List Nat)}
    (once : bins.flatten.Perm (List.range samples.length)) :
    (bins.flatMap (placedSamples samples)).Perm samples := by
  have placed := once.filterMap (fun index => samples[index]?)
  rw [List.filterMap_flatten] at placed
  exact placed.trans (List.Perm.of_eq (placed_all samples))

theorem materialize_row [Zero Scalar] (samples : List (ValueTrainingSample Scalar))
    (padTokenId : Nat) (indices : List Nat) (present : ∀ index ∈ indices, index < samples.length) :
    Row samples padTokenId indices (materializeSamples indices samples padTokenId) := by
  cases indices with
  | nil => exact .dummy _ ⟨rfl, rfl, rfl, rfl, rfl⟩ rfl
  | cons index rest => exact .placed _ _ (List.cons_ne_nil _ _) present ⟨rfl, rfl, rfl, rfl, rfl⟩ rfl

/-- The tokens of a bin are those of its samples. -/
theorem bin_load_eq (samples : List (ValueTrainingSample Scalar)) (indices : List Nat)
    (present : ∀ index ∈ indices, index < samples.length) :
    binLoad (samples.map (fun sample => sample.tokenIds.length)) indices =
      ((placedSamples samples indices).flatMap ValueTrainingSample.tokenIds).length := by
  induction indices with
  | nil => rfl
  | cons index rest inductionHypothesis =>
    obtain ⟨here, later⟩ := List.forall_mem_cons.mp present
    have tail := inductionHypothesis later
    have first : (samples.map (fun sample => sample.tokenIds.length)).getD index 0 =
        samples[index].tokenIds.length := by
      rw [List.getD_eq_getElem _ _ (by rwa [List.length_map]), List.getElem_map]
    simp only [binLoad, placedSamples, List.map_cons, List.sum_cons, first,
      List.filterMap_cons, List.getElem?_eq_getElem here, List.flatMap_cons,
      List.length_append] at tail ⊢
    exact congrArg _ tail

section
variable [Zero Scalar] (samples : List (ValueTrainingSample Scalar)) (padTokenId : Nat)

/-- A row has the tokens of its bin, and a dummy row has one. -/
theorem row_tokens {indices : List Nat} (present : ∀ index ∈ indices, index < samples.length) :
    (materializeSamples indices samples padTokenId).inputIds.length =
      if indices = [] then 1
      else binLoad (samples.map (fun sample => sample.tokenIds.length)) indices := by
  cases indices with
  | nil => rfl
  | cons index rest => exact (bin_load_eq samples _ present).symm

/-- The masked tokens of a row are those of its samples. -/
theorem row_trainable (indices : List Nat) :
    (materializeSamples indices samples padTokenId).mask.count true =
      ((placedSamples samples indices).map (fun sample => sample.mask.count true)).sum := by
  cases indices with
  | nil => rfl
  | cons index rest =>
    exact List.count_flatMap

/-- The ranks together count the masked tokens of all samples. -/
theorem rows_trainable {bins : List (List (List Nat))}
    (once : bins.flatten.flatten.Perm (List.range samples.length)) :
    ((bins.map (fun rank => rank.map (fun indices =>
        materializeSamples indices samples padTokenId))).map ValueTrainerRuntime.localScale).sum =
      (samples.map (fun sample => sample.mask.count true)).sum := by
  have rows : (bins.map (fun rank => rank.map (fun indices =>
      materializeSamples indices samples padTokenId))).map ValueTrainerRuntime.localScale =
      (bins.map (fun rank => rank.map (fun indices =>
        ((placedSamples samples indices).map (fun sample => sample.mask.count true)).sum))).map
          List.sum := by
    simp only [List.map_map, ValueTrainerRuntime.localScale, Function.comp_def, row_trainable]
  have perSample := (placed_perm once).map (fun sample => sample.mask.count true)
  rw [rows, ← List.sum_flatten, ← List.map_flatten, ← perSample.sum_eq, List.map_flatMap,
    List.flatMap_def, List.sum_flatten, List.map_map]
  rfl

theorem label_real (indices : List Nat) :
    (materializeSamples indices samples padTokenId).sampleIndices ≠ [-1] ↔ indices ≠ [] := by
  cases indices with
  | nil => exact ⟨fun real => absurd rfl real, fun real => absurd rfl real⟩
  | cons index rest =>
    refine ⟨fun _ => List.cons_ne_nil _ _, fun _ dummy => ?_⟩
    have first : Int.ofNat index = -1 := (List.cons.inj dummy).1
    have nonnegative : (0 : Int) ≤ Int.ofNat index := Int.natCast_nonneg _
    rw [first] at nonnegative
    exact absurd nonnegative (by decide)

/-- Any two rows of packed bins together exceed the row length, in whichever order the ranks
hold them. -/
theorem rows_full {seqLen dummies : Nat} {bins : List (List Nat)}
    (lengths : ∀ length ∈ samples.map (fun sample => sample.tokenIds.length), length ≤ seqLen)
    (present : ∀ indices ∈ bins, ∀ index ∈ indices, index < samples.length)
    (dealt : bins.Perm (packBins (samples.map (fun sample => sample.tokenIds.length)) seqLen true ++
      List.replicate dummies [])) :
    ((bins.map (fun indices => materializeSamples indices samples padTokenId)).filter
        (fun row => decide (row.sampleIndices ≠ [-1]))).Pairwise
      (fun row other => seqLen < row.inputIds.length + other.inputIds.length) := by
  have packed := (pack_bins_full _ seqLen lengths).filter (fun indices => decide (indices ≠ []))
  have noDummies : (List.replicate dummies ([] : List Nat)).filter
      (fun indices => decide (indices ≠ [])) = [] := by simp
  have filtered := dealt.filter (fun indices => decide (indices ≠ []))
  rw [List.filter_append, noDummies, List.append_nil] at filtered
  have pairs := (filtered.pairwise_iff (fun {bin other} full => by rwa [Nat.add_comm])).mpr packed
  have sameRows : bins.filter ((fun row : ValueMicroBatch Scalar =>
      decide (row.sampleIndices ≠ [-1])) ∘ fun indices =>
        materializeSamples indices samples padTokenId) =
      bins.filter (fun indices => decide (indices ≠ [])) :=
    List.filter_congr (fun indices _ => decide_eq_decide.mpr (label_real samples padTokenId indices))
  rw [List.filter_map, List.pairwise_map, sameRows]
  refine pairs.imp_of_mem (fun {bin other} isBin isOther full => ?_)
  obtain ⟨inBins, binReal⟩ := List.mem_filter.mp isBin
  obtain ⟨otherInBins, otherReal⟩ := List.mem_filter.mp isOther
  rw [row_tokens samples padTokenId (present bin inBins),
    row_tokens samples padTokenId (present other otherInBins),
    if_neg (of_decide_eq_true binReal), if_neg (of_decide_eq_true otherReal)]
  exact full

end

section
variable [Zero Scalar] {samples : List (ValueTrainingSample Scalar)} {seqLen worldSize : Nat}
  (filled : samples ≠ []) (positive : 1 ≤ worldSize)
  (aligned : ∀ sample ∈ samples, Aligned sample)
  (bounded : ∀ sample ∈ samples, 1 ≤ sample.tokenIds.length ∧ sample.tokenIds.length ≤ seqLen)
include filled positive aligned bounded

/-- Aligned samples of admitted lengths are packed, and the grid is materialized from bins
that hold every index once. -/
theorem packed_grid (padTokenId : Nat) (packSequences : Bool) :
    ∃ bins : List (List (List Nat)),
      packValueSamples samples seqLen worldSize padTokenId packSequences =
        .ok (bins.map (fun rank => rank.map (fun indices =>
          materializeSamples indices samples padTokenId))) ∧
      bins.length = worldSize ∧ (∃ rounds, ∀ rank ∈ bins, rank.length = rounds) ∧
      (∃ dummies, bins.flatten.Perm
        (packBins (samples.map (fun sample => sample.tokenIds.length)) seqLen packSequences ++
          List.replicate dummies [])) ∧
      bins.flatten.flatten.Perm (List.range samples.length) := by
  have lengths : ∀ length ∈ samples.map (fun sample => sample.tokenIds.length),
      1 ≤ length ∧ length ≤ seqLen := by
    intro length member
    obtain ⟨sample, listed, rfl⟩ := List.mem_map.mp member
    exact bounded sample listed
  have nonempty : samples.map (fun sample => sample.tokenIds.length) ≠ [] := by simpa using filled
  obtain ⟨bins, dummies, packed, width, dealt⟩ :=
    pack_indices_cases _ seqLen worldSize packSequences nonempty positive lengths
  have noMisaligned : samples.any (fun sample =>
      decide (sample.mask.length ≠ sample.tokenIds.length) ||
        decide (sample.targets.length ≠ sample.tokenIds.length)) = false := by
    rw [List.any_eq_false]
    intro sample listed
    obtain ⟨masked, targeted⟩ := aligned sample listed
    simp [masked, targeted]
  have once := pack_bins_perm (samples.map (fun sample => sample.tokenIds.length)) seqLen
    packSequences (fun length member => (lengths length member).2)
  rw [List.length_map] at once
  have flattened := dealt.flatten
  rw [List.flatten_append, List.flatten_replicate_nil, List.append_nil] at flattened
  refine ⟨bins, ?_, width, pack_indices_even nonempty positive lengths packed, ⟨dummies, dealt⟩,
    flattened.trans once⟩
  rw [packValueSamples, noMisaligned, packed]
  rfl

/-- Packing makes a packed batch. -/
theorem pack_value_samples_packed (padTokenId : Nat) (packSequences : Bool) :
    ∃ grid, packValueSamples samples seqLen worldSize padTokenId packSequences = .ok grid ∧
      PackedBatch samples seqLen worldSize padTokenId packSequences grid := by
  obtain ⟨bins, packed, width, even, ⟨dummies, dealt⟩, once⟩ :=
    packed_grid filled positive aligned bounded padTokenId packSequences
  have lengths : ∀ length ∈ samples.map (fun sample => sample.tokenIds.length),
      length ≤ seqLen := by
    intro length member
    obtain ⟨sample, listed, rfl⟩ := List.mem_map.mp member
    exact (bounded sample listed).2
  have present : ∀ rank ∈ bins, ∀ indices ∈ rank, ∀ index ∈ indices, index < samples.length := by
    intro rank isRank indices isBin index member
    exact List.mem_range.mp (once.mem_iff.mp (List.mem_flatten.mpr
      ⟨indices, List.mem_flatten.mpr ⟨rank, isRank, isBin⟩, member⟩))
  refine ⟨_, packed, ?_, ?_, ⟨bins, ?_, once⟩, ?_, ?_, ?_⟩
  · rw [List.length_map, width]
  · obtain ⟨rounds, each⟩ := even
    refine ⟨rounds, fun row isRow => ?_⟩
    obtain ⟨rank, isRank, rfl⟩ := List.mem_map.mp isRow
    rw [List.length_map, each rank isRank]
  · rw [List.forall₂_map_right_iff]
    apply List.forall₂_same.mpr
    intro rank isRank
    rw [List.forall₂_map_right_iff]
    apply List.forall₂_same.mpr
    intro indices isBin
    exact materialize_row samples padTokenId indices (present rank isRank indices isBin)
  · intro rows isRows row isRow
    obtain ⟨rank, isRank, rfl⟩ := List.mem_map.mp isRows
    obtain ⟨indices, isBin, rfl⟩ := List.mem_map.mp isRow
    rw [row_tokens samples padTokenId (present rank isRank indices isBin)]
    split
    · obtain ⟨sample, rest, rfl⟩ := List.exists_cons_of_ne_nil filled
      obtain ⟨least, most⟩ := bounded sample List.mem_cons_self
      exact least.trans most
    · rename_i real
      have inBins := dealt.mem_iff.mp (List.mem_flatten.mpr ⟨rank, isRank, isBin⟩)
      rcases List.mem_append.mp inBins with packed | dummy
      · exact pack_bins_short _ seqLen packSequences lengths indices packed
      · exact absurd (List.eq_of_mem_replicate dummy) real
  · exact rows_trainable samples padTokenId once
  · intro packs
    subst packs
    have binPresent : ∀ indices ∈ bins.flatten, ∀ index ∈ indices, index < samples.length := by
      intro indices isBin
      obtain ⟨rank, isRank, inRank⟩ := List.mem_flatten.mp isBin
      exact present rank isRank indices inRank
    rw [← List.map_flatten]
    exact rows_full samples padTokenId lengths binPresent dealt

end

end PrimeRl.Value.Batch
