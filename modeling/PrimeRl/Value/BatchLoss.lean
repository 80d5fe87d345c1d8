import PrimeRl.Value.PackedBatch

/-!
# The loss of a training batch

An update predicts the logits of every row, aligns them, and adds up the rows' losses,
each divided by the masked tokens of all ranks. When the model keeps the sequences of a
row apart, the sum is the mean loss of the masked tokens, whatever rows the samples are in.
-/

namespace PrimeRl.Value.Batch

open PrimeRl.Utils.Sequence PrimeRl.Value.Math PrimeRl.Value.Inference

universe u v w
variable {Scalar : Type u} [Field Scalar] [LinearOrder Scalar] [FloorRing Scalar]
  (exponential logarithm : Scalar → Scalar) (config : ValueLossConfig Scalar)

/-- The loss of a row in an update. There is none where the alignment or the loss raises. -/
def rowLoss (model : ValueModel Scalar (valueHeadOutputSize config)) (scale : Nat)
    (metadata : Option PackedSequenceMetadata) (row : ValueMicroBatch Scalar) : Option Scalar :=
  (alignValueLogits (model.forward row.inputIds row.positionIds metadata)
    row.sequenceLengths).toOption.bind fun logits =>
      (computeValueLoss exponential logarithm config logits row.targets row.mask
        scale).toOption.map Prod.fst

section
variable (alone : List Nat → List (Fin (valueHeadOutputSize config) → Scalar))

/-- The masked tokens of a sample, with their logits and targets. -/
def sampleTokens (sample : ValueTrainingSample Scalar) :
    List ((Fin (valueHeadOutputSize config) → Scalar) × Scalar) :=
  select sample.mask ((alignSequence (fun _ => 0) (alone sample.tokenIds)).zip sample.targets)

/-- The mean loss of the masked tokens of all samples, each evaluated alone. -/
def meanLoss (samples : List (ValueTrainingSample Scalar)) : Option Scalar :=
  let tokens := samples.flatMap (sampleTokens config alone)
  (PartialSum.total (tokenLoss exponential logarithm config) tokens).map
    (· / ((max tokens.length 1 : Nat) : Scalar))

omit [LinearOrder Scalar] [FloorRing Scalar] in
theorem align_sequence_length (states : List (Fin (valueHeadOutputSize config) → Scalar)) :
    (alignSequence (fun _ => (0 : Fin (valueHeadOutputSize config) → Scalar)) states).length =
      states.length := by
  cases states with
  | nil => rfl
  | cons first tail => simp [alignSequence]

omit [Field Scalar] [LinearOrder Scalar] [FloorRing Scalar] in
theorem length_parts {Part : Type u} {First : Type v} {Second : Type w} {parts : List Part} {first : Part → List First}
    {second : Part → List Second}
    (aligned : ∀ part ∈ parts, (first part).length = (second part).length) :
    (parts.flatMap first).length = (parts.flatMap second).length := by
  rw [List.length_flatMap, List.length_flatMap, List.map_congr_left aligned]

omit [Field Scalar] [LinearOrder Scalar] [FloorRing Scalar] in
theorem zip_parts {Part First Second : Type u} (parts : List Part) (first : Part → List First)
    (second : Part → List Second)
    (aligned : ∀ part ∈ parts, (first part).length = (second part).length) :
    (parts.flatMap first).zip (parts.flatMap second) =
      parts.flatMap (fun part => (first part).zip (second part)) := by
  induction parts with
  | nil => rfl
  | cons part rest inductionHypothesis =>
    obtain ⟨here, later⟩ := List.forall_mem_cons.mp aligned
    simp only [List.flatMap_cons]
    rw [List.zip_append here, inductionHypothesis later]

end

section
variable {model : ValueModel Scalar (valueHeadOutputSize config)} {packSequences : Bool}
  {alone : List Nat → List (Fin (valueHeadOutputSize config) → Scalar)}
  (isolated : SequenceLocal model packSequences alone)
include isolated

omit [LinearOrder Scalar] [FloorRing Scalar] in
/-- The aligned logits of a row are those of its samples alone. -/
theorem row_logits {placed : List (ValueTrainingSample Scalar)} {row : ValueMicroBatch Scalar}
    (streams : Concatenates placed row)
    (nonempty : ∀ sample ∈ placed, sample.tokenIds ≠ [])
    (shape : packSequences = true ∨ placed.length = 1) {metadata : Option PackedSequenceMetadata}
    (described : ∀ prepared, metadata = some prepared → prepared.lengths = row.sequenceLengths) :
    alignValueLogits (model.forward row.inputIds row.positionIds metadata) row.sequenceLengths =
      .ok (placed.flatMap (fun sample => alignSequence (fun _ => 0) (alone sample.tokenIds))) := by
  obtain ⟨sameLength, rowLocal⟩ := isolated
  have logits := rowLocal (placed.map ValueTrainingSample.tokenIds) metadata
    (fun sequence member => by
      obtain ⟨sample, listed, rfl⟩ := List.mem_map.mp member
      exact nonempty sample listed)
    (shape.imp_right (fun single => by rwa [List.length_map]))
    (fun prepared isPrepared => by
      rw [described prepared isPrepared, streams.sequenceLengths, List.map_map]
      rfl)
  rw [List.flatMap_map, List.flatMap_map, ← List.flatMap_def] at logits
  have aligned := align_sequences (placed.map (fun sample => alone sample.tokenIds))
    (fun states member => by
      obtain ⟨sample, listed, rfl⟩ := List.mem_map.mp member
      have tokens := List.length_pos_iff.mpr (nonempty sample listed)
      rw [← sameLength] at tokens
      exact List.length_pos_iff.mp tokens)
  have lengths : (placed.map (fun sample => alone sample.tokenIds)).map List.length =
      placed.map (fun sample => sample.tokenIds.length) := by
    rw [List.map_map]
    exact List.map_congr_left (fun sample _ => sameLength sample.tokenIds)
  rw [lengths, ← List.flatMap_def, List.flatMap_map] at aligned
  rw [streams.inputIds, streams.positionIds, streams.sequenceLengths, logits]
  exact aligned

/-- The loss of a row is that of its samples' masked tokens. -/
theorem row_loss_eq {placed : List (ValueTrainingSample Scalar)} {row : ValueMicroBatch Scalar}
    (streams : Concatenates placed row) (nonempty : ∀ sample ∈ placed, sample.tokenIds ≠ [])
    (aligned : ∀ sample ∈ placed, Aligned sample)
    (shape : packSequences = true ∨ placed.length = 1) {metadata : Option PackedSequenceMetadata}
    (described : ∀ prepared, metadata = some prepared → prepared.lengths = row.sequenceLengths)
    (scale : Nat) :
    rowLoss exponential logarithm config model scale metadata row =
      (PartialSum.total (tokenLoss exponential logarithm config)
        (placed.flatMap (sampleTokens config alone))).map (· / ((max scale 1 : Nat) : Scalar)) := by
  have logits := row_logits config isolated streams nonempty shape described
  have sameLength : ∀ sample ∈ placed,
      (alignSequence (fun _ => (0 : Fin (valueHeadOutputSize config) → Scalar))
        (alone sample.tokenIds)).length = sample.targets.length := by
    intro sample member
    rw [align_sequence_length, isolated.1, (aligned sample member).2]
  have masked : ∀ sample ∈ placed, sample.mask.length =
      ((alignSequence (fun _ => (0 : Fin (valueHeadOutputSize config) → Scalar))
        (alone sample.tokenIds)).zip sample.targets).length := by
    intro sample member
    rw [List.length_zip, sameLength sample member, Nat.min_self, (aligned sample member).1,
      (aligned sample member).2]
  rw [rowLoss, logits]
  refine (value_loss_total exponential logarithm config _ _ _ scale ?_ ?_).trans ?_
  · rw [streams.mask, length_parts masked]
    exact length_parts (fun sample member => by
      rw [List.length_zip, sameLength sample member, Nat.min_self])
  · rw [streams.targets]
    exact length_parts sameLength
  · rw [streams.mask, streams.targets, zip_parts placed _ _ sameLength,
      select_parts placed _ _ masked]
    rfl

omit [LinearOrder Scalar] [FloorRing Scalar] in
/-- The masked tokens of a sample are as many as its mask has. -/
theorem sample_tokens_length {sample : ValueTrainingSample Scalar} (aligned : Aligned sample) :
    (sampleTokens config alone sample).length = sample.mask.count true := by
  apply select_length
  rw [List.length_zip, align_sequence_length, isolated.1, aligned.1, aligned.2, Nat.min_self]

/-- The loss of a materialized bin is that of its samples; a dummy row adds nothing. -/
theorem bin_loss_eq {samples : List (ValueTrainingSample Scalar)} {indices : List Nat}
    (padTokenId : Nat) (present : ∀ index ∈ indices, index < samples.length)
    (nonempty : ∀ sample ∈ samples, sample.tokenIds ≠ [])
    (aligned : ∀ sample ∈ samples, Aligned sample)
    (shape : packSequences = true ∨ indices.length ≤ 1) {metadata : Option PackedSequenceMetadata}
    (described : ∀ prepared, metadata = some prepared →
      prepared.lengths = (materializeSamples indices samples padTokenId).sequenceLengths)
    (scale : Nat) :
    rowLoss exponential logarithm config model scale metadata
        (materializeSamples indices samples padTokenId) =
      (PartialSum.total (tokenLoss exponential logarithm config)
        ((placedSamples samples indices).flatMap (sampleTokens config alone))).map
          (· / ((max scale 1 : Nat) : Scalar)) := by
  have row := materialize_row samples padTokenId indices present
  generalize materializeSamples indices samples padTokenId = row' at row described ⊢
  cases row with
  | dummy _ isDummy labelled =>
    refine (row_loss_eq exponential logarithm config isolated isDummy
      (List.forall_mem_singleton.mpr (List.cons_ne_nil _ _))
      (List.forall_mem_singleton.mpr ⟨rfl, rfl⟩) (Or.inr rfl) described scale).trans ?_
    have unmasked : sampleTokens config alone (dummySample padTokenId) = [] :=
      select_none (by simp [dummySample]) _
    rw [List.flatMap_singleton, unmasked]
    rfl
  | placed _ _ real _ streams labelled =>
    have listed : ∀ sample ∈ placedSamples samples indices, sample ∈ samples := by
      intro sample member
      obtain ⟨index, -, isSample⟩ := List.mem_filterMap.mp member
      exact List.mem_of_getElem? isSample
    refine row_loss_eq exponential logarithm config isolated streams
      (fun sample member => nonempty sample (listed sample member))
      (fun sample member => aligned sample (listed sample member)) ?_ described scale
    rcases shape with packs | few
    · exact Or.inl packs
    · right
      obtain ⟨index, rest, rfl⟩ := List.exists_cons_of_ne_nil real
      obtain rfl := List.length_eq_zero_iff.mp (Nat.le_zero.mp (Nat.le_of_succ_le_succ few))
      have here := present index List.mem_cons_self
      rw [placedSamples, List.filterMap_cons_some (List.getElem?_eq_getElem here)]
      rfl

/-- Bins that hold every index once have the mean loss of the samples. -/
theorem bins_loss_eq {samples : List (ValueTrainingSample Scalar)} {bins : List (List Nat)}
    (padTokenId : Nat) (once : bins.flatten.Perm (List.range samples.length))
    (nonempty : ∀ sample ∈ samples, sample.tokenIds ≠ [])
    (aligned : ∀ sample ∈ samples, Aligned sample)
    (shape : ∀ indices ∈ bins, packSequences = true ∨ indices.length ≤ 1)
    {metadata : ValueMicroBatch Scalar → Option PackedSequenceMetadata}
    (described : ∀ row prepared, metadata row = some prepared →
      prepared.lengths = row.sequenceLengths) :
    PartialSum.total (fun row => rowLoss exponential logarithm config model
        (samples.map (fun sample => sample.mask.count true)).sum (metadata row) row)
        (bins.map (fun indices => materializeSamples indices samples padTokenId)) =
      meanLoss exponential logarithm config alone samples := by
  have present : ∀ indices ∈ bins, ∀ index ∈ indices, index < samples.length :=
    fun indices isBin index member =>
      List.mem_range.mp (once.mem_iff.mp (List.mem_flatten.mpr ⟨indices, isBin, member⟩))
  have perSample := (placed_perm once).flatMap_right (sampleTokens config alone)
  have count : (samples.flatMap (sampleTokens config alone)).length =
      (samples.map (fun sample => sample.mask.count true)).sum := by
    rw [List.length_flatMap]
    exact congrArg List.sum (List.map_congr_left (fun sample member =>
      sample_tokens_length config isolated (aligned sample member)))
  -- Division by the scale keeps sums, so it can be done once.
  have scaled := PartialSum.total_hom (AddMonoidHom.mulRight
      (((max (samples.map (fun sample => sample.mask.count true)).sum 1 : Nat) : Scalar))⁻¹)
    (fun indices => PartialSum.total (tokenLoss exponential logarithm config)
      ((placedSamples samples indices).flatMap (sampleTokens config alone))) bins
  have regrouped : PartialSum.total (fun indices =>
      PartialSum.total (tokenLoss exponential logarithm config)
        ((placedSamples samples indices).flatMap (sampleTokens config alone))) bins =
      PartialSum.total (tokenLoss exponential logarithm config)
        (samples.flatMap (sampleTokens config alone)) := by
    rw [← PartialSum.total_perm _ perSample, List.flatMap_assoc, List.flatMap_def,
      PartialSum.total_flatten, PartialSum.total_map]
    rfl
  rw [regrouped] at scaled
  rw [PartialSum.total_map, meanLoss, count]
  refine Eq.trans (PartialSum.total_congr fun indices isBin => ?_)
    (scaled.trans (congrArg (Option.map · _) ?_))
  · refine (bin_loss_eq exponential logarithm config isolated padTokenId (present indices isBin)
      nonempty aligned (shape indices isBin) (described _) _).trans (congrArg (Option.map · _) ?_)
    funext loss
    exact div_eq_mul_inv _ _
  · funext loss
    exact (div_eq_mul_inv _ _).symm

end

/-- For aligned samples of admitted lengths packing gives every rank equally many rows that
hold every sample once, and the losses of all rows sum to the mean loss of the samples'
masked tokens. -/
theorem value_packing_conserves (samples : List (ValueTrainingSample Scalar))
    (seqLen worldSize padTokenId : Nat) (packSequences : Bool) (filled : samples ≠ [])
    (positive : 1 ≤ worldSize) (aligned : ∀ sample ∈ samples, Aligned sample)
    (bounded : ∀ sample ∈ samples, 1 ≤ sample.tokenIds.length ∧ sample.tokenIds.length ≤ seqLen) :
    ∃ grid, packValueSamples samples seqLen worldSize padTokenId packSequences = .ok grid ∧
      PackedBatch samples seqLen worldSize padTokenId packSequences grid ∧
      ∀ (exponential logarithm : Scalar → Scalar) (config : ValueLossConfig Scalar)
        (model : ValueModel Scalar (valueHeadOutputSize config))
        (alone : List Nat → List (Fin (valueHeadOutputSize config) → Scalar)),
        SequenceLocal model packSequences alone →
        ∀ metadata : ValueMicroBatch Scalar → Option PackedSequenceMetadata,
          (∀ row prepared, metadata row = some prepared →
            prepared.lengths = row.sequenceLengths) →
          PartialSum.total (PartialSum.total (fun row => rowLoss exponential logarithm config model
              (grid.map ValueTrainerRuntime.localScale).sum (metadata row) row)) grid =
            meanLoss exponential logarithm config alone samples := by
  obtain ⟨grid, packed, batch⟩ :=
    pack_value_samples_packed filled positive aligned bounded padTokenId packSequences
  obtain ⟨bins, packedBins, -, -, ⟨dummies, dealt⟩, once⟩ :=
    packed_grid filled positive aligned bounded padTokenId packSequences
  obtain rfl := Except.ok.inj (packed.symm.trans packedBins)
  refine ⟨_, packed, batch, ?_⟩
  intro exponential logarithm config model alone isolated metadata described
  rw [← PartialSum.total_flatten, ← List.map_flatten, batch.trainable]
  apply bins_loss_eq exponential logarithm config isolated padTokenId once
    (fun sample member => List.length_pos_iff.mp (bounded sample member).1) aligned ?_ described
  intro indices isBin
  cases packSequences with
  | true => exact Or.inl rfl
  | false =>
    rcases List.mem_append.mp (dealt.mem_iff.mp isBin) with single | dummy
    · exact Or.inr (unpacked_singletons _ seqLen indices single).le
    · rw [List.eq_of_mem_replicate dummy]
      exact Or.inr (Nat.zero_le 1)

/-- Three samples for two ranks, of which two share a row, under squared error. -/
def threeSamples : List (ValueTrainingSample Rat) :=
  [⟨[1, 2, 3], [false, true, true], [0, 1, 2]⟩, ⟨[4, 5], [true, true], [5, 6]⟩, ⟨[6], [false], [0]⟩]

theorem value_packing_conserves_three_samples :
    ∃ grid, packValueSamples threeSamples 4 2 0 true = .ok grid ∧
      PackedBatch threeSamples 4 2 0 true grid ∧
      PartialSum.total (PartialSum.total (fun row => rowLoss id id .mse tokenwise
          (grid.map ValueTrainerRuntime.localScale).sum none row)) grid =
        meanLoss id id .mse tokenLogits threeSamples := by
  obtain ⟨grid, packed, batch, loss⟩ := value_packing_conserves threeSamples 4 2 0 true (by decide)
    (by decide) (by decide) (by decide)
  exact ⟨grid, packed, batch, loss id id .mse tokenwise tokenLogits (tokenwise_local true)
    (fun _ => none) (fun _ _ isSome => nomatch isSome)⟩

end PrimeRl.Value.Batch
