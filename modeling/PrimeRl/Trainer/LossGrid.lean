import PrimeRl.Trainer.GridOrigins
import PrimeRl.Trainer.LossRows

/-!
# The loss does not depend on packing

The loss over a grid is the sum of the losses of its segments over the counts of
its segments. Segments of padding and of dummies have neither, and the other
segments are the prepared samples, each once. So every accepted grid has the
loss of the samples in rows of their own on one worker.
-/

namespace PrimeRl.Trainer.Loss

open PrimeRl.Transport PrimeRl.Trainer.Batch

variable {Scalar : Type}

/-- The samples in rows of their own, on one worker. -/
def aloneGrid [Zero Scalar] [One Scalar] [DecidableEq Scalar] (numpy : Numpy)
    (seqLen numLoras : Nat) (pairs : List (Nat × TrainingSample Scalar)) :
    Except String (List (List (MicroBatch Scalar))) := do
  let samples ← prepareSamples numpy seqLen pairs
  let rows ← materializeBins numLoras (samples.map MicroBatchBin.fromSample)
  .ok [rows]

/-- The first token of a sample has no weight in any component. -/
structure FirstUnweighted [Zero Scalar] (sample : TrainingSample Scalar) : Prop where
  masked : sample.mask.getD 0 false = false
  ceWeights : ∀ weights, sample.ceWeights = some weights → weights.getD 0 0 = 0
  refKlWeights : ∀ weights, sample.refKlWeights = some weights → weights.getD 0 0 = 0

/-! ## Segments that are read alike -/

section Reading
variable [Zero Scalar] [One Scalar]

omit [Zero Scalar] [One Scalar] in
theorem filled_getD (column : List (Option Scalar)) (fill : Scalar) (position : Nat) :
    ((column.map (fun weight => some (weight.getD fill))).getD position none).getD fill =
      (column.getD position none).getD fill := by
  rw [List.getD_eq_getElem?_getD, List.getD_eq_getElem?_getD, List.getElem?_map]
  cases column[position]? <;> rfl

theorem unweighted_read (segment : Segment Scalar) :
    Unweighted segment.read ↔ Unweighted segment := by
  constructor
  · rintro ⟨masked, ce, refKl⟩
    exact ⟨masked, (filled_getD _ 0 0).symm.trans ce, (filled_getD _ 0 0).symm.trans refKl⟩
  · rintro ⟨masked, ce, refKl⟩
    exact ⟨masked, (filled_getD _ 0 0).trans ce, (filled_getD _ 0 0).trans refKl⟩

omit [One Scalar] in
/-- A column of zeros and absent weights is zero everywhere. -/
theorem silent_column (column : List (Option Scalar))
    (silent : ∀ weight ∈ column, weight = none ∨ weight = some 0) (position : Nat) :
    (column.getD position none).getD 0 = 0 := by
  rw [List.getD_eq_getElem?_getD]
  cases found : column[position]? with
  | none => rfl
  | some weight =>
    rcases silent weight (List.mem_of_getElem? found) with rfl | rfl <;> rfl

omit [One Scalar] in
theorem silent_mask (mask : List Bool) (masked : ∀ trained ∈ mask, trained = false)
    (position : Nat) : mask.getD position false = false := by
  rw [List.getD_eq_getElem?_getD]
  cases found : mask[position]? with
  | none => rfl
  | some trained => exact masked trained (List.mem_of_getElem? found)

omit [One Scalar] in
theorem inert_unweighted (segment : Segment Scalar) (inert : segment.Inert) :
    Unweighted segment where
  masked := silent_mask _ inert.masked 0
  ceWeights := silent_column _ inert.ceWeights 0
  refKlWeights := silent_column _ inert.refKlWeights 0

end Reading

section Losses
variable [Field Scalar] [LinearOrder Scalar]

/-- The losses of a segment do not depend on which identities are filled in. -/
theorem segment_losses_read (objective : Objective Scalar) (segment : Segment Scalar) :
    segmentLosses objective segment.read = segmentLosses objective segment := by
  have same (logprob : Scalar) (position : Nat) :
      positionLosses objective segment.read logprob position =
        positionLosses objective segment logprob position := by
    simp only [positionLosses, Segment.read, filled_getD]
  rw [segmentLosses, segmentLosses]
  congr 1
  apply List.map_congr_left
  intro position _
  rw [same]
  cases position <;> rfl

theorem inert_losses (objective : Objective Scalar) (segment : Segment Scalar)
    (inert : segment.Inert) : segmentLosses objective segment = 0 := by
  apply List.sum_eq_zero
  intro losses member
  obtain ⟨position, -, rfl⟩ := List.mem_map.mp member
  rw [positionLosses, tokenLosses, silent_mask _ inert.masked, silent_column _ inert.ceWeights,
    silent_column _ inert.refKlWeights, if_neg Bool.false_ne_true, mul_zero, mul_zero]
  rfl

omit [LinearOrder Scalar] in
theorem scale_losses_add (scales : Nat × Nat × Nat) (first second : Scalar × Scalar × Scalar) :
    scaleLosses scales (first + second) = scaleLosses scales first + scaleLosses scales second := by
  simp only [scaleLosses, Prod.fst_add, Prod.snd_add, add_div]
  rw [add_add_add_comm (first.1 / (scales.1 : Scalar)), add_add_add_comm]

/-- The loss of rows is that of their segments. -/
theorem sum_losses_segments (objective : Objective Scalar) (scales : Nat × Nat × Nat)
    (rows : List (MicroBatch Scalar)) (cuts : ∀ row ∈ rows, Cuts row)
    (unweighted : ∀ row ∈ rows, ∀ segment ∈ segments row, Unweighted segment)
    (referenced : ∀ row ∈ rows, Referenced row.refLogprobs row.refKlWeights) :
    sumLosses objective scales rows =
      .ok (scaleLosses scales ((rows.flatMap segments).map (segmentLosses objective)).sum) := by
  induction rows with
  | nil =>
    have nothing : scaleLosses scales (0 : Scalar × Scalar × Scalar) = 0 := by
      simp only [scaleLosses, Prod.fst_zero, Prod.snd_zero, zero_div, add_zero]
    rw [List.flatMap_nil, List.map_nil, List.sum_nil, nothing]
    rfl
  | cons row rest inductionHypothesis =>
    have own := micro_batch_losses objective scales row (cuts row List.mem_cons_self)
      (unweighted row List.mem_cons_self) (referenced row List.mem_cons_self)
    have others := inductionHypothesis
      (fun other member => cuts other (List.mem_cons_of_mem row member))
      (fun other member => unweighted other (List.mem_cons_of_mem row member))
      (fun other member => referenced other (List.mem_cons_of_mem row member))
    rw [sumLosses, own, others, List.flatMap_cons, List.map_append, List.sum_append,
      scale_losses_add]
    rfl

end Losses

/-! ## Rows of an accepted batch -/

section Origins
variable [Zero Scalar] [One Scalar]

/-- The streams of a row are aligned, its segments have no weight at their first
tokens, and its ref_kl weights have reference log-probabilities. Routed experts
do not matter to the loss. -/
structure Readable (row : MicroBatch Scalar) : Prop where
  streams : AlignedRow { row with routedExperts := none }
  unweighted : ∀ segment ∈ segments row, Unweighted segment
  referenced : Referenced row.refLogprobs row.refKlWeights

omit [One Scalar] in
theorem readable_cuts {row : MicroBatch Scalar} (readable : Readable row) : Cuts row := by
  obtain ⟨aligned, whole⟩ := cuts_of_aligned _ readable.streams
  exact ⟨aligned, whole⟩

theorem stack_readable (first : Slotted Scalar) (samples : List (Slotted Scalar))
    (experts : Option ExpertRows) (numLoras : Nat)
    (aligned : ∀ sample ∈ samples, AlignedRow sample.2)
    (unweighted : ∀ sample ∈ samples, Unweighted (columns sample.2))
    (referenced : ∀ sample ∈ samples, Referenced sample.2.refLogprobs sample.2.refKlWeights) :
    Readable (stackSamples first samples experts numLoras) where
  streams := stack_aligned first samples none numLoras aligned nofun
  unweighted := by
    intro segment member
    have read : segment.read ∈ samples.map (fun sample => (columns sample.2).read) := by
      rw [← stack_segments first samples experts numLoras aligned]
      exact List.mem_map_of_mem member
    obtain ⟨sample, inside, same⟩ := List.mem_map.mp read
    rw [← unweighted_read, ← same, unweighted_read]
    exact unweighted sample inside
  referenced := by
    intro absent weights present weight inside
    have without := (stack_stream_none MicroBatch.refLogprobs 0 samples).mp absent
    have stacked : stackStream MicroBatch.refKlWeights 0 samples = some weights := present
    rw [stackStream] at stacked
    obtain ⟨-, same⟩ := Option.ite_none_right_eq_some.mp stacked
    obtain rfl := Option.some.inj same
    obtain ⟨sample, member, own⟩ := List.mem_flatMap.mp inside
    cases carried : sample.2.refKlWeights with
    | none =>
      rw [carried] at own
      exact List.eq_of_mem_replicate own
    | some values =>
      rw [carried] at own
      exact referenced sample member (without sample member) values carried weight own

/-- Padding keeps a row readable and adds inert segments at its end. -/
theorem pad_readable {row padded : MicroBatch Scalar} {padToMultipleOf : Nat}
    (computed : padMicroBatch row padToMultipleOf = .ok padded) (readable : Readable row) :
    Readable padded ∧ ∃ inert, (∀ segment ∈ inert, segment.Inert) ∧
      segments padded = segments row ++ inert := by
  rcases pad_micro_batch_cases computed with rfl | ⟨padding, rfl⟩
  · exact ⟨readable, [], fun segment impossible => absurd impossible List.not_mem_nil,
      (List.append_nil _).symm⟩
  · have tail : segments (appendPadding row padding) =
        segments row ++ [paddingSegment row padding] :=
      append_padding_segments { row with routedExperts := none } padding readable.streams
    have inert : ∀ segment ∈ [paddingSegment row padding], segment.Inert := by
      intro segment member
      rw [List.mem_singleton.mp member]
      exact padding_inert row padding
    refine ⟨⟨append_padding_aligned { row with routedExperts := none } padding readable.streams,
      ?_, ?_⟩, _, inert, tail⟩
    · intro segment member
      rw [tail] at member
      rcases List.mem_append.mp member with own | added
      · exact readable.unweighted segment own
      · exact inert_unweighted segment (inert segment added)
    · intro absent weights present weight inside
      obtain ⟨own, carried, rfl⟩ := Option.map_eq_some_iff.mp present
      rcases List.mem_append.mp inside with held | filled
      · exact readable.referenced (Option.map_eq_none_iff.mp absent) own carried weight held
      · exact List.eq_of_mem_replicate filled

omit [One Scalar] in
theorem dummy_readable {row : MicroBatch Scalar} (readable : Readable row) :
    Readable (makeDummyBatch row) where
  streams := dummy_aligned { row with routedExperts := none } readable.streams
  unweighted := fun segment member => inert_unweighted segment (dummy_inert row segment member)
  referenced := fun _ _ impossible => nomatch impossible

/-- What is needed of the samples of a batch to read its rows. -/
structure ReadableSample (sample : Slotted Scalar) : Prop where
  aligned : AlignedRow sample.2
  unweighted : Unweighted (columns sample.2)
  referenced : Referenced sample.2.refLogprobs sample.2.refKlWeights

/-- A materialized row is readable and lists the samples of its bin. -/
theorem materialize_readable {bin : MicroBatchBin Scalar} {numLoras : Nat} {row : MicroBatch Scalar}
    (computed : materializeBin bin numLoras = .ok row)
    (readable : ∀ sample ∈ bin.samples, ReadableSample sample) :
    Readable row ∧ (segments row).map Segment.read =
      bin.samples.map (fun sample => (columns sample.2).read) := by
  obtain ⟨first, rest, experts, -, -, rfl⟩ := materialize_bin_cases computed
  have aligned : ∀ sample ∈ bin.samples, AlignedRow sample.2 :=
    fun sample member => (readable sample member).aligned
  exact ⟨stack_readable first bin.samples experts numLoras aligned
      (fun sample member => (readable sample member).unweighted)
      (fun sample member => (readable sample member).referenced),
    stack_segments first bin.samples experts numLoras aligned⟩

/-- The rows of bins are readable and list the samples of the bins. -/
theorem materialize_all_readable {bins : List (MicroBatchBin Scalar)} {numLoras : Nat}
    {rows : List (MicroBatch Scalar)} (computed : materializeBins numLoras bins = .ok rows)
    (readable : ∀ bin ∈ bins, ∀ sample ∈ bin.samples, ReadableSample sample) :
    (∀ row ∈ rows, Readable row) ∧ (rows.flatMap segments).map Segment.read =
      (bins.flatMap MicroBatchBin.samples).map (fun sample => (columns sample.2).read) := by
  have each := (Fallible.collect_ok_iff _ bins rows).mp
    ((materialize_bins_collect numLoras bins).symm.trans computed)
  constructor
  · intro row member
    obtain ⟨bin, inside, own⟩ := materialize_bins_cases numLoras bins rows computed row member
    exact (materialize_readable own (readable bin inside)).1
  · have both := (List.forall₂_and_left bins rows).mpr ⟨readable, each⟩
    exact materialized_segments bins rows
      (both.imp (fun _ _ materialized => (materialize_readable materialized.2 materialized.1).2))

theorem pad_all_readable {rows padded : List (MicroBatch Scalar)} {padToMultipleOf : Nat}
    (computed : padMicroBatches padToMultipleOf rows = .ok padded)
    (readable : ∀ row ∈ rows, Readable row) :
    (∀ row ∈ padded, Readable row) ∧ ∃ inert : List (Segment Scalar),
      (∀ segment ∈ inert, segment.Inert) ∧
        (padded.flatMap segments).Perm (rows.flatMap segments ++ inert) := by
  have each := (Fallible.collect_ok_iff _ rows padded).mp
    ((pad_micro_batches_collect padToMultipleOf rows).symm.trans computed)
  constructor
  · intro row member
    obtain ⟨source, inside, pads⟩ := pad_micro_batches_cases padToMultipleOf rows padded computed
      row member
    exact (pad_readable pads (readable source inside)).1
  · have both := (List.forall₂_and_left rows padded).mpr ⟨readable, each⟩
    exact padded_segments rows padded (both.imp (fun _ _ pads => (pad_readable pads.2 pads.1).2))

omit [One Scalar] in
/-- An accepted sample is readable. -/
theorem prepared_readable [DecidableEq Scalar] (numpy : Numpy) (seqLen slot : Nat)
    (sample : TrainingSample Scalar) (prepared : MicroBatch Scalar)
    (accepted : prepareSample numpy sample seqLen = .ok prepared)
    (unweighted : FirstUnweighted sample)
    (referenced : Referenced sample.refLogprobs sample.refKlWeights) :
    ReadableSample (slot, prepared) := by
  obtain ⟨aligned, -, -⟩ := prepared_of_accepted numpy sample seqLen prepared accepted
  obtain ⟨advantages, cut, kept, versions, experts, rows, -, -, -, -, -, -, -, isPrepared⟩ :=
    (prepare_sample_iff numpy sample seqLen prepared).mp accepted
  rw [sampleStreams] at isPrepared
  have column (stream : Option (List Scalar)) (numTokens : Nat)
      (first : ∀ weights, stream = some weights → weights.getD 0 0 = 0) :
      ((weightColumn stream numTokens).getD 0 none).getD 0 = 0 := by
    cases stream with
    | none => exact silent_column _ (fun _ member => .inl (List.eq_of_mem_replicate member)) 0
    | some weights =>
      have zero := first weights rfl
      cases weights with
      | nil => rfl
      | cons weight rest => exact zero
  have shorter {Value : Type} (values : List Value) (fill : Value)
      (first : values.getD 0 fill = fill) : (values.take cut).getD 0 fill = fill := by
    cases cut with
    | zero => rfl
    | succ cut => rw [getD_take _ _ _ _ (Nat.succ_pos cut), first]
  have shorterStream (stream : Option (List Scalar))
      (first : ∀ weights, stream = some weights → weights.getD 0 0 = 0) :
      ∀ weights, stream.map (List.take cut) = some weights → weights.getD 0 0 = 0 := by
    intro weights taken
    obtain ⟨whole, present, rfl⟩ := Option.map_eq_some_iff.mp taken
    exact shorter whole 0 (first whole present)
  refine ⟨aligned, ?_, ?_⟩
  · rw [isPrepared]
    split
    · exact ⟨shorter sample.mask false unweighted.masked,
        column _ _ (shorterStream _ unweighted.ceWeights),
        column _ _ (shorterStream _ unweighted.refKlWeights)⟩
    · exact ⟨unweighted.masked, column _ _ unweighted.ceWeights, column _ _ unweighted.refKlWeights⟩
  · rw [isPrepared]
    split
    · intro absent weights taken weight inside
      obtain ⟨whole, present, rfl⟩ := Option.map_eq_some_iff.mp taken
      exact referenced (Option.map_eq_none_iff.mp absent) whole present weight
        (List.mem_of_mem_take inside)
    · exact referenced

end Origins

section Losses
variable [Field Scalar] [LinearOrder Scalar]

/-- The loss of samples, each by itself, over their own counts. -/
def samplesLoss (objective : Objective Scalar) (samples : List (Slotted Scalar)) : Scalar :=
  let counts := (samples.map (fun sample => (columns sample.2).lossCounts)).sum
  scaleLosses (max counts.1 1, max counts.2.1 1, max counts.2.2 1)
    (samples.map (fun sample => segmentLosses objective (columns sample.2))).sum

/-- Rows that hold the samples, each once, and inert segments have the loss of
the samples, whoever computes which row. -/
theorem grid_loss_samples (objective : Objective Scalar) (grid : List (List (MicroBatch Scalar)))
    (samples : List (Slotted Scalar)) (readable : ∀ row ∈ grid.flatten, Readable row)
    (carried inert : List (Segment Scalar))
    (every : (grid.flatten.flatMap segments).Perm (carried ++ inert))
    (same : (carried.map Segment.read).Perm (samples.map (fun sample => (columns sample.2).read)))
    (allInert : ∀ segment ∈ inert, segment.Inert) :
    gridLoss objective grid = .ok (samplesLoss objective samples) := by
  have cuts : ∀ row ∈ grid.flatten, Cuts row := fun row member => readable_cuts (readable row member)
  -- a value of segments that reading keeps and inert segments lack is that of the samples
  have total {Value : Type} [AddCommMonoid Value] (value : Segment Scalar → Value)
      (read : ∀ segment, value segment.read = value segment)
      (silent : ∀ segment : Segment Scalar, segment.Inert → value segment = 0) :
      ((grid.flatten.flatMap segments).map value).sum =
        (samples.map (fun sample => value (columns sample.2))).sum := by
    have nothing : (inert.map value).sum = 0 := by
      apply List.sum_eq_zero
      intro result member
      obtain ⟨segment, inside, rfl⟩ := List.mem_map.mp member
      exact silent segment (allInert segment inside)
    have reread (listed : List (Segment Scalar)) :
        ((listed.map Segment.read).map value) = listed.map value := by
      rw [List.map_map]
      exact List.map_congr_left (fun segment _ => read segment)
    calc ((grid.flatten.flatMap segments).map value).sum
        = ((carried ++ inert).map value).sum := (every.map value).sum_eq
      _ = (carried.map value).sum := by rw [List.map_append, List.sum_append, nothing, add_zero]
      _ = ((carried.map Segment.read).map value).sum := by rw [reread]
      _ = ((samples.map (fun sample => (columns sample.2).read)).map value).sum :=
        (same.map value).sum_eq
      _ = (samples.map (fun sample => value (columns sample.2))).sum := by
        rw [List.map_map]
        exact congrArg List.sum (List.map_congr_left (fun sample _ => read (columns sample.2)))
  have counts : (grid.map countLossTokens).sum =
      (samples.map (fun sample => (columns sample.2).lossCounts)).sum := by
    have flattened : (grid.map countLossTokens).sum = countLossTokens grid.flatten := by
      rw [countLossTokens, List.map_flatten, List.sum_flatten, List.map_map]
      rfl
    rw [flattened, count_loss_tokens_segments grid.flatten cuts]
    exact total Segment.lossCounts Segment.read_lossCounts Segment.inert_lossCounts
  have losses := total (segmentLosses objective) (segment_losses_read objective)
    (inert_losses objective)
  rw [gridLoss, sum_losses_segments objective _ _ cuts
    (fun row member => (readable row member).unweighted)
    (fun row member => (readable row member).referenced), losses, globalLossScales, counts]
  rfl

omit [LinearOrder Scalar] in
/-- A prepared sample with an adapter slot fills a bin of its own. -/
theorem materialize_single (seqLen numLoras : Nat) (sample : Slotted Scalar)
    (prepared : Prepared seqLen sample.2) (slot : sample.1 < numLoras) :
    ∃ row, materializeBin (MicroBatchBin.fromSample sample) numLoras = .ok row := by
  have packable : Packable seqLen numLoras [sample] := by
    constructor
    case prepared => exact fun other member => List.mem_singleton.mp member ▸ prepared
    case slots => exact fun other member => List.mem_singleton.mp member ▸ slot
    case uniform =>
      intro first second firstListed secondListed
      obtain rfl : first = second := Option.some.inj
        ((List.mem_singleton.mp firstListed).trans (List.mem_singleton.mp secondListed).symm)
      exact ⟨rfl, rfl, rfl, rfl⟩
  obtain ⟨row, computed, -⟩ := materialize_bin_lists seqLen numLoras [sample]
    (MicroBatchBin.fromSample sample) packable (packed_singleton seqLen sample prepared.fits)
    (fun other member => member)
  exact ⟨row, computed⟩

/-- Any grid that a batch is accepted as has the loss of its samples taken one per
micro batch on a single worker, in any order. Neither the workers, nor the cost of
bins, nor the padding matter. -/
theorem training_loss_packing_free (objective : Objective Scalar) (numpy : Numpy)
    (rollouts : List (TrainingSample Scalar)) (seqLen numTrainWorkers : Nat) (idxs : List Nat)
    (numLoras : Nat) (binCost : List Nat → Int) (padToMultipleOf : Nat)
    (grid : List (List (MicroBatch Scalar))) (pairs : List (Nat × TrainingSample Scalar))
    (workers : 1 ≤ numTrainWorkers)
    (accepted : prepareBatch numpy rollouts seqLen numTrainWorkers idxs numLoras binCost
      padToMultipleOf = .ok grid)
    (order : pairs.Perm (idxs.zip rollouts))
    (unweighted : ∀ pair ∈ pairs, FirstUnweighted pair.2)
    (referenced : ∀ pair ∈ pairs, Referenced pair.2.refLogprobs pair.2.refKlWeights) :
    ∃ alone loss, aloneGrid numpy seqLen numLoras pairs = .ok alone ∧
      gridLoss objective grid = .ok loss ∧ gridLoss objective alone = .ok loss := by
  obtain ⟨samples, rows, padded, dummies, prepared, packed, paddings, copies, -, -, every⟩ :=
    prepare_batch_rows workers accepted
  have each := (prepare_samples_iff numpy seqLen _ samples).mp prepared
  -- the samples in the order of the pairs
  obtain ⟨own, ownEach, ownOrder⟩ := List.perm_comp_forall₂ order each
  have ownPrepared := (prepare_samples_iff numpy seqLen pairs own).mpr ownEach
  have readable : ∀ sample ∈ own, ReadableSample sample := by
    intro sample member
    obtain ⟨pair, inside, -, ok⟩ := related_left ownEach sample member
    exact prepared_readable numpy seqLen sample.1 pair.2 sample.2 ok (unweighted pair inside)
      (referenced pair inside)
  have binned := batch_bins_every samples seqLen numTrainWorkers binCost
  have inBins : ∀ bin ∈ batchBins samples seqLen numTrainWorkers binCost,
      ∀ sample ∈ bin.samples, ReadableSample sample :=
    fun bin member sample held => readable sample (ownOrder.mem_iff.mpr
      (batch_bins_inside samples seqLen numTrainWorkers binCost bin member sample held))
  obtain ⟨rowsReadable, rowsRead⟩ := materialize_all_readable packed inBins
  obtain ⟨paddedReadable, tails, tailsInert, appended⟩ := pad_all_readable paddings rowsReadable
  have gridReadable : ∀ row ∈ grid.flatten, Readable row := by
    intro row member
    rcases List.mem_append.mp (every.mem_iff.mp member) with real | copy
    · exact paddedReadable row real
    · obtain ⟨source, inside, rfl⟩ := copies row copy
      exact dummy_readable (paddedReadable source inside)
  have gridSegments : (grid.flatten.flatMap segments).Perm
      (rows.flatMap segments ++ (tails ++ dummies.flatMap segments)) := by
    refine (every.flatMap_right segments).trans ?_
    rw [List.flatMap_append, ← List.append_assoc]
    exact appended.append_right _
  have gridInert : ∀ segment ∈ tails ++ dummies.flatMap segments, segment.Inert := by
    intro segment member
    rcases List.mem_append.mp member with tail | copied
    · exact tailsInert segment tail
    · obtain ⟨dummy, inside, listed⟩ := List.mem_flatMap.mp copied
      obtain ⟨source, -, rfl⟩ := copies dummy inside
      exact dummy_inert source segment listed
  have gridRead : ((rows.flatMap segments).map Segment.read).Perm
      (own.map (fun sample => (columns sample.2).read)) := by
    rw [rowsRead]
    exact (binned.trans ownOrder.symm).map _
  have gridLosses := grid_loss_samples objective grid own gridReadable _ _ gridSegments gridRead
    gridInert
  have slots : ∀ sample ∈ own, sample.1 < numLoras := by
    intro sample member
    obtain ⟨bin, inside, held⟩ :=
      List.mem_flatMap.mp (binned.mem_iff.mpr (ownOrder.mem_iff.mp member))
    obtain ⟨row, computed⟩ :=
      Fallible.collected_each ((materialize_bins_collect numLoras _).symm.trans packed) bin inside
    obtain ⟨-, -, -, -, below, -⟩ := materialize_bin_cases computed
    exact below sample held
  obtain ⟨aloneRows, aloneOk, -⟩ := Fallible.collect_accepts
    (fun bin => materializeBin bin numLoras) (fun _ _ => True) (own.map MicroBatchBin.fromSample)
    (by
      intro bin member
      obtain ⟨sample, inside, rfl⟩ := List.mem_map.mp member
      obtain ⟨pair, -, -, ok⟩ := related_left ownEach sample inside
      obtain ⟨row, computed⟩ := materialize_single seqLen numLoras sample
        (prepared_of_accepted numpy pair.2 seqLen sample.2 ok) (slots sample inside)
      exact ⟨row, computed, trivial⟩)
  rw [← materialize_bins_collect] at aloneOk
  obtain ⟨aloneReadable, aloneRead⟩ := materialize_all_readable aloneOk (by
    intro bin member sample held
    obtain ⟨single, inside, rfl⟩ := List.mem_map.mp member
    rw [List.mem_singleton.mp held]
    exact readable single inside)
  have singles : (own.map MicroBatchBin.fromSample).flatMap MicroBatchBin.samples = own := by
    rw [List.flatMap_map]
    exact List.flatMap_singleton' own
  rw [singles] at aloneRead
  have aloneLosses := grid_loss_samples objective [aloneRows] own
    (by rw [List.flatten_singleton]; exact aloneReadable) (aloneRows.flatMap segments) []
    (by rw [List.flatten_singleton, List.append_nil])
    (by rw [aloneRead])
    (fun segment impossible => absurd impossible List.not_mem_nil)
  refine ⟨[aloneRows], samplesLoss objective own, ?_, gridLosses, aloneLosses⟩
  rw [aloneGrid, ownPrepared]
  exact congrArg (fun rows => rows.bind (fun rows => Except.ok [rows])) aloneOk

end Losses

/-! ## Tokens of probability one -/

/-- A model that is certain of every token, with the exponential near zero. -/
def certainObjective : Objective Rat where
  model := fun _ _ _ => 0
  padValue := -1
  functions := ⟨fun value => 1 + value, fun value => value⟩
  lossConfig := .default ⟨1 / 5, 1 / 5, 1, 1 / 1000⟩

/-- A distillation sample of two tokens. -/
def distilledSample : TrainingSample Rat where
  tokenIds := [8, 9]
  mask := [false, true]
  logprobs := [0, 0]
  temperatures := [1, 1]
  envName := "distillation"
  refLogprobs := some [0, -1]
  rlWeights := some [0, 0]
  ceWeights := none
  refKlWeights := some [0, 1]
  advantages := none
  mmKwargs := none
  mmTokenTypeIds := none
  routedExperts := none
  tokenPolicyVersions := none

/-- A policy gradient sample of three tokens of probability one. -/
def certainSample : TrainingSample Rat := { creditedSample with logprobs := [0, 0, 0] }

theorem training_loss_packing_free_mixed :
    ∃ grid alone loss, prepareBatch noImages [certainSample, distilledSample] 8 2 [0, 0] 1
        (fun lengths => (lengths.sum : Int)) 4 = .ok grid ∧
      aloneGrid noImages 8 1 [(0, distilledSample), (0, certainSample)] = .ok alone ∧
      gridLoss certainObjective grid = .ok loss ∧ gridLoss certainObjective alone = .ok loss := by
  have accepted : (prepareBatch noImages [certainSample, distilledSample] 8 2 [0, 0] 1
      (fun lengths => (lengths.sum : Int)) 4).isOk = true := by decide +kernel
  cases prepared : prepareBatch noImages [certainSample, distilledSample] 8 2 [0, 0] 1
      (fun lengths => (lengths.sum : Int)) 4 with
  | error message =>
    rw [prepared] at accepted
    cases accepted
  | ok grid =>
    obtain ⟨alone, loss, isAlone, gridLosses, aloneLosses⟩ := training_loss_packing_free
      certainObjective noImages [certainSample, distilledSample] 8 2 [0, 0] 1
      (fun lengths => (lengths.sum : Int)) 4 grid [(0, distilledSample), (0, certainSample)]
      (by decide) prepared (List.Perm.swap _ _ _)
      (by
        intro pair member
        rcases List.mem_cons.mp member with rfl | later
        · refine ⟨rfl, nofun, ?_⟩
          intro weights present
          obtain rfl := Option.some.inj present
          rfl
        · obtain rfl := List.mem_singleton.mp later
          exact ⟨rfl, nofun, nofun⟩)
      (by
        intro pair member
        rcases List.mem_cons.mp member with rfl | later
        · exact nofun
        · obtain rfl := List.mem_singleton.mp later
          exact fun _ => nofun)
    exact ⟨grid, alone, loss, rfl, isAlone, gridLosses, aloneLosses⟩

end PrimeRl.Trainer.Loss
