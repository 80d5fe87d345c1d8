import PrimeRl.Trainer.PrepareBatch

/-!
# Where the rows of a grid come from

Whatever samples a batch has: once it is accepted, its workers hold lists of one
length, each row of the grid is a padded row or a dummy copy of one, and each
row before padding lists samples of the batch and nothing else.
-/

namespace PrimeRl.Trainer.Batch

open PrimeRl.Trainer.Partition PrimeRl.Transport

variable {Scalar : Type}

/-! ## Bins -/

/-- Every sample of these bins is a sample of the batch. -/
def Inside (samples : List (Slotted Scalar)) (bins : List (MicroBatchBin Scalar)) : Prop :=
  ∀ bin ∈ bins, ∀ sample ∈ bin.samples, sample ∈ samples

theorem batch_bins_inside (samples : List (Slotted Scalar)) (maxSeqLen numTrainWorkers : Nat)
    (binCost : List Nat → Int) :
    Inside samples (batchBins samples maxSeqLen numTrainWorkers binCost) :=
  fun bin member _ held => (batch_bins_every samples maxSeqLen numTrainWorkers binCost).mem_iff.mp
    (List.mem_flatMap.mpr ⟨bin, member, held⟩)

/-! ## Rows -/

section Rows
variable [Zero Scalar] [One Scalar]

theorem materialize_bin_cases {bin : MicroBatchBin Scalar} {numLoras : Nat}
    {row : MicroBatch Scalar} (accepted : materializeBin bin numLoras = .ok row) :
    ∃ first rest experts, bin.samples = first :: rest ∧
      (∀ sample ∈ bin.samples, sample.1 < numLoras) ∧
      row = stackSamples first bin.samples experts numLoras := by
  rw [materializeBin] at accepted
  cases versions : checkAllVersions bin.samples with
  | error message => simp [versions] at accepted
  | ok _ =>
    cases stacked : stackExperts none bin.samples with
    | error message => simp [versions, stacked] at accepted
    | ok experts =>
      simp only [versions, stacked] at accepted
      by_cases beyond : bin.samples.any (fun sample => decide (numLoras ≤ sample.1)) = true
      · rw [if_pos beyond] at accepted
        cases accepted
      · rw [if_neg beyond] at accepted
        cases listed : bin.samples with
        | nil =>
          rw [listed] at accepted
          cases accepted
        | cons first rest =>
          rw [listed] at accepted beyond
          refine ⟨first, rest, experts, rfl, ?_, (Except.ok.inj accepted).symm⟩
          intro sample member
          by_contra exceeds
          exact beyond (List.any_eq_true.mpr
            ⟨sample, member, decide_eq_true (Nat.not_lt.mp exceeds)⟩)

theorem materialize_bins_cases (numLoras : Nat) (bins : List (MicroBatchBin Scalar))
    (rows : List (MicroBatch Scalar)) (accepted : materializeBins numLoras bins = .ok rows) :
    ∀ row ∈ rows, ∃ bin ∈ bins, materializeBin bin numLoras = .ok row :=
  Fallible.collected_from ((materialize_bins_collect numLoras bins).symm.trans accepted)

/-- A row of a batch before padding lists samples of the batch. -/
theorem packed_row_cases {samples : List (Slotted Scalar)}
    {maxSeqLen numLoras numTrainWorkers : Nat} {binCost : List Nat → Int}
    {rows : List (MicroBatch Scalar)}
    (accepted : packedSamplesIntoMicroBs samples maxSeqLen numLoras numTrainWorkers binCost = .ok rows)
    {row : MicroBatch Scalar} (member : row ∈ rows) :
    ∃ first rest experts, row = stackSamples first (first :: rest) experts numLoras ∧
      ∀ sample ∈ first :: rest, sample ∈ samples ∧ sample.1 < numLoras := by
  obtain ⟨bin, inBins, materialized⟩ := materialize_bins_cases numLoras _ rows accepted row member
  obtain ⟨first, rest, experts, listed, below, isRow⟩ := materialize_bin_cases materialized
  rw [listed] at below isRow
  refine ⟨first, rest, experts, isRow, ?_⟩
  intro sample held
  exact ⟨batch_bins_inside samples maxSeqLen numTrainWorkers binCost bin inBins sample
    (listed ▸ held), below sample held⟩

theorem pad_micro_batches_cases (padToMultipleOf : Nat) (rows padded : List (MicroBatch Scalar))
    (accepted : padMicroBatches padToMultipleOf rows = .ok padded) :
    ∀ row ∈ padded, ∃ source ∈ rows, padMicroBatch source padToMultipleOf = .ok row :=
  Fallible.collected_from ((pad_micro_batches_collect padToMultipleOf rows).symm.trans accepted)

/-! ## The grid -/

omit [Zero Scalar] [One Scalar] in
theorem distribute_group_cases {group : List (MicroBatch Scalar)} {numTrainWorkers : Nat}
    {binCost : List Nat → Int} {grid : List (List (MicroBatch Scalar))}
    (positive : 1 ≤ numTrainWorkers)
    (accepted : distributeGroup group numTrainWorkers binCost = .ok grid) :
    grid.length = numTrainWorkers ∧ (∃ count, ∀ worker ∈ grid, worker.length = count) ∧
      grid.flatten.Perm group := by
  by_cases divides : group.length % numTrainWorkers = 0
  · obtain ⟨dealt, count, computed, workers, even, every⟩ :=
      distribute_group_even group numTrainWorkers binCost positive divides
    obtain rfl := Except.ok.inj (computed.symm.trans accepted)
    exact ⟨workers, ⟨count, even⟩, every⟩
  · rw [distributeGroup, if_pos divides] at accepted
    cases accepted

/-- An accepted batch is an even grid of its padded rows, each once, and dummy
copies of them. -/
theorem prepare_batch_rows [DecidableEq Scalar] {numpy : Numpy}
    {rollouts : List (TrainingSample Scalar)} {seqLen numTrainWorkers : Nat} {idxs : List Nat}
    {numLoras : Nat} {binCost : List Nat → Int} {padToMultipleOf : Nat}
    {grid : List (List (MicroBatch Scalar))} (positive : 1 ≤ numTrainWorkers)
    (accepted : prepareBatch numpy rollouts seqLen numTrainWorkers idxs numLoras binCost
      padToMultipleOf = .ok grid) :
    ∃ samples rows padded dummies, prepareSamples numpy seqLen (idxs.zip rollouts) = .ok samples ∧
      packedSamplesIntoMicroBs samples seqLen numLoras numTrainWorkers binCost = .ok rows ∧
      padMicroBatches padToMultipleOf rows = .ok padded ∧
      (∀ dummy ∈ dummies, ∃ source ∈ padded, dummy = makeDummyBatch source) ∧
      grid.length = numTrainWorkers ∧ (∃ count, ∀ worker ∈ grid, worker.length = count) ∧
      grid.flatten.Perm (padded ++ dummies) := by
  cases prepared : prepareSamples numpy seqLen (idxs.zip rollouts) with
  | error message =>
    simp [prepareBatch, preparedGroups, prepared, bind, Except.bind] at accepted
  | ok samples =>
  cases packed : packedSamplesIntoMicroBs samples seqLen numLoras numTrainWorkers binCost with
  | error message =>
    simp [prepareBatch, preparedGroups, prepared, packed, bind, Except.bind] at accepted
  | ok rows =>
  cases paddings : padMicroBatches padToMultipleOf rows with
  | error message =>
    simp [prepareBatch, preparedGroups, prepared, packed, paddings, bind, Except.bind] at accepted
  | ok padded =>
  obtain ⟨mmBatches, isMm⟩ : ∃ mmBatches, mmBatches =
    padGroupForDistribution (padded.filter isMultimodalSample) numTrainWorkers := ⟨_, rfl⟩
  obtain ⟨textBatches, isText⟩ : ∃ textBatches, textBatches =
    padGroupForDistribution (padded.filter (fun row => !isMultimodalSample row)) numTrainWorkers :=
      ⟨_, rfl⟩
  cases asserted : assertAllAligned (mmBatches ++ textBatches) with
  | error message =>
    simp [prepareBatch, preparedGroups, prepared, packed, paddings, ← isMm, ← isText, asserted,
      bind, Except.bind] at accepted
  | ok _ =>
  cases mmDealt : distributeGroup mmBatches numTrainWorkers binCost with
  | error message =>
    simp [prepareBatch, preparedGroups, prepared, packed, paddings, ← isMm, ← isText, asserted,
      mmDealt, bind, Except.bind] at accepted
  | ok mmGrid =>
  cases textDealt : distributeGroup textBatches numTrainWorkers binCost with
  | error message =>
    simp [prepareBatch, preparedGroups, prepared, packed, paddings, ← isMm, ← isText, asserted,
      mmDealt, textDealt, bind, Except.bind] at accepted
  | ok textGrid =>
  simp only [prepareBatch, preparedGroups, prepared, packed, paddings, ← isMm, ← isText, asserted,
    mmDealt, textDealt, bind, Except.bind] at accepted
  obtain rfl := Except.ok.inj accepted
  obtain ⟨mmWorkers, ⟨mmCount, mmEven⟩, mmEvery⟩ := distribute_group_cases positive mmDealt
  obtain ⟨textWorkers, ⟨textCount, textEven⟩, textEvery⟩ := distribute_group_cases positive textDealt
  obtain ⟨mmDummies, mmFilled, mmCopies, -⟩ :=
    pad_group_fills (padded.filter isMultimodalSample) numTrainWorkers positive
  obtain ⟨textDummies, textFilled, textCopies, -⟩ :=
    pad_group_fills (padded.filter (fun row => !isMultimodalSample row)) numTrainWorkers positive
  rw [isMm, mmFilled] at mmEvery
  rw [isText, textFilled] at textEvery
  refine ⟨samples, rows, padded, mmDummies ++ textDummies, rfl, packed, paddings, ?_, ?_,
    ⟨mmCount + textCount, ?_⟩, ?_⟩
  · intro dummy member
    rcases List.mem_append.mp member with mm | text
    · obtain ⟨source, inside, same⟩ := mmCopies dummy mm
      exact ⟨source, List.mem_of_mem_filter inside, same⟩
    · obtain ⟨source, inside, same⟩ := textCopies dummy text
      exact ⟨source, List.mem_of_mem_filter inside, same⟩
  · rw [List.length_zipWith, mmWorkers, textWorkers, Nat.min_self]
  · intro worker member
    obtain ⟨position, inside, rfl⟩ := List.getElem_of_mem member
    rw [List.getElem_zipWith, List.length_append, mmEven _ (List.getElem_mem _),
      textEven _ (List.getElem_mem _)]
  · refine (zip_grid_perm mmGrid textGrid (mmWorkers.trans textWorkers.symm)).trans ?_
    exact (mmEvery.append textEvery).trans (groups_perm padded mmDummies textDummies)

/-- Each row of an accepted batch is a padded row or a dummy copy of one. -/
theorem prepare_batch_cases [DecidableEq Scalar] {numpy : Numpy}
    {rollouts : List (TrainingSample Scalar)} {seqLen numTrainWorkers : Nat} {idxs : List Nat}
    {numLoras : Nat} {binCost : List Nat → Int} {padToMultipleOf : Nat}
    {grid : List (List (MicroBatch Scalar))} (positive : 1 ≤ numTrainWorkers)
    (accepted : prepareBatch numpy rollouts seqLen numTrainWorkers idxs numLoras binCost
      padToMultipleOf = .ok grid) :
    ∃ samples rows, prepareSamples numpy seqLen (idxs.zip rollouts) = .ok samples ∧
      packedSamplesIntoMicroBs samples seqLen numLoras numTrainWorkers binCost = .ok rows ∧
      grid.length = numTrainWorkers ∧ (∃ count, ∀ worker ∈ grid, worker.length = count) ∧
      ∀ worker ∈ grid, ∀ row ∈ worker, ∃ source ∈ rows, ∃ padded,
        padMicroBatch source padToMultipleOf = .ok padded ∧
          (row = padded ∨ row = makeDummyBatch padded) := by
  obtain ⟨samples, rows, padded, dummies, prepared, packed, paddings, copies, workers, even, every⟩ :=
    prepare_batch_rows positive accepted
  refine ⟨samples, rows, prepared, packed, workers, even, ?_⟩
  intro worker member row listed
  rcases List.mem_append.mp (every.mem_iff.mp (List.mem_flatten.mpr ⟨worker, member, listed⟩)) with
    real | copy
  · obtain ⟨source, inside, pads⟩ :=
      pad_micro_batches_cases padToMultipleOf rows padded paddings row real
    exact ⟨source, inside, row, pads, Or.inl rfl⟩
  · obtain ⟨copied, held, isCopy⟩ := copies row copy
    obtain ⟨source, inside, pads⟩ :=
      pad_micro_batches_cases padToMultipleOf rows padded paddings copied held
    exact ⟨source, inside, copied, pads, Or.inr isCopy⟩

end Rows

end PrimeRl.Trainer.Batch
