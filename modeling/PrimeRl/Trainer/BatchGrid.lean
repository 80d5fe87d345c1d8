import PrimeRl.Support.Fallible
import PrimeRl.Trainer.PackedRows

/-!
# The grid of a batch

The stages of a batch are followed on its rows: bins materialize, rows are
padded, each modality is filled up with dummies to a multiple of the workers and
partitioned evenly over them. The grid then holds every padded row once, dummies
of them, and at each step rows of one modality.
-/

namespace PrimeRl.Trainer.Batch

open PrimeRl.Trainer.Partition PrimeRl.Transport

variable {Scalar : Type} [Zero Scalar] [One Scalar]

/-- A row that lists the samples of a bin and nothing else. -/
structure Materialized (samples : List (Slotted Scalar)) (row : MicroBatch Scalar) : Prop where
  aligned : AlignedRow row
  tokens : row.inputIds.length = totalTokens samples
  segments : (segments row).map Segment.read = samples.map (fun sample => (columns sample.2).read)

/-- What the samples of a batch satisfy before they are packed. -/
structure Packable (seqLen numLoras : Nat) (samples : List (Slotted Scalar)) : Prop where
  prepared : ∀ sample ∈ samples, Prepared seqLen sample.2
  slots : ∀ sample ∈ samples, sample.1 < numLoras
  uniform : UniformRows (samples.map (fun sample => sample.2.routedExperts))

omit [Zero Scalar] [One Scalar] in
theorem versions_checked (samples : List (Slotted Scalar))
    (aligned : ∀ sample ∈ samples,
      VersionsAligned sample.2.tokenPolicyVersions (tokenCount sample)) :
    checkAllVersions samples = .ok () := by
  induction samples with
  | nil => rfl
  | cons sample rest inductionHypothesis =>
    have first := (check_versions_iff _ _).mpr (aligned sample List.mem_cons_self)
    simp only [checkAllVersions, first]
    exact inductionHypothesis (fun other member => aligned other (List.mem_cons_of_mem sample member))

/-- A packed bin of packable samples materializes. -/
theorem materialize_bin_lists (seqLen numLoras : Nat) (samples : List (Slotted Scalar))
    (bin : MicroBatchBin Scalar) (packable : Packable seqLen numLoras samples)
    (packed : Packed seqLen bin.samples) (inside : ∀ sample ∈ bin.samples, sample ∈ samples) :
    ∃ row, materializeBin bin numLoras = .ok row ∧ Materialized bin.samples row := by
  have aligned : ∀ sample ∈ bin.samples, AlignedRow sample.2 :=
    fun sample member => (packable.prepared sample (inside sample member)).aligned
  have versions := versions_checked bin.samples
    (fun sample member => (aligned sample member).tokenPolicyVersions)
  obtain ⟨experts, stacked, expertsAligned⟩ := stack_experts_aligned seqLen bin.samples packed
    (fun sample member => (aligned sample member).routedExperts)
    (by
      intro first second firstListed secondListed
      obtain ⟨one, oneMember, oneIs⟩ := List.mem_map.mp firstListed
      obtain ⟨other, otherMember, otherIs⟩ := List.mem_map.mp secondListed
      exact packable.uniform first second
        (List.mem_map.mpr ⟨one, inside one oneMember, oneIs⟩)
        (List.mem_map.mpr ⟨other, inside other otherMember, otherIs⟩))
  have slotted : bin.samples.any (fun sample => decide (numLoras ≤ sample.1)) = false := by
    rw [List.any_eq_false]
    intro sample member
    have below := packable.slots sample (inside sample member)
    simpa using below
  obtain ⟨first, rest, listed⟩ := List.exists_cons_of_ne_nil packed.nonempty
  refine ⟨stackSamples first bin.samples experts numLoras, ?_, ?_⟩
  · simp only [materializeBin, versions, stacked, slotted, Bool.false_eq_true, if_false]
    rw [listed]
  · exact
      { aligned := stack_aligned first bin.samples experts numLoras aligned expertsAligned
        tokens := stack_input_length first bin.samples experts numLoras
        segments := stack_segments first bin.samples experts numLoras aligned }

theorem materialize_bins_collect (numLoras : Nat) (bins : List (MicroBatchBin Scalar)) :
    materializeBins numLoras bins =
      Fallible.collect (fun bin => materializeBin bin numLoras) bins := by
  induction bins with
  | nil => rfl
  | cons bin rest inductionHypothesis =>
    rw [materializeBins, Fallible.collect, inductionHypothesis]
    cases materializeBin bin numLoras <;> rfl

theorem pad_micro_batches_collect (padToMultipleOf : Nat) (rows : List (MicroBatch Scalar)) :
    padMicroBatches padToMultipleOf rows =
      Fallible.collect (fun row => padMicroBatch row padToMultipleOf) rows := by
  induction rows with
  | nil => rfl
  | cons row rest inductionHypothesis =>
    rw [padMicroBatches, Fallible.collect, inductionHypothesis]
    cases padMicroBatch row padToMultipleOf <;> rfl

theorem materialize_bins_list (seqLen numLoras : Nat) (samples : List (Slotted Scalar))
    (bins : List (MicroBatchBin Scalar)) (packable : Packable seqLen numLoras samples)
    (packed : ∀ bin ∈ bins, Packed seqLen bin.samples)
    (inside : ∀ bin ∈ bins, ∀ sample ∈ bin.samples, sample ∈ samples) :
    ∃ rows, materializeBins numLoras bins = .ok rows ∧
      List.Forall₂ (fun bin row => Materialized bin.samples row) bins rows := by
  rw [materialize_bins_collect]
  exact Fallible.collect_accepts _ _ bins (fun bin member => materialize_bin_lists seqLen numLoras
    samples bin packable (packed bin member) (inside bin member))

theorem pad_micro_batches_pad (rows : List (MicroBatch Scalar)) (padToMultipleOf : Nat)
    (positive : 1 ≤ padToMultipleOf) (aligned : ∀ row ∈ rows, AlignedRow row) :
    ∃ padded, padMicroBatches padToMultipleOf rows = .ok padded ∧
      List.Forall₂ (PaddedTo padToMultipleOf) rows padded := by
  rw [pad_micro_batches_collect]
  apply Fallible.collect_accepts
  intro row member
  obtain ⟨padded, pads⟩ := pad_micro_batch_pads row padToMultipleOf positive (aligned row member)
  exact ⟨padded, pads.computed, pads⟩

/-! ## Groups of one modality -/

omit [One Scalar] in
/-- A group is filled up with dummies of one of its rows. -/
theorem pad_group_fills (group : List (MicroBatch Scalar)) (numTrainWorkers : Nat)
    (positive : 1 ≤ numTrainWorkers) :
    ∃ dummies, padGroupForDistribution group numTrainWorkers = group ++ dummies ∧
      (∀ dummy ∈ dummies, ∃ source ∈ group, dummy = makeDummyBatch source) ∧
      (group ++ dummies).length % numTrainWorkers = 0 := by
  cases group with
  | nil =>
    refine ⟨[], rfl, fun dummy impossible => absurd impossible List.not_mem_nil, ?_⟩
    exact Nat.zero_mod _
  | cons first rest =>
    obtain ⟨filled, -⟩ := padding_size_fills (first :: rest).length numTrainWorkers positive
    refine ⟨List.replicate (paddingSize (first :: rest).length numTrainWorkers)
      (makeDummyBatch first), rfl, ?_, ?_⟩
    · intro dummy member
      exact ⟨first, List.mem_cons_self, List.eq_of_mem_replicate member⟩
    · rw [List.length_append, List.length_replicate]
      exact Nat.mod_eq_zero_of_dvd filled

omit [Zero Scalar] [One Scalar] in
/-- Reading every position of a list reads the list. -/
theorem read_range (group : List (MicroBatch Scalar)) :
    (List.range group.length).filterMap (fun idx => group[idx]?) = group := by
  induction group with
  | nil => rfl
  | cons row rest inductionHypothesis =>
    have first : (row :: rest)[0]? = some row := rfl
    rw [List.length_cons, List.range_succ_eq_map, List.filterMap_cons_some first, List.filterMap_map]
    exact congrArg (row :: ·) inductionHypothesis

omit [Zero Scalar] [One Scalar] in
/-- Each worker gets the same number of rows of a group, and together they get
every row once. -/
theorem distribute_group_even (group : List (MicroBatch Scalar)) (numTrainWorkers : Nat)
    (binCost : List Nat → Int) (positive : 1 ≤ numTrainWorkers)
    (divides : group.length % numTrainWorkers = 0) :
    ∃ grid count, distributeGroup group numTrainWorkers binCost = .ok grid ∧
      grid.length = numTrainWorkers ∧ (∀ worker ∈ grid, worker.length = count) ∧
      grid.flatten.Perm group := by
  cases group with
  | nil =>
    refine ⟨List.replicate numTrainWorkers [], 0, ?_, List.length_replicate, ?_, ?_⟩
    · simp [distributeGroup]
    · intro worker member
      rw [List.eq_of_mem_replicate member]
      rfl
    · rw [List.flatten_replicate_nil]
  | cons first rest =>
    obtain ⟨group, isGroup⟩ : ∃ group, group = first :: rest := ⟨_, rfl⟩
    rw [← isGroup] at divides ⊢
    have nonempty : group ≠ [] := isGroup ▸ List.cons_ne_nil first rest
    obtain ⟨weights, isWeights⟩ : ∃ weights, weights =
      group.map (fun row => binCost row.sequenceLengths) := ⟨_, rfl⟩
    have sameLength : weights.length = group.length := by rw [isWeights, List.length_map]
    obtain ⟨partitions, count, partitioned, groups, even, items⟩ :=
      balanced_partition_even weights numTrainWorkers positive
        (by rw [isWeights, ne_eq, List.map_eq_nil_iff]; exact nonempty) (by rw [sameLength, divides])
    rw [sameLength] at items
    have present : ∀ partition ∈ partitions, ∀ idx ∈ partition, idx < group.length := by
      intro partition member idx listed
      exact List.mem_range.mp (items.mem_iff.mp (List.mem_flatten.mpr ⟨partition, member, listed⟩))
    have read (indices : List Nat) (bounded : ∀ idx ∈ indices, idx < group.length) :
        (indices.filterMap (fun idx => group[idx]?)).length = indices.length := by
      induction indices with
      | nil => rfl
      | cons idx others inductionHypothesis =>
        rw [List.filterMap_cons_some (List.getElem?_eq_getElem (bounded idx List.mem_cons_self)),
          List.length_cons, List.length_cons, inductionHypothesis
            (fun other member => bounded other (List.mem_cons_of_mem idx member))]
    refine ⟨partitions.map (fun partition => partition.filterMap (fun idx => group[idx]?)), count,
      ?_, ?_, ?_, ?_⟩
    · have some : group.isEmpty = false := by simpa using nonempty
      simp only [distributeGroup, divides, some, ne_eq, not_true_eq_false, if_false,
        Bool.false_eq_true, ← isWeights, partitioned, Except.map]
    · rw [List.length_map, groups]
    · intro worker member
      obtain ⟨partition, inside, rfl⟩ := List.mem_map.mp member
      rw [read partition (present partition inside), even partition inside]
    · rw [← List.filterMap_flatten]
      exact (items.filterMap _).trans (List.Perm.of_eq (read_range group))

/-! ## The whole batch -/

/-- What a batch of packable samples becomes. The rows are the bins, the padded
rows are theirs, and the grid deals the padded rows with dummies to the workers,
multimodal steps first. -/
structure Gridded (seqLen numTrainWorkers padToMultipleOf : Nat) (samples : List (Slotted Scalar))
    (bins : List (MicroBatchBin Scalar)) (rows padded dummies : List (MicroBatch Scalar))
    (grid : List (List (MicroBatch Scalar))) : Prop where
  holds : Holds seqLen samples bins
  listed : List.Forall₂ (fun bin row => Materialized bin.samples row) bins rows
  pads : List.Forall₂ (PaddedTo padToMultipleOf) rows padded
  workers : grid.length = numTrainWorkers
  every : grid.flatten.Perm (padded ++ dummies)
  copies : ∀ dummy ∈ dummies, ∃ source ∈ padded, dummy = makeDummyBatch source
  steps : ∃ mmSteps textSteps, ∀ worker ∈ grid, worker.length = mmSteps + textSteps ∧
    ∀ step row, worker[step]? = some row → (isMultimodalSample row = true ↔ step < mmSteps)

omit [Zero Scalar] [One Scalar] in
/-- Two grids of one height are joined worker by worker. -/
theorem zip_grid_perm (mmGrid textGrid : List (List (MicroBatch Scalar)))
    (same : mmGrid.length = textGrid.length) :
    (List.zipWith (· ++ ·) mmGrid textGrid).flatten.Perm (mmGrid.flatten ++ textGrid.flatten) := by
  induction mmGrid generalizing textGrid with
  | nil =>
    cases textGrid with
    | nil => rfl
    | cons worker rest => simp at same
  | cons first others inductionHypothesis =>
    cases textGrid with
    | nil => simp at same
    | cons worker rest =>
      have tails := inductionHypothesis rest (by simpa using same)
      simp only [List.zipWith_cons_cons, List.flatten_cons, List.append_assoc]
      refine List.Perm.append_left first ((tails.append_left worker).trans ?_)
      rw [← List.append_assoc, ← List.append_assoc]
      exact List.perm_append_comm.append_right _

omit [Zero Scalar] [One Scalar] in
/-- Aligned rows pass the check before distribution. -/
theorem all_aligned_asserted (rows : List (MicroBatch Scalar))
    (aligned : ∀ row ∈ rows, AlignedRow row) : assertAllAligned rows = .ok () := by
  induction rows with
  | nil => rfl
  | cons row rest inductionHypothesis =>
    simp only [assertAllAligned, aligned_asserted row (aligned row List.mem_cons_self)]
    exact inductionHypothesis (fun other member => aligned other (List.mem_cons_of_mem row member))

omit [Zero Scalar] [One Scalar] in
/-- What is listed on the right of a relation has a partner on the left. -/
theorem related_left {Left Right : Type} {Related : Left → Right → Prop} {lefts : List Left}
    {rights : List Right} (related : List.Forall₂ Related lefts rights) :
    ∀ right ∈ rights, ∃ left ∈ lefts, Related left right := by
  induction related with
  | nil => exact fun right impossible => absurd impossible List.not_mem_nil
  | cons first rest inductionHypothesis =>
    intro right member
    rcases List.mem_cons.mp member with rfl | later
    · exact ⟨_, List.mem_cons_self, first⟩
    · obtain ⟨left, inside, partner⟩ := inductionHypothesis right later
      exact ⟨left, List.mem_cons_of_mem _ inside, partner⟩

/-- The rows that can occur in the grid are aligned. -/
theorem grid_row_aligned (padToMultipleOf : Nat) (rows padded dummies : List (MicroBatch Scalar))
    (pads : List.Forall₂ (PaddedTo padToMultipleOf) rows padded)
    (copies : ∀ dummy ∈ dummies, ∃ source ∈ padded, dummy = makeDummyBatch source) :
    ∀ row ∈ padded ++ dummies, AlignedRow row ∧ padToMultipleOf ∣ row.inputIds.length := by
  have paddedRow : ∀ row ∈ padded, AlignedRow row ∧ padToMultipleOf ∣ row.inputIds.length := by
    intro row member
    obtain ⟨source, -, pads⟩ := related_left pads row member
    exact ⟨pads.aligned, pads.multiple⟩
  intro row member
  rcases List.mem_append.mp member with real | copy
  · exact paddedRow row real
  · obtain ⟨source, inside, rfl⟩ := copies row copy
    obtain ⟨aligned, multiple⟩ := paddedRow source inside
    exact ⟨dummy_aligned source aligned, multiple⟩

omit [Zero Scalar] [One Scalar] in
/-- The two modalities of padded rows, filled up with dummies, are the padded
rows and the dummies. -/
theorem groups_perm (padded mmDummies textDummies : List (MicroBatch Scalar)) :
    ((padded.filter isMultimodalSample ++ mmDummies) ++
      (padded.filter (fun row => !isMultimodalSample row) ++ textDummies)).Perm
        (padded ++ (mmDummies ++ textDummies)) := by
  have halves := List.filter_append_perm isMultimodalSample padded
  calc
    ((padded.filter isMultimodalSample ++ mmDummies) ++
        (padded.filter (fun row => !isMultimodalSample row) ++ textDummies)).Perm
        ((padded.filter isMultimodalSample ++ padded.filter (fun row => !isMultimodalSample row)) ++
          (mmDummies ++ textDummies)) := by
      simp only [List.append_assoc]
      refine List.Perm.append_left _ ?_
      rw [← List.append_assoc, ← List.append_assoc]
      exact List.perm_append_comm.append_right textDummies
    List.Perm _ (padded ++ (mmDummies ++ textDummies)) := halves.append_right _

/-- Packable samples become a grid. Splitting needs a positive cost of single
samples, and only when several workers share the batch. -/
theorem packable_gridded [DecidableEq Scalar] (numpy : Numpy)
    (rollouts : List (TrainingSample Scalar)) (seqLen numTrainWorkers : Nat) (idxs : List Nat)
    (numLoras : Nat) (binCost : List Nat → Int) (padToMultipleOf : Nat)
    (samples : List (Slotted Scalar)) (workers : 1 ≤ numTrainWorkers) (pads : 1 ≤ padToMultipleOf)
    (accepted : prepareSamples numpy seqLen (idxs.zip rollouts) = .ok samples)
    (packable : Packable seqLen numLoras samples)
    (costs : 1 < numTrainWorkers → ∀ sample ∈ samples, 0 < binCost [tokenCount sample]) :
    ∃ rows padded dummies grid,
      packedSamplesIntoMicroBs samples seqLen numLoras numTrainWorkers binCost = .ok rows ∧
      prepareBatch numpy rollouts seqLen numTrainWorkers idxs numLoras binCost padToMultipleOf =
        .ok grid ∧
      Gridded seqLen numTrainWorkers padToMultipleOf samples
        (batchBins samples seqLen numTrainWorkers binCost) rows padded dummies grid := by
  obtain ⟨holds, -⟩ := batch_bins_holds samples seqLen numTrainWorkers binCost
    (fun sample member => (packable.prepared sample member).fits) costs
  obtain ⟨rows, materialized, listed⟩ := materialize_bins_list seqLen numLoras samples
    (batchBins samples seqLen numTrainWorkers binCost) packable holds.packed
    (fun bin member sample inside =>
      holds.every.mem_iff.mp (List.mem_flatMap.mpr ⟨bin, member, inside⟩))
  have rowsAligned : ∀ row ∈ rows, AlignedRow row := by
    intro row member
    obtain ⟨bin, -, lists⟩ := related_left listed row member
    exact lists.aligned
  obtain ⟨padded, paddedOk, padsRows⟩ := pad_micro_batches_pad rows padToMultipleOf pads rowsAligned
  obtain ⟨mmDummies, mmFilled, mmCopies, mmDivides⟩ :=
    pad_group_fills (padded.filter isMultimodalSample) numTrainWorkers workers
  obtain ⟨textDummies, textFilled, textCopies, textDivides⟩ :=
    pad_group_fills (padded.filter (fun row => !isMultimodalSample row)) numTrainWorkers workers
  obtain ⟨mmGrid, mmSteps, mmDealt, mmWorkers, mmEven, mmEvery⟩ :=
    distribute_group_even _ numTrainWorkers binCost workers mmDivides
  obtain ⟨textGrid, textSteps, textDealt, textWorkers, textEven, textEvery⟩ :=
    distribute_group_even _ numTrainWorkers binCost workers textDivides
  have reordered := groups_perm padded mmDummies textDummies
  have copies : ∀ dummy ∈ mmDummies ++ textDummies,
      ∃ source ∈ padded, dummy = makeDummyBatch source := by
    intro dummy member
    rcases List.mem_append.mp member with mm | text
    · obtain ⟨source, inside, same⟩ := mmCopies dummy mm
      exact ⟨source, List.mem_of_mem_filter inside, same⟩
    · obtain ⟨source, inside, same⟩ := textCopies dummy text
      exact ⟨source, List.mem_of_mem_filter inside, same⟩
  have groupsAligned := all_aligned_asserted
    ((padded.filter isMultimodalSample ++ mmDummies) ++
      (padded.filter (fun row => !isMultimodalSample row) ++ textDummies))
    (fun row member => (grid_row_aligned padToMultipleOf rows padded (mmDummies ++ textDummies)
      padsRows copies row (reordered.mem_iff.mp member)).1)
  -- dummies keep the modality of their group
  have mmModality : ∀ row ∈ padded.filter isMultimodalSample ++ mmDummies,
      isMultimodalSample row = true := by
    intro row member
    rcases List.mem_append.mp member with real | copy
    · exact (List.mem_filter.mp real).2
    · obtain ⟨source, inside, rfl⟩ := mmCopies row copy
      exact (List.mem_filter.mp inside).2
  have textModality : ∀ row ∈ padded.filter (fun row => !isMultimodalSample row) ++ textDummies,
      isMultimodalSample row = false := by
    intro row member
    rcases List.mem_append.mp member with real | copy
    · simpa using (List.mem_filter.mp real).2
    · obtain ⟨source, inside, rfl⟩ := textCopies row copy
      have sourceText : isMultimodalSample source = false := by
        simpa using (List.mem_filter.mp inside).2
      exact sourceText
  refine ⟨rows, padded, mmDummies ++ textDummies, List.zipWith (· ++ ·) mmGrid textGrid,
    materialized, ?_, ?_⟩
  · have packedOk : packedSamplesIntoMicroBs samples seqLen numLoras numTrainWorkers binCost =
        .ok rows := materialized
    simp only [prepareBatch, preparedGroups, accepted, packedOk, paddedOk, mmFilled, textFilled,
      groupsAligned, mmDealt, textDealt, bind, Except.bind]
  · constructor
    case holds => exact holds
    case listed => exact listed
    case pads => exact padsRows
    case workers => rw [List.length_zipWith, mmWorkers, textWorkers, Nat.min_self]
    case every =>
      refine (zip_grid_perm mmGrid textGrid (mmWorkers.trans textWorkers.symm)).trans ?_
      exact (mmEvery.append textEvery).trans reordered
    case copies => exact copies
    case steps =>
      refine ⟨mmSteps, textSteps, ?_⟩
      intro worker member
      obtain ⟨position, inside, rfl⟩ := List.getElem_of_mem member
      rw [List.getElem_zipWith]
      rw [List.length_zipWith] at inside
      have mmMember := List.getElem_mem (l := mmGrid) (n := position) (by omega)
      have textMember := List.getElem_mem (l := textGrid) (n := position) (by omega)
      have mmCount := mmEven _ mmMember
      have textCount := textEven _ textMember
      refine ⟨by rw [List.length_append, mmCount, textCount], ?_⟩
      intro step row found
      by_cases early : step < mmSteps
      · rw [List.getElem?_append_left (by omega)] at found
        have fromMm := mmEvery.mem_iff.mp
          (List.mem_flatten.mpr ⟨_, mmMember, List.mem_of_getElem? found⟩)
        simp only [mmModality row fromMm, early]
      · rw [List.getElem?_append_right (by omega)] at found
        have fromText := textEvery.mem_iff.mp
          (List.mem_flatten.mpr ⟨_, textMember, List.mem_of_getElem? found⟩)
        simp only [textModality row fromText, early, Bool.false_eq_true]

end PrimeRl.Trainer.Batch
