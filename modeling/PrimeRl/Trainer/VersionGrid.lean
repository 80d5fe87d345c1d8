import PrimeRl.Orchestrator.Trajectories
import PrimeRl.Trainer.GridOrigins

/-!
# Policy versions through a batch

The steps of a sample are cut with its tokens, rows join the bytes of their
samples, and padding appends filler. The rows of a grid are followed back to
bins, so that each stands for the cut steps of its samples and unknown steps
behind them. Dummies copy the tokens of a row but carry no versions.
-/

namespace PrimeRl.Trainer.Batch

open PrimeRl.Transport PrimeRl.Orchestrator.MessageGraph PrimeRl.Orchestrator.Provenance
  PrimeRl.Orchestrator.Episodes PrimeRl.Orchestrator.Trajectories

variable {Scalar : Type}

/-- A sample with the steps its payload was encoded from. -/
def Encoded (source : TrainingSample Scalar × List Int) : Prop :=
  source.2.length = source.1.tokenIds.length ∧
    encodePolicyVersions source.2 = .ok source.1.tokenPolicyVersions

/-- The tokens and steps of a sample up to its cut point. -/
def CutAt (numpy : Numpy) (seqLen : Nat) (source : TrainingSample Scalar × List Int)
    (part : List Nat × List Int) : Prop :=
  ∃ cut kept, sampleCut numpy source.1 seqLen = .ok (cut, kept) ∧
    part = (source.1.tokenIds.take cut, source.2.take cut)

/-- A row lists parts one after the other, stands for their steps, and has unknown
steps on its padding. -/
def CarriesParts (parts : List (List Nat × List Int)) (row : MicroBatch Scalar) : Prop :=
  ∃ padding, row.inputIds = parts.flatMap Prod.fst ++ List.replicate padding 1 ∧
    versionsOf row.tokenPolicyVersions row.inputIds.length =
      .ok (parts.flatMap Prod.snd ++ List.replicate padding (-1))

theorem encoded_reads (source : TrainingSample Scalar × List Int) (encoded : Encoded source) :
    versionsOf source.1.tokenPolicyVersions source.1.tokenIds.length = .ok source.2 := by
  obtain ⟨length, isPayload⟩ := encoded
  obtain ⟨payload, isSame, reads⟩ := encode_reads (encoded_words isPayload)
  obtain rfl := Except.ok.inj (isPayload.symm.trans isSame)
  exact length ▸ reads

/-- An absent payload is what unknown steps are encoded as. -/
theorem unknown_encoded (numTokens : Nat) :
    encodePolicyVersions (List.replicate numTokens (-1)) = .ok none := by
  have words : StepWords (List.replicate numTokens (-1)) := by
    intro value member
    rw [List.eq_of_mem_replicate member]
    decide
  rw [encode_policy_versions_eq words]
  apply congrArg Except.ok
  apply if_neg
  intro known
  obtain ⟨value, member, step⟩ := List.any_eq_true.mp known
  rw [List.eq_of_mem_replicate member] at step
  cases step

/-- The samples of admitted traces carry the steps of their nodes, or none at all. -/
theorem branch_sample_encoded (trace : Trace Scalar) (flat : trace.Flat)
    (admitted : validateTrainingTrace trace = .ok ()) (envName : String)
    (capturePolicyVersions : Bool) (item : TrainableBranch Scalar trace.nodes.length)
    (listed : item.branch ∈ trace.branches) :
    ∃ steps, Encoded (branchSample trace envName capturePolicyVersions item, steps) := by
  obtain ⟨parts, decoded, encoded⟩ :=
    branch_policy_versions_encoded trace admitted item.branch
  have length : parts.flatten.length = item.branch.tokenIds.length := by
    rw [flat.tokens item.branch listed, List.length_flatMap, List.length_flatten]
    apply congrArg List.sum
    rw [Fallible.collect_ok_iff] at decoded
    clear encoded
    generalize item.branch.nodes = nodes at decoded ⊢
    induction decoded with
    | nil => rfl
    | cons accepted _ inductionHypothesis =>
      rw [List.map_cons, List.map_cons, inductionHypothesis,
        (node_policy_versions_labels _ _ accepted).1]
  have unknown : (branchSample trace envName capturePolicyVersions item).tokenPolicyVersions = none →
      Encoded (branchSample trace envName capturePolicyVersions item,
        List.replicate item.branch.tokenIds.length (-1)) := by
    intro absent
    exact ⟨List.length_replicate, absent ▸ unknown_encoded _⟩
  cases capturePolicyVersions with
  | false => exact ⟨_, unknown rfl⟩
  | true =>
    split_ifs at encoded with versioned
    · exact ⟨parts.flatten, length, encoded⟩
    · exact ⟨_, unknown (Except.ok.inj encoded).symm⟩

section
variable [Zero Scalar] [DecidableEq Scalar]

/-- A prepared sample stands for the cut steps of its source. -/
theorem prepared_part (numpy : Numpy) (source : TrainingSample Scalar × List Int) (seqLen : Nat)
    (prepared : MicroBatch Scalar) (encoded : Encoded source)
    (accepted : prepareSample numpy source.1 seqLen = .ok prepared) :
    ∃ steps, versionsOf prepared.tokenPolicyVersions prepared.inputIds.length = .ok steps ∧
      CutAt numpy seqLen source (prepared.inputIds, steps) := by
  obtain ⟨advantages, cut, kept, versions, experts, rows, -, -, -, isCut, carried, -, -,
    isPrepared⟩ := (prepare_sample_iff numpy source.1 seqLen prepared).mp accepted
  rw [sampleStreams] at isPrepared
  obtain ⟨-, inside, untouched⟩ := sample_cut_bounded numpy source.1 seqLen cut kept isCut
  obtain ⟨versions', carried', reads⟩ :=
    sample_versions_read numpy source.1 seqLen cut kept isCut (encoded_reads source encoded)
  obtain rfl := Except.ok.inj (carried.symm.trans carried')
  refine ⟨source.2.take cut, ?_⟩
  by_cases long : seqLen < source.1.tokenIds.length
  · rw [if_pos long] at isPrepared
    subst isPrepared
    have count : (source.1.tokenIds.take cut).length = cut := by
      rw [List.length_take, Nat.min_eq_left inside]
    exact ⟨(congrArg (versionsOf versions) count).trans reads, cut, kept, isCut, rfl⟩
  · rw [if_neg long] at isPrepared
    subst isPrepared
    rw [sampleVersions, if_neg long] at carried
    obtain rfl := Except.ok.inj carried
    obtain ⟨rfl, -⟩ := untouched long
    refine ⟨reads, source.1.tokenIds.length, kept, isCut, ?_⟩
    rw [List.take_length]
    rfl

end

/-- The steps a sample in a bin stands for. -/
def slottedSteps (sample : Slotted Scalar) : List Int :=
  (versionsOf sample.2.tokenPolicyVersions (tokenCount sample)).toOption.getD []

/-- A sample in a bin as a part of a row. -/
def slottedPart (sample : Slotted Scalar) : List Nat × List Int :=
  (sample.2.inputIds, slottedSteps sample)

section
variable [Zero Scalar] [One Scalar]

omit [One Scalar] in
/-- The prepared samples are the cut parts of their sources, in order. -/
theorem samples_cut [DecidableEq Scalar] (numpy : Numpy) (seqLen : Nat)
    (entries : List (Nat × TrainingSample Scalar × List Int)) (samples : List (Slotted Scalar))
    (encoded : ∀ entry ∈ entries, Encoded entry.2)
    (prepared : List.Forall₂ (fun entry sample => sample.1 = entry.1 ∧
      prepareSample numpy entry.2.1 seqLen = .ok sample.2) entries samples) :
    List.Forall₂ (fun entry part => CutAt numpy seqLen entry.2 part) entries
        (samples.map slottedPart) ∧
      ∀ sample ∈ samples, VersionsAligned sample.2.tokenPolicyVersions (tokenCount sample) := by
  induction prepared with
  | nil => exact ⟨.nil, fun sample impossible => absurd impossible List.not_mem_nil⟩
  | @cons entry sample entries samples accepted _ inductionHypothesis =>
    obtain ⟨here, later⟩ := List.forall_mem_cons.mp encoded
    obtain ⟨steps, read, isCut⟩ := prepared_part numpy entry.2 seqLen sample.2 here accepted.2
    obtain ⟨parts, aligned⟩ := inductionHypothesis later
    have own : slottedSteps sample = steps := by
      rw [slottedSteps, tokenCount, read]
      rfl
    refine ⟨.cons ?_ parts, List.forall_mem_cons.mpr ⟨⟨steps, read⟩, aligned⟩⟩
    rw [slottedPart, own]
    exact isCut

/-- A materialized bin carries the parts of its samples, without padding. -/
theorem materialized_carries (bin : MicroBatchBin Scalar) (numLoras : Nat) (row : MicroBatch Scalar)
    (accepted : materializeBin bin numLoras = .ok row)
    (aligned : ∀ sample ∈ bin.samples,
      VersionsAligned sample.2.tokenPolicyVersions (tokenCount sample)) :
    row.inputIds = (bin.samples.map slottedPart).flatMap Prod.fst ∧
      versionsOf row.tokenPolicyVersions row.inputIds.length =
        .ok ((bin.samples.map slottedPart).flatMap Prod.snd) := by
  obtain ⟨first, rest, experts, -, -, rfl⟩ := materialize_bin_cases accepted
  have read : ∀ sample ∈ bin.samples,
      versionsOf sample.2.tokenPolicyVersions (tokenCount sample) = .ok (slottedSteps sample) := by
    intro sample member
    obtain ⟨values, read⟩ := aligned sample member
    rw [slottedSteps, read]
    rfl
  rw [stack_input_length, List.flatMap_map, List.flatMap_map]
  exact ⟨rfl, stack_versions_read bin.samples slottedSteps read⟩

/-- Padding adds unknown steps behind those of the row. -/
theorem padded_carries (parts : List (List Nat × List Int)) (row padded : MicroBatch Scalar)
    (padToMultipleOf : Nat) (accepted : padMicroBatch row padToMultipleOf = .ok padded)
    (tokens : row.inputIds = parts.flatMap Prod.fst)
    (read : versionsOf row.tokenPolicyVersions row.inputIds.length = .ok (parts.flatMap Prod.snd)) :
    CarriesParts parts padded := by
  rcases pad_micro_batch_cases accepted with rfl | ⟨padding, rfl⟩
  · refine ⟨0, ?_, ?_⟩
    · rw [List.replicate_zero, List.append_nil, tokens]
    · rw [List.replicate_zero, List.append_nil, read]
  · have count : (appendPadding row padding).inputIds.length = row.inputIds.length + padding := by
      rw [appendPadding, List.length_append, List.length_replicate]
    refine ⟨padding, ?_, ?_⟩
    · rw [← tokens]
      rfl
    · rw [count]
      exact append_padding_versions row padding read

/-- Bins whose rows are materialized and padded carry the parts of their samples. -/
theorem bins_carry (numLoras padToMultipleOf : Nat) (bins : List (MicroBatchBin Scalar))
    (rows padded : List (MicroBatch Scalar)) (materialized : materializeBins numLoras bins = .ok rows)
    (paddings : padMicroBatches padToMultipleOf rows = .ok padded)
    (aligned : ∀ bin ∈ bins, ∀ sample ∈ bin.samples,
      VersionsAligned sample.2.tokenPolicyVersions (tokenCount sample)) :
    List.Forall₂ CarriesParts (bins.map (fun bin => bin.samples.map slottedPart)) padded := by
  rw [materialize_bins_collect, Fallible.collect_ok_iff] at materialized
  rw [pad_micro_batches_collect, Fallible.collect_ok_iff] at paddings
  induction materialized generalizing padded with
  | nil =>
    cases paddings
    exact .nil
  | @cons bin row bins rows first _ inductionHypothesis =>
    obtain ⟨here, later⟩ := List.forall_mem_cons.mp aligned
    cases paddings with
    | cons pads others =>
      obtain ⟨tokens, read⟩ := materialized_carries bin numLoras row first here
      exact .cons (padded_carries _ row _ padToMultipleOf pads tokens read)
        (inductionHypothesis _ others later)

/-- What becomes of the policy versions of the samples of a batch: apart from
    dummies, the rows of its grid carry the cut parts of the samples, each part
    in one row. -/
structure VersionsCarried (numpy : Numpy) (seqLen : Nat) (idxs : List Nat)
    (sources : List (TrainingSample Scalar × List Int)) (grid : List (List (MicroBatch Scalar))) :
    Prop where
  carried : ∃ parts rows dummies lists,
    List.Forall₂ (fun entry part => CutAt numpy seqLen entry.2 part) (idxs.zip sources) parts ∧
    lists.flatten.Perm parts ∧ List.Forall₂ CarriesParts lists rows ∧
    grid.flatten.Perm (rows ++ dummies) ∧
    ∀ dummy ∈ dummies, (∃ row ∈ rows, dummy = makeDummyBatch row) ∧
      versionsOf dummy.tokenPolicyVersions dummy.inputIds.length =
        .ok (List.replicate dummy.inputIds.length (-1))

theorem prepare_batch_versions [DecidableEq Scalar] {numpy : Numpy}
    {sources : List (TrainingSample Scalar × List Int)} {seqLen numTrainWorkers : Nat}
    {idxs : List Nat} {numLoras : Nat} {binCost : List Nat → Int} {padToMultipleOf : Nat}
    {grid : List (List (MicroBatch Scalar))} (positive : 1 ≤ numTrainWorkers)
    (encoded : ∀ source ∈ sources, Encoded source)
    (accepted : prepareBatch numpy (sources.map Prod.fst) seqLen numTrainWorkers idxs numLoras binCost
      padToMultipleOf = .ok grid) :
    VersionsCarried numpy seqLen idxs sources grid := by
  obtain ⟨samples, rows, padded, dummies, prepared, packed, paddings, copies, -, -, every⟩ :=
    prepare_batch_rows positive accepted
  rw [prepare_samples_iff, List.zip_map_right, List.forall₂_map_left_iff] at prepared
  obtain ⟨parts, aligned⟩ := samples_cut numpy seqLen (idxs.zip sources) samples
    (fun entry member => encoded entry.2 (List.of_mem_zip member).2) prepared
  let bins := batchBins samples seqLen numTrainWorkers binCost
  have carried := bins_carry numLoras padToMultipleOf bins rows padded packed paddings
    (fun bin member sample held => aligned sample
      (batch_bins_inside samples seqLen numTrainWorkers binCost bin member sample held))
  have once : (bins.map (fun bin => bin.samples.map slottedPart)).flatten.Perm
      (samples.map slottedPart) := by
    rw [← List.flatMap_def, ← List.map_flatMap]
    exact (batch_bins_every samples seqLen numTrainWorkers binCost).map slottedPart
  refine ⟨samples.map slottedPart, padded, dummies, _, parts, once, carried, every, ?_⟩
  intro dummy member
  obtain ⟨row, listed, rfl⟩ := copies dummy member
  exact ⟨⟨row, listed, rfl⟩, rfl⟩

end

/-- Policy versions survive the whole wire: the rows of every accepted batch carry
    the cut steps of their samples and unknown steps elsewhere, dummies carry
    none, encoding and decoding are inverse on arrays with a known step, and the
    steps of a node are those its labels spell. -/
theorem policy_versions_carried [Zero Scalar] [One Scalar] [DecidableEq Scalar] :
    (∀ (numpy : Numpy) (sources : List (TrainingSample Scalar × List Int))
      (seqLen numTrainWorkers : Nat) (idxs : List Nat) (numLoras : Nat) (binCost : List Nat → Int)
      (padToMultipleOf : Nat) (grid : List (List (MicroBatch Scalar))), 1 ≤ numTrainWorkers →
      (∀ source ∈ sources, Encoded source) →
      prepareBatch numpy (sources.map Prod.fst) seqLen numTrainWorkers idxs numLoras binCost
        padToMultipleOf = .ok grid → VersionsCarried numpy seqLen idxs sources grid) ∧
    (∀ values : List Int, StepWords values → (∃ value ∈ values, 0 ≤ value) →
      ∃ payload, encodePolicyVersions values = .ok (some payload) ∧
        decodePolicyVersions payload values.length = .ok values) ∧
    (∀ (payload : EncodedTensor) (numTokens : Nat) (values : List Int),
      decodePolicyVersions payload numTokens = .ok values → (∃ value ∈ values, 0 ≤ value) →
        encodePolicyVersions values = .ok (some payload)) ∧
    ∀ (node : MessageNode) (steps : List Int), nodePolicyVersions node = .ok steps →
      steps.length = node.tokenIds.length ∧ ∀ index < node.tokenIds.length,
        (∀ step : Nat, steps[index]? = some (step : Int) ↔ Labelled node index step) ∧
        ((¬ ∃ step, Labelled node index step) → steps[index]? = some (-1)) := by
  refine ⟨?_, ?_, fun payload numTokens values => encode_decode, node_policy_versions_labels⟩
  · intro numpy sources seqLen numTrainWorkers idxs numLoras binCost padToMultipleOf grid positive
      encoded accepted
    exact prepare_batch_versions positive encoded accepted
  · intro values words known
    obtain ⟨value, member, step⟩ := known
    have encoded := encode_policy_versions_eq words
    rw [if_pos (List.any_eq_true.mpr ⟨value, member, decide_eq_true step⟩)] at encoded
    exact ⟨_, encoded, decode_encode encoded⟩

/-- A sample of three tokens whose last two come from known steps. -/
def knownSample : TrainingSample Rat × List Int :=
  ({ creditedSample with
      tokenPolicyVersions := some ⟨"int64", [3], SignedWord.writeWords [-1, 3, 4]⟩ }, [-1, 3, 4])

def knownRow : MicroBatch Rat :=
  stackSamples (0, wholeSample knownSample.1 [0, 1, 1]) [(0, wholeSample knownSample.1 [0, 1, 1])]
    none 1

theorem known_sample_encoded : Encoded knownSample := ⟨rfl, by decide +kernel⟩

/-- Prepared text rows that fill the workers evenly are the grid. -/
theorem text_batch {rollouts : List (TrainingSample Rat)} {seqLen numTrainWorkers : Nat}
    {idxs : List Nat} {padToMultipleOf : Nat} {rows : List (MicroBatch Rat)}
    (groups : preparedGroups noImages rollouts seqLen numTrainWorkers idxs 1
      (fun lengths => (lengths.sum : Int)) padToMultipleOf = .ok ([], rows))
    (positive : 1 ≤ numTrainWorkers) (divides : rows.length % numTrainWorkers = 0) :
    ∃ grid, prepareBatch noImages rollouts seqLen numTrainWorkers idxs 1
        (fun lengths => (lengths.sum : Int)) padToMultipleOf = .ok grid ∧
      grid.flatten.Perm rows := by
  obtain ⟨mmGrid, -, mmDealt, mmWorkers, -, mmEvery⟩ := distribute_group_even
    ([] : List (MicroBatch Rat)) numTrainWorkers (fun lengths => (lengths.sum : Int)) positive
    (Nat.zero_mod numTrainWorkers)
  obtain ⟨textGrid, -, textDealt, textWorkers, -, textEvery⟩ := distribute_group_even rows
    numTrainWorkers (fun lengths => (lengths.sum : Int)) positive divides
  refine ⟨List.zipWith (· ++ ·) mmGrid textGrid, ?_, ?_⟩
  · simp only [prepareBatch, groups, mmDealt, textDealt, bind, Except.bind]
  · exact (zip_grid_perm mmGrid textGrid (mmWorkers.trans textWorkers.symm)).trans
      (mmEvery.append textEvery)

/-- Two workers get the row of one sample and a dummy of it. -/
theorem known_batch :
    ∃ grid, prepareBatch noImages [knownSample.1] 3 2 [0] 1 (fun lengths => (lengths.sum : Int)) 1 =
        .ok grid ∧ grid.flatten.Perm [knownRow, makeDummyBatch knownRow] :=
  text_batch (by decide +kernel) (by decide) (by decide)

/-- The dummy that gives a second worker its row lists the tokens of the sample
    while none of its steps are carried. -/
theorem dummy_drops_versions :
    Encoded knownSample ∧ ∃ grid, prepareBatch noImages [knownSample.1] 3 2 [0] 1
        (fun lengths => (lengths.sum : Int)) 1 = .ok grid ∧
      ∃ row ∈ grid.flatten, ∀ parts, (∀ part ∈ parts, CutAt noImages 3 knownSample part) →
        ¬ CarriesParts parts row := by
  obtain ⟨grid, accepted, rows⟩ := known_batch
  refine ⟨known_sample_encoded, grid, accepted, makeDummyBatch knownRow,
    rows.mem_iff.mpr (by simp), ?_⟩
  intro parts cuts carries
  obtain ⟨padding, tokens, read⟩ := carries
  have dummyTokens : (makeDummyBatch knownRow).inputIds = [5, 6, 7] := rfl
  rw [dummyTokens] at tokens read
  cases parts with
  | nil =>
    have first : (5 : Nat) ∈ List.replicate padding 1 := by
      rw [← List.nil_append (List.replicate padding 1)]
      exact tokens ▸ List.mem_cons_self
    exact absurd (List.eq_of_mem_replicate first) (by decide)
  | cons part rest =>
    obtain ⟨cut, kept, isCut, rfl⟩ := cuts part List.mem_cons_self
    obtain ⟨rfl, -⟩ : cut = 3 ∧ kept = none := by
      have whole : sampleCut noImages knownSample.1 3 = .ok (3, none) := rfl
      exact Prod.mk.inj (Except.ok.inj (isCut.symm.trans whole))
    have unknown : versionsOf (makeDummyBatch knownRow).tokenPolicyVersions 3 = .ok [-1, -1, -1] := rfl
    have second := congrArg (fun values => values.getD 1 0) (Except.ok.inj (unknown.symm.trans read))
    cases second

/-- A sample longer than a row. -/
def longSample : TrainingSample Rat × List Int :=
  ({ creditedSample with
      tokenIds := [5, 6, 7, 8, 9, 10, 11]
      mask := [false, true, true, true, true, true, true]
      logprobs := [0, -1, -1, -1, -1, -1, -1]
      temperatures := [1, 1, 1, 1, 1, 1, 1]
      advantages := some [0, 1, 1, 1, 1, 1, 1]
      tokenPolicyVersions := some ⟨"int64", [7], SignedWord.writeWords [-1, 0, 1, 1, 2, 2, 3]⟩ },
    [-1, 0, 1, 1, 2, 2, 3])

/-- Rows of five tokens padded to eight: one has the cut part of a longer sample, the other
two samples one behind the other. -/
theorem policy_versions_carried_three_samples :
    let sources := [longSample, knownSample, (supervisedSample, [-1, 3])]
    ∃ grid, prepareBatch noImages (sources.map Prod.fst) 5 2 [0, 0, 0] 1
        (fun lengths => (lengths.sum : Int)) 4 = .ok grid ∧
      (grid.flatten.map (·.sequenceLengths)).Perm [[5, 3], [3, 2, 3]] ∧
      VersionsCarried noImages 5 [0, 0, 0] sources grid := by
  intro sources
  obtain ⟨⟨mmBatches, textBatches⟩, groups, shape⟩ := Fallible.map_ok
    (show (preparedGroups noImages (sources.map Prod.fst) 5 2 [0, 0, 0] 1
      (fun lengths => (lengths.sum : Int)) 4).map
        (fun groups => (groups.1, groups.2.map (·.sequenceLengths))) = .ok ([], [[5, 3], [3, 2, 3]])
      by decide +kernel)
  obtain ⟨rfl, rows⟩ := Prod.mk.inj shape
  have two : textBatches.length = 2 := by
    rw [← List.length_map (f := (·.sequenceLengths)), rows]
    rfl
  obtain ⟨grid, accepted, every⟩ := text_batch groups (by decide) (by rw [two])
  refine ⟨grid, accepted, rows ▸ every.map _, policy_versions_carried.1 noImages sources 5 2
    [0, 0, 0] 1 (fun lengths => (lengths.sum : Int)) 4 grid (by decide) ?_ accepted⟩
  simp only [sources, List.forall_mem_cons]
  exact ⟨⟨rfl, by decide +kernel⟩, known_sample_encoded, ⟨rfl, by decide +kernel⟩,
    fun _ impossible => absurd impossible List.not_mem_nil⟩

end PrimeRl.Trainer.Batch
