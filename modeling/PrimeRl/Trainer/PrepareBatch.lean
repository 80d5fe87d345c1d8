import PrimeRl.Trainer.BatchGrid

/-!
# A batch keeps its training signal and its ranks in step

Over all workers, the segments of the grid are the cut samples, each once, and
inert segments, so the loss tokens of the grid are those of the cut samples. The
workers get lists of one length whose rows agree in modality at every step.
-/

namespace PrimeRl.Trainer.Batch

open PrimeRl.Transport

variable {Scalar : Type} [Zero Scalar] [One Scalar] [DecidableEq Scalar]

omit [One Scalar] in
theorem prepare_samples_collect (numpy : Numpy) (seqLen : Nat)
    (pairs : List (Nat × TrainingSample Scalar)) :
    prepareSamples numpy seqLen pairs = Fallible.collect
      (fun pair => (prepareSample numpy pair.2 seqLen).map (fun sample => (pair.1, sample))) pairs := by
  induction pairs with
  | nil => rfl
  | cons pair rest inductionHypothesis =>
    rw [prepareSamples, Fallible.collect, inductionHypothesis]
    cases prepareSample numpy pair.2 seqLen <;> rfl

omit [One Scalar] in
/-- Samples are prepared together, in order, exactly when each is accepted. -/
theorem prepare_samples_iff (numpy : Numpy) (seqLen : Nat)
    (pairs : List (Nat × TrainingSample Scalar)) (samples : List (Slotted Scalar)) :
    prepareSamples numpy seqLen pairs = .ok samples ↔
      List.Forall₂ (fun pair sample => sample.1 = pair.1 ∧
        prepareSample numpy pair.2 seqLen = .ok sample.2) pairs samples := by
  rw [prepare_samples_collect, Fallible.collect_ok_iff]
  have same (pair : Nat × TrainingSample Scalar) (sample : Slotted Scalar) :
      (prepareSample numpy pair.2 seqLen).map (fun prepared => (pair.1, prepared)) = .ok sample ↔
        sample.1 = pair.1 ∧ prepareSample numpy pair.2 seqLen = .ok sample.2 := by
    constructor
    · intro mapped
      obtain ⟨prepared, accepted, rfl⟩ := Fallible.map_ok mapped
      exact ⟨rfl, accepted⟩
    · rintro ⟨slot, accepted⟩
      rw [accepted, ← slot]
      rfl
  simp only [same]

omit [One Scalar] in
/-- Samples that are accepted one by one are accepted together, in order. -/
theorem prepare_samples_accepts (numpy : Numpy) (seqLen : Nat)
    (pairs : List (Nat × TrainingSample Scalar))
    (accepted : ∀ pair ∈ pairs, ∃ prepared, prepareSample numpy pair.2 seqLen = .ok prepared) :
    ∃ samples, prepareSamples numpy seqLen pairs = .ok samples ∧
      List.Forall₂ (fun pair sample => sample.1 = pair.1 ∧
        prepareSample numpy pair.2 seqLen = .ok sample.2) pairs samples := by
  rw [prepare_samples_collect]
  apply Fallible.collect_accepts
  intro pair member
  obtain ⟨prepared, ok⟩ := accepted pair member
  exact ⟨(pair.1, prepared), congrArg (Except.map _) ok, rfl, ok⟩

/-- Checked rows of a payload: the inner dimensions are dropped when it is cut. -/
def RowsOf (whole : RoutedExperts) (rows : ExpertRows) : Prop :=
  ExpertsDtype.ofName whole.dtype = some rows.dtype ∧
    ∃ inner, whole.shape.drop 1 = rows.layers :: rows.topk :: inner ∧
      (rows.inner = inner ∨ rows.inner = [])

omit [One Scalar] in
/-- A prepared sample carries experts only if the sample did, in rows of the
same shape. -/
theorem prepared_experts (numpy : Numpy) (sample : TrainingSample Scalar) (seqLen : Nat)
    (prepared : MicroBatch Scalar) (accepted : prepareSample numpy sample seqLen = .ok prepared)
    (rows : ExpertRows) (carried : prepared.routedExperts = some rows) :
    ∃ whole, sample.routedExperts = some whole ∧ RowsOf whole rows := by
  obtain ⟨advantages, cut, kept, versions, experts, listed, -, -, -, -, -, routed, asserted,
    rfl⟩ := (prepare_sample_iff numpy sample seqLen prepared).mp accepted
  have checked := ((assert_prepared_iff _ experts listed).mp asserted).2.2.2.2.2.1
  obtain rfl : listed = some rows := carried
  rw [sampleExperts] at routed
  cases present : sample.routedExperts with
  | none =>
    rw [present] at routed
    obtain rfl := Except.ok.inj routed
    cases checked
  | some whole =>
    refine ⟨whole, rfl, ?_⟩
    rw [present] at routed
    dsimp only at routed
    split at routed
    · obtain ⟨sliced, isSliced, rfl⟩ := Fallible.map_ok routed
      obtain ⟨⟨layers, topk, dtype⟩, typed, rfl⟩ := Fallible.map_ok isSliced
      obtain ⟨⟨count, inner, shape⟩, known⟩ := (row_type_ok whole layers topk dtype).mp typed
      obtain ⟨own, passed, same⟩ := Fallible.map_ok checked
      obtain rfl := Option.some.inj same
      obtain ⟨layers', topk', inner', dtype', shape', known', -, rfl⟩ :=
        (assert_experts_ok _ _ own).mp passed
      obtain ⟨-, rest⟩ := List.cons.inj shape'
      obtain ⟨sameLayers, rest⟩ := List.cons.inj rest
      obtain ⟨sameTopk, cutInner⟩ := List.cons.inj rest
      refine ⟨known', inner, ?_, .inr cutInner.symm⟩
      rw [shape, List.drop_succ_cons, List.drop_zero, sameLayers, sameTopk]
    · obtain rfl := Except.ok.inj routed
      obtain ⟨own, passed, same⟩ := Fallible.map_ok checked
      obtain rfl := Option.some.inj same
      obtain ⟨layers, topk, inner, dtype, shape, known, -, rfl⟩ :=
        (assert_experts_ok whole _ own).mp passed
      exact ⟨known, inner, by rw [shape, List.drop_succ_cons, List.drop_zero], .inl rfl⟩

/-- Payloads with the same rows are checked to the same type of row. -/
theorem SameRows.checked {first second : RoutedExperts} {firstRows secondRows : ExpertRows}
    (same : SameRows first second) (firstOf : RowsOf first firstRows)
    (secondOf : RowsOf second secondRows) : SameRowType firstRows secondRows := by
  obtain ⟨dtype, layers, topk, firstShape, secondShape⟩ := same
  obtain ⟨firstKnown, firstInner, firstListed, firstKept⟩ := firstOf
  obtain ⟨secondKnown, secondInner, secondListed, secondKept⟩ := secondOf
  rw [firstShape] at firstListed
  rw [secondShape] at secondListed
  rw [dtype] at firstKnown
  obtain ⟨firstLayers, firstRest⟩ := List.cons.inj firstListed
  obtain ⟨firstTopk, rfl⟩ := List.cons.inj firstRest
  obtain ⟨secondLayers, secondRest⟩ := List.cons.inj secondListed
  obtain ⟨secondTopk, rfl⟩ := List.cons.inj secondRest
  refine ⟨Option.some.inj (firstKnown.symm.trans secondKnown), firstLayers.symm.trans secondLayers,
    firstTopk.symm.trans secondTopk, ?_⟩
  rw [or_self] at firstKept secondKept
  rw [firstKept, secondKept]

omit [One Scalar] in
/-- Accepted samples with uniform experts and existing adapter slots are packable. -/
theorem accepted_packable (numpy : Numpy) (rollouts : List (TrainingSample Scalar))
    (seqLen : Nat) (idxs : List Nat) (numLoras : Nat) (samples : List (Slotted Scalar))
    (slots : ∀ idx ∈ idxs, idx < numLoras)
    (uniform : UniformExperts (rollouts.map TrainingSample.routedExperts))
    (each : List.Forall₂ (fun pair sample => sample.1 = pair.1 ∧
      prepareSample numpy pair.2 seqLen = .ok sample.2) (idxs.zip rollouts) samples) :
    Packable seqLen numLoras samples where
  prepared := by
    intro sample member
    obtain ⟨pair, -, -, accepted⟩ := related_left each sample member
    exact prepared_of_accepted numpy pair.2 seqLen sample.2 accepted
  slots := by
    intro sample member
    obtain ⟨pair, inside, same, -⟩ := related_left each sample member
    rw [same]
    exact slots pair.1 (List.of_mem_zip inside).1
  uniform := by
    have source : ∀ experts, some experts ∈ samples.map (fun sample => sample.2.routedExperts) →
        ∃ whole, some whole ∈ rollouts.map TrainingSample.routedExperts ∧
          RowsOf whole experts := by
      intro experts listed
      obtain ⟨sample, member, carried⟩ := List.mem_map.mp listed
      obtain ⟨pair, inside, -, accepted⟩ := related_left each sample member
      obtain ⟨whole, present, same⟩ :=
        prepared_experts numpy pair.2 seqLen sample.2 accepted experts carried
      exact ⟨whole, List.mem_map.mpr ⟨pair.2, (List.of_mem_zip inside).2, present⟩, same⟩
    intro first second firstListed secondListed
    obtain ⟨firstWhole, firstIn, firstOf⟩ := source first firstListed
    obtain ⟨secondWhole, secondIn, secondOf⟩ := source second secondListed
    exact (uniform firstWhole secondWhole firstIn secondIn).checked firstOf secondOf

/-- The number of tokens a sample keeps. -/
def cutPoint (numpy : Numpy) (seqLen : Nat) (sample : TrainingSample Scalar) : Nat :=
  match sampleCut numpy sample seqLen with
  | .ok (cut, _) => cut
  | .error _ => 0

/-- The segment that a sample must appear as: its streams up to the cut, with
the identities of the absent ones filled in. -/
def expectedSegment (numpy : Numpy) (seqLen : Nat) (sample : TrainingSample Scalar) :
    Segment Scalar :=
  (sampleSegment sample (cutPoint numpy seqLen sample)).read

omit [One Scalar] in
omit [DecidableEq Scalar] in
/-- Padding adds inert segments to the segments of the rows. -/
theorem padded_segments (rows padded : List (MicroBatch Scalar))
    (pads : List.Forall₂ (fun row padded => ∃ inert : List (Segment Scalar),
      (∀ segment ∈ inert, segment.Inert) ∧ segments padded = segments row ++ inert) rows padded) :
    ∃ inert : List (Segment Scalar), (∀ segment ∈ inert, segment.Inert) ∧
      (padded.flatMap segments).Perm (rows.flatMap segments ++ inert) := by
  induction pads with
  | nil => exact ⟨[], fun segment impossible => absurd impossible List.not_mem_nil, .refl _⟩
  | cons first others inductionHypothesis =>
    obtain ⟨inert, allInert, tail⟩ := inductionHypothesis
    obtain ⟨own, ownInert, appended⟩ := first
    refine ⟨own ++ inert, ?_, ?_⟩
    · intro segment member
      rcases List.mem_append.mp member with mine | later
      · exact ownInert segment mine
      · exact allInert segment later
    · rw [List.flatMap_cons, List.flatMap_cons, appended, List.append_assoc, List.append_assoc]
      refine List.Perm.append_left _ ((tail.append_left own).trans ?_)
      rw [← List.append_assoc, ← List.append_assoc]
      exact List.perm_append_comm.append_right inert

omit [DecidableEq Scalar] in
/-- Materialized rows list the samples of their bins. -/
theorem materialized_segments (bins : List (MicroBatchBin Scalar)) (rows : List (MicroBatch Scalar))
    (listed : List.Forall₂ (fun bin row => (segments row).map Segment.read =
      bin.samples.map (fun sample => (columns sample.2).read)) bins rows) :
    (rows.flatMap segments).map Segment.read =
      (bins.flatMap MicroBatchBin.samples).map (fun sample => (columns sample.2).read) := by
  induction listed with
  | nil => rfl
  | cons first others inductionHypothesis =>
    rw [List.flatMap_cons, List.flatMap_cons, List.map_append, List.map_append, first,
      inductionHypothesis]

omit [DecidableEq Scalar] in
/-- The segments of a grid are those of its bins and inert ones. -/
theorem gridded_segments {seqLen numTrainWorkers padToMultipleOf : Nat}
    {samples : List (Slotted Scalar)} {bins : List (MicroBatchBin Scalar)}
    {rows padded dummies : List (MicroBatch Scalar)} {grid : List (List (MicroBatch Scalar))}
    (gridded : Gridded seqLen numTrainWorkers padToMultipleOf samples bins rows padded dummies grid) :
    ∃ carried inert : List (Segment Scalar),
      (grid.flatten.flatMap segments).Perm (carried ++ inert) ∧
      (carried.map Segment.read).Perm (samples.map (fun sample => (columns sample.2).read)) ∧
      ∀ segment ∈ inert, segment.Inert := by
  obtain ⟨tails, tailsInert, appended⟩ := padded_segments rows padded (gridded.pads.imp (fun _ _ pads => pads.tail))
  refine ⟨rows.flatMap segments, tails ++ dummies.flatMap segments, ?_, ?_, ?_⟩
  · refine (gridded.every.flatMap_right segments).trans ?_
    rw [List.flatMap_append, ← List.append_assoc]
    exact appended.append_right _
  · rw [materialized_segments _ rows (gridded.listed.imp (fun _ _ lists => lists.segments))]
    exact gridded.holds.every.map _
  · intro segment member
    rcases List.mem_append.mp member with tail | copied
    · exact tailsInert segment tail
    · obtain ⟨dummy, inside, listed⟩ := List.mem_flatMap.mp copied
      obtain ⟨source, -, rfl⟩ := gridded.copies dummy inside
      exact dummy_inert source segment listed

omit [Zero Scalar] [One Scalar] [DecidableEq Scalar] in
/-- Related lists are equal under maps that agree on related items. -/
theorem related_map_eq {Left Right Value : Type} {Related : Left → Right → Prop}
    {lefts : List Left} {rights : List Right} {onLeft : Left → Value} {onRight : Right → Value}
    (related : List.Forall₂ Related lefts rights)
    (agree : ∀ left ∈ lefts, ∀ right, Related left right → onRight right = onLeft left) :
    rights.map onRight = lefts.map onLeft := by
  induction related with
  | nil => rfl
  | @cons left right lefts rights first others inductionHypothesis =>
    rw [List.map_cons, List.map_cons, agree left List.mem_cons_self right first,
      inductionHypothesis (fun other member => agree other (List.mem_cons_of_mem left member))]

theorem map_read_lossCounts (listed : List (Segment Scalar)) :
    ((listed.map Segment.read).map Segment.lossCounts).sum =
      (listed.map Segment.lossCounts).sum := by
  rw [List.map_map]
  congr 1
  exact List.map_congr_left (fun segment _ => segment.read_lossCounts)

/-- Aligned rows count what their segments count. -/
theorem count_loss_tokens_segments [NeZero (1 : Scalar)] (rows : List (MicroBatch Scalar))
    (cuts : ∀ row ∈ rows, Cuts row) :
    countLossTokens rows = ((rows.flatMap segments).map Segment.lossCounts).sum := by
  induction rows with
  | nil => rfl
  | cons row rest inductionHypothesis =>
    have rowCuts := cuts row List.mem_cons_self
    have tail := inductionHypothesis (fun other member => cuts other (List.mem_cons_of_mem row member))
    have own : ((segments row).map Segment.lossCounts).sum = batchLossTokens row := by
      rw [segments, Segment.split_lossCounts _ _ rowCuts.aligned rowCuts.whole,
        batch_loss_tokens_columns row rowCuts.aligned.lossMask]
    rw [countLossTokens] at tail ⊢
    rw [List.map_cons, List.sum_cons, tail, List.flatMap_cons, List.map_append, List.sum_append, own]

/-- The grid holds every sample up to its cut exactly once, as one segment of
one row of one worker, and everything else in it is inert; its loss tokens are
those of the cut samples; and every per-token array is aligned. -/
structure Conserves (numpy : Numpy) (seqLen : Nat) (rollouts : List (TrainingSample Scalar))
    (grid : List (List (MicroBatch Scalar))) : Prop where
  once : ∃ carried inert : List (Segment Scalar),
    (grid.flatten.flatMap segments).Perm (carried ++ inert) ∧
    (carried.map Segment.read).Perm (rollouts.map (expectedSegment numpy seqLen)) ∧
    ∀ segment ∈ inert, segment.Inert
  counted : countLossTokens grid.flatten =
    (rollouts.map (fun sample => (expectedSegment numpy seqLen sample).lossCounts)).sum
  aligned : ∀ row ∈ grid.flatten, AlignedRow row

/-- A batch neither loses, duplicates nor adds training signal. The samples are
well-formed and can be cut, and single samples have a positive cost when several
workers share the batch. -/
theorem prepare_batch_conserves [NeZero (1 : Scalar)] (numpy : Numpy)
    (rollouts : List (TrainingSample Scalar)) (seqLen numTrainWorkers : Nat) (idxs : List Nat)
    (numLoras : Nat) (binCost : List Nat → Int) (padToMultipleOf : Nat)
    (workers : 1 ≤ numTrainWorkers) (pads : 1 ≤ padToMultipleOf)
    (paired : idxs.length = rollouts.length) (slots : ∀ idx ∈ idxs, idx < numLoras)
    (wellFormed : ∀ sample ∈ rollouts, WellFormed sample)
    (cuts : ∀ sample ∈ rollouts, ∃ cut kept, sampleCut numpy sample seqLen = .ok (cut, kept))
    (uniform : UniformExperts (rollouts.map TrainingSample.routedExperts))
    (costs : 1 < numTrainWorkers → ∀ sample ∈ rollouts, 0 < binCost [cutPoint numpy seqLen sample]) :
    ∃ grid, prepareBatch numpy rollouts seqLen numTrainWorkers idxs numLoras binCost padToMultipleOf =
        .ok grid ∧
      grid.length = numTrainWorkers ∧ Conserves numpy seqLen rollouts grid := by
  have prepares : ∀ sample ∈ rollouts, ∃ prepared,
      prepareSample numpy sample seqLen = .ok prepared ∧
      columns prepared = sampleSegment sample (cutPoint numpy seqLen sample) ∧
      prepared.inputIds.length = cutPoint numpy seqLen sample := by
    intro sample member
    obtain ⟨cut, kept, isCut⟩ := cuts sample member
    obtain ⟨prepared, accepted, same, -, count⟩ :=
      well_formed_prepares numpy sample seqLen cut kept (wellFormed sample member) isCut
    have point : cutPoint numpy seqLen sample = cut := by simp only [cutPoint, isCut]
    exact ⟨prepared, accepted, by rw [point, same], by rw [point, count]⟩
  obtain ⟨samples, accepted, each⟩ := prepare_samples_accepts numpy seqLen (idxs.zip rollouts)
    (fun pair member =>
      have ⟨prepared, ok, _⟩ := prepares pair.2 (List.of_mem_zip member).2
      ⟨prepared, ok⟩)
  have described : ∀ pair ∈ idxs.zip rollouts, ∀ sample : Slotted Scalar,
      prepareSample numpy pair.2 seqLen = .ok sample.2 →
        columns sample.2 = sampleSegment pair.2 (cutPoint numpy seqLen pair.2) ∧
          tokenCount sample = cutPoint numpy seqLen pair.2 := by
    intro pair member sample ok
    obtain ⟨prepared, preparedOk, same, count⟩ := prepares pair.2 (List.of_mem_zip member).2
    obtain rfl : prepared = sample.2 := Except.ok.inj (preparedOk.symm.trans ok)
    exact ⟨same, count⟩
  have packable := accepted_packable numpy rollouts seqLen idxs numLoras samples slots uniform each
  obtain ⟨rows, padded, dummies, grid, -, prepared, gridded⟩ := packable_gridded numpy rollouts seqLen
    numTrainWorkers idxs numLoras binCost padToMultipleOf samples workers pads accepted packable
    (by
      intro several sample member
      obtain ⟨pair, inside, -, ok⟩ := related_left each sample member
      rw [(described pair inside sample ok).2]
      exact costs several pair.2 (List.of_mem_zip inside).2)
  have expected : samples.map (fun sample => (columns sample.2).read) =
      rollouts.map (expectedSegment numpy seqLen) := by
    have zipped : rollouts = (idxs.zip rollouts).map Prod.snd :=
      (List.map_snd_zip paired.ge).symm
    rw [zipped, List.map_map]
    apply related_map_eq each
    intro pair inside sample related
    rw [(described pair inside sample related.2).1]
    rfl
  obtain ⟨carried, inert, every, carriedSame, allInert⟩ := gridded_segments gridded
  rw [expected] at carriedSame
  have aligned : ∀ row ∈ grid.flatten, AlignedRow row := by
    intro row member
    exact (grid_row_aligned padToMultipleOf rows padded dummies gridded.pads gridded.copies row
      (gridded.every.mem_iff.mp member)).1
  refine ⟨grid, prepared, gridded.workers, ⟨carried, inert, every, carriedSame, allInert⟩, ?_,
    aligned⟩
  have silent : (inert.map Segment.lossCounts).sum = 0 := by
    apply List.sum_eq_zero
    intro counts member
    obtain ⟨segment, inside, rfl⟩ := List.mem_map.mp member
    exact segment.inert_lossCounts (allInert segment inside)
  rw [count_loss_tokens_segments _ (fun row member => cuts_of_aligned row (aligned row member)), (every.map Segment.lossCounts).sum_eq, List.map_append,
    List.sum_append, silent, add_zero, ← map_read_lossCounts,
    (carriedSame.map Segment.lossCounts).sum_eq, List.map_map]
  rfl

/-- A numpy that reads no image grid. -/
def noImages : Numpy := ⟨fun _ => 1, fun _ => .error "no image grid"⟩

/-- A policy gradient sample of three tokens. -/
def creditedSample : TrainingSample Rat where
  tokenIds := [5, 6, 7]
  mask := [false, true, true]
  logprobs := [0, -1, -2]
  temperatures := [1, 1, 1]
  envName := "env"
  refLogprobs := none
  rlWeights := none
  ceWeights := none
  refKlWeights := none
  advantages := some [0, 1, 1]
  tokenPolicyVersions := none

/-- A supervised sample of two tokens, without rl credit. -/
def supervisedSample : TrainingSample Rat where
  tokenIds := [8, 9]
  mask := [false, true]
  logprobs := [0, 0]
  temperatures := [1, 1]
  envName := "env"
  refLogprobs := none
  rlWeights := some [0, 0]
  ceWeights := some [0, 1]
  refKlWeights := none
  advantages := none
  tokenPolicyVersions := some ⟨"int64", [2], SignedWord.writeWords [-1, 3]⟩

theorem credited_well_formed : WellFormed creditedSample := by
  constructor
  case credited | refLogprobs | rlWeights | ceWeights | refKlWeights | mmTokenTypeIds |
    routedExperts => exact nofun
  case tokenPolicyVersions => exact ⟨_, rfl⟩
  case advantages =>
    rintro values ⟨rfl⟩
    rfl
  all_goals decide

theorem supervised_well_formed : WellFormed supervisedSample := by
  constructor
  case refLogprobs | refKlWeights | mmTokenTypeIds | routedExperts | advantages => exact nofun
  case rlWeights | ceWeights =>
    rintro values ⟨rfl⟩
    rfl
  case tokenPolicyVersions => exact ⟨[-1, 3], by decide +kernel⟩
  all_goals decide

/-- Two workers share two samples, one of them cut, in rows of four tokens. -/
theorem prepare_batch_conserves_cut_sample :
    ∃ grid, prepareBatch noImages [creditedSample, supervisedSample] 2 2 [0, 0] 1
        (fun lengths => (lengths.sum : Int)) 4 = .ok grid ∧
      grid.length = 2 ∧ Conserves noImages 2 [creditedSample, supervisedSample] grid :=
  prepare_batch_conserves noImages [creditedSample, supervisedSample] 2 2 [0, 0] 1
    (fun lengths => (lengths.sum : Int)) 4 (by decide) (by decide) rfl (by decide)
    (by
      intro sample member
      rcases List.mem_cons.mp member with rfl | later
      · exact credited_well_formed
      · exact List.mem_singleton.mp later ▸ supervised_well_formed)
    (by
      intro sample member
      rcases List.mem_cons.mp member with rfl | later
      · exact ⟨2, none, by decide⟩
      · exact ⟨2, none, List.mem_singleton.mp later ▸ by decide⟩)
    (by
      intro first second listed _
      simp [creditedSample, supervisedSample] at listed)
    (by
      intro _ sample member
      rcases List.mem_cons.mp member with rfl | later
      · decide
      · exact List.mem_singleton.mp later ▸ by decide)

/-- Where single samples cost nothing, a split leaves one side without a sample
and no batch is made. A reserved environment name, an image that cannot be
measured and rows of experts of two types are refused as well. -/
theorem prepare_batch_refuses :
    (WellFormed creditedSample ∧ WellFormed supervisedSample ∧
      prepareBatch noImages [creditedSample, supervisedSample] 8 2 [0, 0] 1 (fun _ => 0) 1 =
        .error "list index out of range") ∧
    prepareBatch noImages [{ creditedSample with envName := "all" }] 8 1 [0] 1
        (fun lengths => (lengths.sum : Int)) 1 =
      .error "env_name='all' is reserved for aggregate metric keys" ∧
    prepareBatch noImages [{ creditedSample with
        mmTokenTypeIds := some [1, 0, 0]
        mmKwargs := some [("pixel_values", ⟨"uint8", [1, 1], [0]⟩)] }] 2 1 [0] 1
        (fun lengths => (lengths.sum : Int)) 1 =
      .error "'image_grid_thw'" ∧
    prepareBatch noImages
        [{ creditedSample with routedExperts := some ⟨[0, 0, 0], [3, 1, 1], "uint8"⟩ },
          { supervisedSample with routedExperts := some ⟨[0, 0, 0, 0], [2, 1, 1], "int16"⟩ }] 8 1
        [0, 0] 1 (fun lengths => (lengths.sum : Int)) 1 =
      .error "AssertionError" :=
  ⟨⟨credited_well_formed, supervised_well_formed, by decide +kernel⟩, by decide +kernel,
    by decide +kernel, by decide +kernel⟩

/-! ## Lock-step -/

/-- The workers of a grid run in step, and the rows it was made of fit. -/
structure LockStep (seqLen numTrainWorkers padToMultipleOf : Nat)
    (rows : List (MicroBatch Scalar)) (grid : List (List (MicroBatch Scalar))) : Prop where
  workers : grid.length = numTrainWorkers
  height : ∃ steps, 1 ≤ steps ∧ ∀ worker ∈ grid, worker.length = steps
  modality : ∀ first ∈ grid, ∀ second ∈ grid, ∀ (step : Nat) (row other : MicroBatch Scalar),
    first[step]? = some row → second[step]? = some other →
      isMultimodalSample row = isMultimodalSample other
  fits : ∀ row ∈ rows, 1 ≤ row.inputIds.length ∧ row.inputIds.length ≤ seqLen
  origin : ∀ row ∈ grid.flatten, ∃ source ∈ rows, ∃ padded,
    padMicroBatch source padToMultipleOf = .ok padded ∧ (row = padded ∨ row = makeDummyBatch padded)
  multiple : ∀ row ∈ grid.flatten, padToMultipleOf ∣ row.inputIds.length
  sent : assertGrid numTrainWorkers grid = .ok ()
  joined : ∀ earlier : List (List (MicroBatch Scalar)), assertGrid numTrainWorkers earlier = .ok () →
    assertGrid numTrainWorkers (List.zipWith (· ++ ·) earlier grid) = .ok ()

omit [Zero Scalar] [One Scalar] [DecidableEq Scalar] in
/-- A sender takes exactly the grids of one list for each rank, all of one length. -/
theorem assert_grid_iff (dataWorldSize : Nat) (grid : List (List (MicroBatch Scalar))) :
    assertGrid dataWorldSize grid = .ok () ↔
      grid.length = dataWorldSize ∧ ∃ steps, ∀ worker ∈ grid, worker.length = steps := by
  rw [assertGrid]
  by_cases ranks : grid.length = dataWorldSize
  · rw [if_neg (not_not.mpr ranks)]
    by_cases uneven : grid.any (fun list => decide (list.length ≠ (grid.headD []).length)) = true
    · rw [if_pos uneven]
      constructor
      · rintro ⟨⟩
      · rintro ⟨-, steps, even⟩
        obtain ⟨worker, member, differs⟩ := List.any_eq_true.mp uneven
        obtain ⟨first, rest, rfl⟩ := List.exists_cons_of_ne_nil (List.ne_nil_of_mem member)
        rw [decide_eq_true_eq, List.headD_cons, even worker member, even first List.mem_cons_self]
          at differs
        exact absurd rfl differs
    · rw [if_neg uneven]
      refine ⟨fun _ => ⟨ranks, (grid.headD []).length, ?_⟩, fun _ => rfl⟩
      intro worker member
      by_contra differs
      exact uneven (List.any_eq_true.mpr ⟨worker, member, decide_eq_true differs⟩)
  · rw [if_pos ranks]
    constructor
    · rintro ⟨⟩
    · exact fun accepted => absurd accepted.1 ranks

/-- All data ranks run in step. Every sample keeps a token of its own, and a
single sample of at least one token has a positive cost when several workers
share the batch. -/
theorem prepare_batch_lock_step (numpy : Numpy) (rollouts : List (TrainingSample Scalar))
    (seqLen numTrainWorkers : Nat) (idxs : List Nat) (numLoras : Nat) (binCost : List Nat → Int)
    (padToMultipleOf : Nat) (nonempty : rollouts ≠ []) (workers : 1 ≤ numTrainWorkers)
    (pads : 1 ≤ padToMultipleOf) (paired : idxs.length = rollouts.length)
    (slots : ∀ idx ∈ idxs, idx < numLoras)
    (prepares : ∀ sample ∈ rollouts, ∃ prepared,
      prepareSample numpy sample seqLen = .ok prepared ∧ prepared.inputIds ≠ [])
    (uniform : UniformExperts (rollouts.map TrainingSample.routedExperts))
    (costs : 1 < numTrainWorkers → ∀ length, 1 ≤ length → 0 < binCost [length]) :
    ∃ samples rows grid,
      prepareSamples numpy seqLen (idxs.zip rollouts) = .ok samples ∧
      packedSamplesIntoMicroBs samples seqLen numLoras numTrainWorkers binCost = .ok rows ∧
      prepareBatch numpy rollouts seqLen numTrainWorkers idxs numLoras binCost padToMultipleOf =
        .ok grid ∧
      LockStep seqLen numTrainWorkers padToMultipleOf rows grid ∧
      (1 < numTrainWorkers →
        targetCount (packBins samples seqLen).length numTrainWorkers ≤
            (batchBins samples seqLen numTrainWorkers binCost).length ∨
          splitCandidates (batchBins samples seqLen numTrainWorkers binCost) binCost = []) := by
  obtain ⟨samples, accepted, each⟩ := prepare_samples_accepts numpy seqLen (idxs.zip rollouts)
    (fun pair member =>
      have ⟨prepared, ok, _⟩ := prepares pair.2 (List.of_mem_zip member).2
      ⟨prepared, ok⟩)
  have packable := accepted_packable numpy rollouts seqLen idxs numLoras samples slots uniform each
  have tokens : ∀ sample ∈ samples, 1 ≤ tokenCount sample := by
    intro sample member
    obtain ⟨pair, inside, -, ok⟩ := related_left each sample member
    obtain ⟨prepared, preparedOk, some⟩ := prepares pair.2 (List.of_mem_zip inside).2
    obtain rfl : prepared = sample.2 := Except.ok.inj (preparedOk.symm.trans ok)
    exact List.length_pos_iff.mpr some
  have sampleCosts : 1 < numTrainWorkers → ∀ sample ∈ samples, 0 < binCost [tokenCount sample] :=
    fun several sample member => costs several _ (tokens sample member)
  obtain ⟨rows, padded, dummies, grid, packed, prepared, gridded⟩ := packable_gridded numpy rollouts
    seqLen numTrainWorkers idxs numLoras binCost padToMultipleOf samples workers pads accepted packable
    sampleCosts
  obtain ⟨-, finished⟩ := batch_bins_holds samples seqLen numTrainWorkers binCost
    (fun sample member => (packable.prepared sample member).fits) sampleCosts
  refine ⟨samples, rows, grid, accepted, packed, prepared, ?_, finished⟩
  obtain ⟨mmSteps, textSteps, steps⟩ := gridded.steps
  have height : ∀ worker ∈ grid, worker.length = mmSteps + textSteps :=
    fun worker member => (steps worker member).1
  have sent := (assert_grid_iff numTrainWorkers grid).mpr ⟨gridded.workers, _, height⟩
  constructor
  case workers => exact gridded.workers
  case height =>
    refine ⟨mmSteps + textSteps, ?_, height⟩
    by_contra none
    have empty : grid.flatten = [] := by
      rw [List.flatten_eq_nil_iff]
      intro worker member
      have count := height worker member
      exact List.length_eq_zero_iff.mp (by omega)
    have noPadded : padded.length = 0 := by
      have counted := gridded.every.length_eq
      rw [empty, List.length_append, List.length_nil] at counted
      omega
    have noBins : (batchBins samples seqLen numTrainWorkers binCost).length = 0 := by
      rw [gridded.listed.length_eq, gridded.pads.length_eq, noPadded]
    have noSamples : samples.length = 0 := by
      rw [← gridded.holds.every.length_eq, List.length_eq_zero_iff.mp noBins]
      rfl
    have some : 0 < rollouts.length := List.length_pos_iff.mpr nonempty
    have counted := each.length_eq
    rw [List.length_zip, noSamples, paired, Nat.min_self] at counted
    omega
  case modality =>
    intro first firstMember second secondMember step row other found otherFound
    have one := (steps first firstMember).2 step row found
    have two := (steps second secondMember).2 step other otherFound
    rw [Bool.eq_iff_iff, one, two]
  case fits =>
    intro row member
    obtain ⟨bin, inside, lists⟩ := related_left gridded.listed row member
    have packedBin := gridded.holds.packed bin inside
    rw [lists.tokens]
    refine ⟨?_, packedBin.fits⟩
    obtain ⟨first, rest, listed⟩ := List.exists_cons_of_ne_nil packedBin.nonempty
    have one := tokens first (gridded.holds.every.mem_iff.mp
      (List.mem_flatMap.mpr ⟨bin, inside, by rw [listed]; exact List.mem_cons_self⟩))
    rw [listed, totalTokens, List.map_cons, List.sum_cons]
    omega
  case origin =>
    intro row member
    rcases List.mem_append.mp (gridded.every.mem_iff.mp member) with real | copy
    · obtain ⟨source, inside, paddedSource⟩ := related_left gridded.pads row real
      exact ⟨source, inside, row, paddedSource.computed, .inl rfl⟩
    · obtain ⟨original, listed, same⟩ := gridded.copies row copy
      obtain ⟨source, inside, paddedSource⟩ := related_left gridded.pads original listed
      exact ⟨source, inside, original, paddedSource.computed, .inr same⟩
  case multiple =>
    intro row member
    exact (grid_row_aligned padToMultipleOf rows padded dummies gridded.pads gridded.copies row
      (gridded.every.mem_iff.mp member)).2
  case sent => exact sent
  case joined =>
    intro earlier earlierSent
    obtain ⟨ranks, earlierSteps, earlierHeight⟩ := (assert_grid_iff _ _).mp earlierSent
    rw [assert_grid_iff]
    refine ⟨by rw [List.length_zipWith, ranks, gridded.workers, Nat.min_self],
      earlierSteps + (mmSteps + textSteps), ?_⟩
    intro worker member
    obtain ⟨position, inside, rfl⟩ := List.getElem_of_mem member
    rw [List.length_zipWith] at inside
    rw [List.getElem_zipWith, List.length_append, earlierHeight _ (List.getElem_mem _),
      height _ (List.getElem_mem _)]

/-- Three workers share the two samples, so one row is a dummy. -/
theorem prepare_batch_lock_step_three_workers :
    ∃ samples rows grid,
      prepareSamples noImages 8 ([0, 0].zip [creditedSample, supervisedSample]) = .ok samples ∧
      packedSamplesIntoMicroBs samples 8 1 3 (fun lengths => (lengths.sum : Int)) = .ok rows ∧
      prepareBatch noImages [creditedSample, supervisedSample] 8 3 [0, 0] 1
        (fun lengths => (lengths.sum : Int)) 4 = .ok grid ∧
      LockStep 8 3 4 rows grid ∧
      (1 < 3 →
        targetCount (packBins samples 8).length 3 ≤
            (batchBins samples 8 3 (fun lengths => (lengths.sum : Int))).length ∨
          splitCandidates (batchBins samples 8 3 (fun lengths => (lengths.sum : Int)))
            (fun lengths => (lengths.sum : Int)) = []) :=
  prepare_batch_lock_step noImages [creditedSample, supervisedSample] 8 3 [0, 0] 1
    (fun lengths => (lengths.sum : Int)) 4 (by decide) (by decide) (by decide) rfl (by decide)
    (by
      intro sample member
      rcases List.mem_cons.mp member with rfl | later
      · exact ⟨wholeSample creditedSample [0, 1, 1], by decide +kernel, by decide⟩
      · obtain rfl := List.mem_singleton.mp later
        exact ⟨wholeSample supervisedSample [0, 0], by decide +kernel, by decide⟩)
    (by
      intro first second listed _
      simp [creditedSample, supervisedSample] at listed)
    (by
      intro _ length positive
      rw [List.sum_singleton]
      omega)

/-- Two samples of at least one token that share a bin, where single samples
cost nothing: no grid is returned. -/
theorem prepare_batch_unpriced :
    prepareSample noImages creditedSample 8 = .ok (wholeSample creditedSample [0, 1, 1]) ∧
      prepareSample noImages supervisedSample 8 = .ok (wholeSample supervisedSample [0, 0]) ∧
      prepareBatch noImages [creditedSample, supervisedSample] 8 2 [0, 0] 1 (fun _ => 0) 1 =
        .error "list index out of range" := by
  decide +kernel

end PrimeRl.Trainer.Batch
