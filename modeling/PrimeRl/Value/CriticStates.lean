import PrimeRl.Value.StitchedCredit

/-!
# The states behind critic targets

A prediction is read at the image of its original position, and the target of a
trained position is the lambda-return of the predictions from that position on:
along its own branch, or along the layout when credit is stitched. All other
positions have no credit.
-/

namespace PrimeRl.Value.CriticStates

open PrimeRl.Orchestrator.Trajectories PrimeRl.Orchestrator.TrainingLayout
open PrimeRl.Orchestrator.ValueContext
open PrimeRl.Value.Credit PrimeRl.Value.Gae PrimeRl.Value.Scatter PrimeRl.Value.StitchedCredit
open PrimeRl.Value.Trajectory

universe u
variable {Scalar : Type u}

/-- Where the critic sees an original position. -/
def imageOf (inserted : Option TokenPrefix) (position : Nat) : Nat :=
  inserted.elim position (fun context => context.image position)

/-- The response has one stream for each sample, as long as its critic input. -/
def Matching (inserted : Option TokenPrefix) (seqLen : Nat) (samples : List ValueTrajectorySample)
    (predictions : List (List Scalar)) : Prop :=
  List.Forall₂ (fun sample values => ∃ inputTokens,
    valueInput sample.tokenIds inserted seqLen = .ok inputTokens ∧
      values.length = inputTokens.length) samples predictions

/-- Projected streams read the response at the images of the visible positions. -/
def Reads (inserted : Option TokenPrefix) (seqLen : Nat) (sample : ValueTrajectorySample)
    (values projected : List Scalar) : Prop :=
  projected.length = visibleLength inserted seqLen sample ∧
    ∀ position : Nat, position < projected.length →
      projected[position]? = values[imageOf inserted position]?

theorem project_values_reads (inserted : Option TokenPrefix) (seqLen : Nat)
    (sample : ValueTrajectorySample) (values : List Scalar) (filled : 1 ≤ sample.tokenIds.length)
    (inputTokens : List Nat) (input : valueInput sample.tokenIds inserted seqLen = .ok inputTokens)
    (width : values.length = inputTokens.length) :
    ∃ projected, projectValues inserted values = .ok projected ∧
      Reads inserted seqLen sample values projected := by
  have inputLength := value_input_length inserted seqLen sample inputTokens input
  rw [← width] at inputLength
  cases inserted with
  | none => exact ⟨values, rfl, inputLength, fun position _ => rfl⟩
  | some context =>
    obtain ⟨projected, accepted, length, reads⟩ := context.project_ok values
      sample.tokenIds.length filled inputLength
    exact ⟨projected, accepted, length, fun position _ => reads position⟩

/-- A matching response is accepted and read sample by sample. -/
theorem project_predictions_reads (inserted : Option TokenPrefix) (seqLen : Nat)
    (samples : List ValueTrajectorySample) (predictions : List (List Scalar))
    (filled : ∀ sample ∈ samples, 1 ≤ sample.tokenIds.length)
    (response : Matching inserted seqLen samples predictions) :
    ∃ projected, projectPredictions inserted seqLen samples predictions = .ok projected ∧
      projected.length = samples.length ∧
      ∀ (sampleIndex : Nat) (sample : ValueTrajectorySample), samples[sampleIndex]? = some sample →
        ∃ values row, predictions[sampleIndex]? = some values ∧ projected[sampleIndex]? = some row ∧
          Reads inserted seqLen sample values row := by
  induction response with
  | nil => exact ⟨[], rfl, rfl, fun sampleIndex sample listed => absurd listed nofun⟩
  | cons here later inductionHypothesis =>
    rename_i sample values samples predictions
    obtain ⟨inputTokens, input, width⟩ := here
    obtain ⟨row, accepted, reads⟩ := project_values_reads inserted seqLen sample values
      (filled sample List.mem_cons_self) inputTokens input width
    obtain ⟨rest, restAccepted, restLength, restReads⟩ := inductionHypothesis
      (fun other member => filled other (List.mem_cons_of_mem _ member))
    refine ⟨row :: rest, ?_, by rw [List.length_cons, List.length_cons, restLength], ?_⟩
    · simp only [projectPredictions, input, width, ne_eq, not_true_eq_false, if_false, accepted,
        restAccepted, bind, Except.bind]
    · intro sampleIndex other listed
      cases sampleIndex with
      | zero =>
        obtain rfl := Option.some.inj listed
        exact ⟨values, row, rfl, rfl, reads⟩
      | succ sampleIndex => exact restReads sampleIndex other listed

/-- An exact layout that lists every trained position once. -/
structure LayoutPartition (samples : List ValueTrajectorySample) (layout : TrainingLayout) : Prop
    extends LayoutExact samples layout where
  distinct : (layout.trainableSpans.flatMap sampleTokens).Nodup

/-- The materialized layout partitions the trained positions. -/
theorem materialized_layout_partition {trace : PrimeRl.Orchestrator.MessageGraph.Trace Scalar}
    (forked : Forked trace) (envName : String) (captureSampledMasks capturePolicyVersions : Bool)
    (result : TrainingMaterialization Scalar)
    (materialized : materializeTrainingData trace envName captureSampledMasks
      capturePolicyVersions = .ok result) (samples : List ValueTrajectorySample)
    (copied : snapshotSamples result.samples result.sampledMasks = .ok samples)
    (layout : TrainingLayout) (listed : result.layout = some layout) :
    LayoutPartition samples layout := by
  have covers := materialized_layout_exact forked envName captureSampledMasks
    capturePolicyVersions result materialized samples copied layout listed
  obtain ⟨sameLayout, -⟩ := materialized_eq forked envName captureSampledMasks
    capturePolicyVersions result materialized
  obtain rfl := Option.some.inj (sameLayout.symm.trans listed)
  exact ⟨covers, (sample_spans_positions forked).1⟩

/-- The trained tokens whose values form the return of a token, in time order:
those of its branch, or those of the layout. -/
def tokenOrder (layout : Option TrainingLayout) (inserted : Option TokenPrefix) (seqLen : Nat)
    (sampleIndex : Nat) (sample : ValueTrajectorySample) : List (Nat × Nat) :=
  match layout with
  | none => (actionIndices (sample.mask.take (visibleLength inserted seqLen sample))).map
      (fun position => (sampleIndex, position))
  | some stitched => stitched.trainableSpans.flatMap sampleTokens

/-- The prediction for an original token. -/
def valueAt [Zero Scalar] (inserted : Option TokenPrefix) (predictions : List (List Scalar)) (token : Nat × Nat) :
    Scalar :=
  cell predictions token.1 (imageOf inserted token.2)

theorem visible_le (inserted : Option TokenPrefix) (seqLen : Nat) (sample : ValueTrajectorySample) :
    visibleLength inserted seqLen sample ≤ sample.mask.length := by
  rw [← sample.aligned.1, visibleLength]
  split_ifs
  · exact Nat.le_refl _
  · exact Nat.min_le_left _ _

/-- Reading a projected stream is reading the response at the image. -/
theorem value_at_eq [Zero Scalar] {inserted : Option TokenPrefix} {seqLen : Nat} {sample : ValueTrajectorySample}
    {predictions : List (List Scalar)} {values row : List Scalar} {sampleIndex position : Nat}
    (found : predictions[sampleIndex]? = some values)
    (reads : Reads inserted seqLen sample values row) (inside : position < row.length) :
    valueAt inserted predictions (sampleIndex, position) = row.getD position 0 := by
  rw [valueAt, cell, List.getD_eq_getElem?_getD (l := predictions), found, Option.getD_some,
    List.getD_eq_getElem?_getD, List.getD_eq_getElem?_getD, reads.2 position inside]

/-- Slices inside the streams are read token by token. -/
theorem gather_eq [Zero Scalar] (projected : List (List Scalar)) (spans : List TrainableSpan)
    (readable : ∀ span ∈ spans, span.length = 0 ∨
      span.sampleStart + span.length ≤ (projected.getD span.sampleIndex []).length) :
    gather projected spans =
      (spans.flatMap sampleTokens).map (fun token => cell projected token.1 token.2) := by
  rw [gather, List.map_flatMap, List.flatMap_def, List.flatMap_def]
  congr 1
  apply List.map_congr_left
  intro span listed
  rw [sampleTokens, List.map_map]
  rcases readable span listed with empty | bounded
  · rw [empty, List.take_zero, List.range'_zero, List.map_nil]
  · apply List.ext_getElem
    · rw [List.length_take, List.length_drop, List.length_map, List.length_range']
      omega
    · intro index inSlice inRange
      rw [List.length_map, List.length_range'] at inRange
      have inside : span.sampleStart + index < (projected.getD span.sampleIndex []).length := by omega
      simp only [List.getElem_take, List.getElem_drop, List.getElem_map, List.getElem_range',
        Nat.one_mul, Function.comp_apply, cell]
      rw [List.getD_eq_getElem _ _ inside]

theorem covered_eq (spans : List TrainableSpan) :
    covered spans = (spans.flatMap sampleTokens).length := by
  rw [covered, List.length_flatMap]
  congr 1
  apply List.map_congr_left
  intro span _
  rw [sampleTokens, List.length_map, List.length_range']

theorem action_indices_all (length : Nat) :
    actionIndices (List.replicate length true) = List.range length := by
  rw [actionIndices, List.length_replicate, List.filter_eq_self]
  intro index member
  rw [List.getD_replicate _ (List.mem_range.mp member)]

section
variable [CommRing Scalar] [LinearOrder Scalar]

/-- The lambda-return of a trained token from the predictions at the images of
the tokens from it on. -/
def LambdaReturn (trajectory : ValueTrajectory Scalar) (predictions : List (List Scalar))
    (config : ValueFunctionConfig Scalar) (layout : Option TrainingLayout) (sampleIndex : Nat)
    (sample : ValueTrajectorySample) (position : Nat) (target : Scalar) : Prop :=
  ∃ place, (tokenOrder layout trajectory.inserted config.seqLen sampleIndex sample)[place]? =
      some (sampleIndex, position) ∧
    target = lambdaAdvantage trajectory.reward config.gamma config.valueTargetLambda
        (((tokenOrder layout trajectory.inserted config.seqLen sampleIndex sample).drop place).map
          (valueAt trajectory.inserted predictions)) +
      valueAt trajectory.inserted predictions (sampleIndex, position)

/-- The credit rows of one sample: lambda-returns at the visible trained
positions and nothing elsewhere. -/
structure Credited (trajectory : ValueTrajectory Scalar) (predictions : List (List Scalar))
    (config : ValueFunctionConfig Scalar) (layout : Option TrainingLayout) (sampleIndex : Nat)
    (sample : ValueTrajectorySample) (advantages returns : List Scalar) : Prop where
  advantageWidth : advantages.length = sample.tokenIds.length
  returnWidth : returns.length = sample.tokenIds.length
  trained : ∀ position : Nat, position < visibleLength trajectory.inserted config.seqLen sample →
    sample.mask[position]? = some true → ∃ target, returns[position]? = some target ∧
      LambdaReturn trajectory predictions config layout sampleIndex sample position target
  untrained : ∀ position : Nat, position < sample.tokenIds.length →
    (visibleLength trajectory.inserted config.seqLen sample ≤ position ∨
      sample.mask[position]? = some false) →
    advantages[position]? = some 0 ∧ returns[position]? = some 0

/-- Credit of every branch by itself, sample by sample. -/
theorem branch_credit_each (reward : Scalar) (config : ValueFunctionConfig Scalar)
    (samples : List ValueTrajectorySample) (projected : List (List Scalar))
    (sameLength : projected.length = samples.length)
    (shorter : ∀ (sampleIndex : Nat) sample values, samples[sampleIndex]? = some sample →
      projected[sampleIndex]? = some values → values.length ≤ sample.mask.length) :
    ∃ advantages returns, branchCredit reward config samples projected = .ok (advantages, returns) ∧
      advantages.length = samples.length ∧ returns.length = samples.length ∧
      ∀ (sampleIndex : Nat) sample values, samples[sampleIndex]? = some sample →
        projected[sampleIndex]? = some values →
        ∃ state, Processed reward config.gamma config.gaeLambda config.valueTargetLambda values
            (sample.mask.take values.length) 0 state ∧
          advantages[sampleIndex]? = some (state.advantages ++
            List.replicate (sample.tokenIds.length - values.length) 0) ∧
          returns[sampleIndex]? = some (state.returns ++
            List.replicate (sample.tokenIds.length - values.length) 0) := by
  induction samples generalizing projected with
  | nil =>
    rw [List.length_nil, List.length_eq_zero_iff] at sameLength
    subst sameLength
    exact ⟨[], [], rfl, rfl, rfl, fun sampleIndex sample values listed => absurd listed nofun⟩
  | cons sample samples inductionHypothesis =>
    obtain ⟨values, projected, rfl⟩ := List.exists_cons_of_length_eq_add_one sameLength
    obtain ⟨advantages, returns, laterOk, advantageRows, width, each⟩ := inductionHypothesis projected
      (Nat.succ.inj sameLength)
      (fun sampleIndex other row listed found => shorter (sampleIndex + 1) other row listed found)
    have fits := shorter 0 sample values rfl rfl
    obtain ⟨state, computed, processed⟩ := compute_gae_processed reward config.gamma
      config.gaeLambda config.valueTargetLambda values (sample.mask.take values.length)
      (by rw [List.length_take]; omega)
    refine ⟨(state.advantages ++ List.replicate (sample.tokenIds.length - values.length) 0) ::
      advantages, (state.returns ++ List.replicate (sample.tokenIds.length - values.length) 0) ::
      returns, ?_, by rw [List.length_cons, List.length_cons, advantageRows],
      by rw [List.length_cons, List.length_cons, width], ?_⟩
    · simp only [branchCredit, computed, laterOk, bind, Except.bind]
    · intro sampleIndex other row listed found
      cases sampleIndex with
      | zero =>
        obtain rfl := Option.some.inj listed
        obtain rfl := Option.some.inj found
        exact ⟨state, processed, rfl, rfl⟩
      | succ sampleIndex => exact each sampleIndex other row listed found

/-- Branch credit reads the states of its own branch. -/
theorem branch_credited (trajectory : ValueTrajectory Scalar) (predictions : List (List Scalar))
    (config : ValueFunctionConfig Scalar) (sampleIndex : Nat) (sample : ValueTrajectorySample)
    (values row : List Scalar) (found : predictions[sampleIndex]? = some values)
    (reads : Reads trajectory.inserted config.seqLen sample values row) (state : GaeState Scalar)
    (processed : Processed trajectory.reward config.gamma config.gaeLambda config.valueTargetLambda
      row (sample.mask.take row.length) 0 state) :
    Credited trajectory predictions config none sampleIndex sample
      (state.advantages ++ List.replicate (sample.tokenIds.length - row.length) 0)
      (state.returns ++ List.replicate (sample.tokenIds.length - row.length) 0) := by
  have fits := visible_le trajectory.inserted config.seqLen sample
  have aligned := sample.aligned.1
  have width := reads.1
  have advantageWidth := processed.advantageWidth
  have returnWidth := processed.returnWidth
  rw [List.length_take] at advantageWidth returnWidth
  have seenMask (position : Nat) (seen : position < row.length) :
      (sample.mask.take row.length)[position]? = sample.mask[position]? := by
    rw [List.getElem?_take, if_pos seen]
  refine ⟨?_, ?_, ?_, ?_⟩
  · rw [List.length_append, List.length_replicate]
    omega
  · rw [List.length_append, List.length_replicate]
    omega
  · intro position seen trained
    rw [← width] at seen
    have member : position ∈ actionIndices (sample.mask.take row.length) :=
      (mem_action_indices_iff _ _).mpr ((seenMask position seen).trans trained)
    obtain ⟨place, listed⟩ := List.mem_iff_getElem?.mp member
    have target := processed.returns place position listed (Nat.zero_le _)
    refine ⟨_, (List.getElem?_append_left (by omega)).trans target, place, ?_, ?_⟩
    · rw [tokenOrder, ← width, List.getElem?_map, listed]
      rfl
    · rw [value_at_eq found reads seen, tokenOrder, ← width, ← List.map_drop, List.map_map,
        actionValues, ← List.map_drop]
      congr 2
      apply List.map_congr_left
      intro later inOrder
      have inMask := (mem_action_indices_iff _ _).mp (List.mem_of_mem_drop inOrder)
      have inside := (List.getElem?_eq_some_iff.mp inMask).1
      rw [List.length_take] at inside
      exact (value_at_eq found reads (by omega)).symm
  · intro position inSample masked
    by_cases seen : position < row.length
    · rcases masked with beyond | masked
      · omega
      · obtain ⟨advantage, target⟩ := processed.context position
          ((seenMask position seen).trans masked)
        exact ⟨(List.getElem?_append_left (by omega)).trans advantage,
          (List.getElem?_append_left (by omega)).trans target⟩
    · have padding : position - min row.length sample.mask.length <
          sample.tokenIds.length - row.length := by omega
      refine ⟨?_, ?_⟩
      · rw [List.getElem?_append_right (by omega), advantageWidth, List.getElem?_replicate,
          if_pos padding]
      · rw [List.getElem?_append_right (by omega), returnWidth, List.getElem?_replicate,
          if_pos padding]

/-- Rows that hold a flat stream at the tokens of a layout and nothing elsewhere. -/
structure Scattered (samples : List ValueTrajectorySample) (tokens : List (Nat × Nat))
    (flat : List Scalar) (rows : List (List Scalar)) : Prop where
  length : rows.length = samples.length
  each : ∀ (sampleIndex : Nat) (sample : ValueTrajectorySample),
    samples[sampleIndex]? = some sample →
    ∃ row, rows[sampleIndex]? = some row ∧ row.length = sample.tokenIds.length ∧
      (∀ (place position : Nat), tokens[place]? = some (sampleIndex, position) →
        position < sample.tokenIds.length → row[position]? = some (flat.getD place 0)) ∧
      ∀ position : Nat, position < sample.tokenIds.length → (sampleIndex, position) ∉ tokens →
        row[position]? = some 0

omit [LinearOrder Scalar] in
/-- Scattering over spans without common tokens that lie inside the samples. -/
theorem scatter_scattered (samples : List ValueTrajectorySample) (spans : List TrainableSpan)
    (flat : List Scalar) (available : covered spans ≤ flat.length)
    (inside : ∀ span ∈ spans, Inside (samples.map (fun sample =>
      List.replicate sample.tokenIds.length (0 : Scalar))) span)
    (distinct : (spans.flatMap sampleTokens).Nodup) :
    Scattered samples (spans.flatMap sampleTokens) flat (scatter flat 0 spans
      (samples.map (fun sample => List.replicate sample.tokenIds.length 0))) := by
  obtain ⟨widths, cells, others⟩ := scatter_cells flat 0 spans
    (samples.map (fun sample => List.replicate sample.tokenIds.length (0 : Scalar)))
    (by omega) inside distinct
  constructor
  case length =>
    have lengths := congrArg List.length widths
    rwa [List.length_map, List.length_map, List.length_map] at lengths
  case each =>
    intro sampleIndex sample found
    have entry := congrArg (fun lengths => lengths[sampleIndex]?) widths
    simp only [List.getElem?_map, found, Option.map_some, Option.map_eq_some_iff,
      List.length_replicate] at entry
    obtain ⟨row, rowFound, width⟩ := entry
    have read (position : Nat) (within : position < sample.tokenIds.length) :
        row[position]? = some (cell (scatter flat 0 spans
          (samples.map (fun sample => List.replicate sample.tokenIds.length (0 : Scalar))))
          sampleIndex position) := by
      rw [cell, List.getD_eq_getElem?_getD (l := scatter _ _ _ _), rowFound, Option.getD_some,
        List.getElem?_eq_getElem (width ▸ within), List.getD_eq_getElem _ _ (width ▸ within)]
    refine ⟨row, rowFound, width, ?_, ?_⟩
    · intro place position listed within
      rw [read position within, cells place sampleIndex position listed, Nat.zero_add]
    · intro position within absent
      rw [read position within, others sampleIndex position absent]
      simp [cell, List.getD_eq_getElem?_getD, found, within]

/-- Stitched credit is one pass over the values of all tokens in layout order,
written back to them. -/
theorem stitched_streams (trajectory : ValueTrajectory Scalar) (config : ValueFunctionConfig Scalar)
    (layout : TrainingLayout) (partition : LayoutPartition trajectory.samples layout)
    (visible : Visible trajectory config.seqLen) (projected : List (List Scalar))
    (sameLength : projected.length = trajectory.samples.length)
    (widths : ∀ (sampleIndex : Nat) (sample : ValueTrajectorySample),
      trajectory.samples[sampleIndex]? = some sample → ∃ row, projected[sampleIndex]? = some row ∧
        row.length = visibleLength trajectory.inserted config.seqLen sample) :
    ∃ (state : GaeState Scalar) (advantages returns : List (List Scalar)),
      stitchedCredit trajectory config projected layout = .ok (advantages, returns) ∧
      (∀ (place : Nat) token, (layout.trainableSpans.flatMap sampleTokens)[place]? = some token →
        state.advantages.getD place 0 = lambdaAdvantage trajectory.reward config.gamma config.gaeLambda
          (((layout.trainableSpans.flatMap sampleTokens).drop place).map
            (fun token => cell projected token.1 token.2)) ∧
        state.returns.getD place 0 = lambdaAdvantage trajectory.reward config.gamma
          config.valueTargetLambda (((layout.trainableSpans.flatMap sampleTokens).drop place).map
            (fun token => cell projected token.1 token.2)) + cell projected token.1 token.2) ∧
      Scattered trajectory.samples (layout.trainableSpans.flatMap sampleTokens) state.advantages
        advantages ∧
      Scattered trajectory.samples (layout.trainableSpans.flatMap sampleTokens) state.returns
        returns := by
  have zeros (sampleIndex : Nat) (sample : ValueTrajectorySample)
      (found : trajectory.samples[sampleIndex]? = some sample) :
      ((trajectory.samples.map (fun sample =>
        List.replicate sample.tokenIds.length (0 : Scalar))).map List.length).getD sampleIndex 0 =
        sample.tokenIds.length := by
    simp [List.getD_eq_getElem?_getD, found]
  have spanBounds : ∀ span ∈ layout.trainableSpans,
      Inside (trajectory.samples.map (fun sample =>
        List.replicate sample.tokenIds.length (0 : Scalar))) span ∧
        (span.length = 0 ∨
          span.sampleStart + span.length ≤ (projected.getD span.sampleIndex []).length) := by
    intro span listed
    by_cases empty : span.length = 0
    · exact ⟨Or.inl empty, Or.inl empty⟩
    · have last : (span.sampleIndex, span.sampleStart + span.length - 1) ∈
          layout.trainableSpans.flatMap sampleTokens := by
        refine List.mem_flatMap.mpr ⟨span, listed, ?_⟩
        rw [mem_sample_tokens_iff]
        omega
      obtain ⟨sample, found, trained⟩ := (partition.exact _ _).mp last
      have inMask := (List.getElem?_eq_some_iff.mp trained).1
      have seen := visible sample (List.mem_of_getElem? found) _ trained
      obtain ⟨row, rowFound, width⟩ := widths _ sample found
      have sameRow : projected.getD span.sampleIndex [] = row := by
        rw [List.getD_eq_getElem?_getD, rowFound, Option.getD_some]
      refine ⟨Or.inr ⟨by rw [List.length_map]; exact partition.inside span listed, ?_⟩, Or.inr ?_⟩
      · rw [zeros _ sample found, sample.aligned.1]
        omega
      · rw [sameRow, width]
        omega
  have gathered := gather_eq projected layout.trainableSpans
    (fun span listed => (spanBounds span listed).2)
  have flatLength : (gather projected layout.trainableSpans).length =
      covered layout.trainableSpans := by
    rw [gathered, List.length_map, covered_eq]
  obtain ⟨state, computed, processed⟩ := compute_gae_processed trajectory.reward config.gamma
    config.gaeLambda config.valueTargetLambda (gather projected layout.trainableSpans)
    (List.replicate (gather projected layout.trainableSpans).length true) (by simp)
  have actions : actionValues (gather projected layout.trainableSpans)
      (List.replicate (gather projected layout.trainableSpans).length true) =
      gather projected layout.trainableSpans := by
    rw [actionValues, action_indices_all]
    apply List.ext_getElem (by simp)
    intro index inRange inFlat
    simp [List.getD_eq_getElem?_getD, inFlat]
  have advantageWidth := processed.advantageWidth
  have returnWidth := processed.returnWidth
  rw [List.length_replicate] at advantageWidth returnWidth
  have listedSpans : layout.trainableSpans.any
      (fun span => decide (projected.length ≤ span.sampleIndex)) = false := by
    rw [List.any_eq_false]
    intro span member
    have inside := partition.inside span member
    rw [decide_eq_true_eq]
    omega
  refine ⟨state, _, _, by
    rw [stitchedCredit, listedSpans]
    simp only [Bool.false_eq_true, if_false, computed, bind, Except.bind], ?_,
    scatter_scattered _ _ _ (by omega) (fun span listed => (spanBounds span listed).1)
      partition.distinct,
    scatter_scattered _ _ _ (by omega) (fun span listed => (spanBounds span listed).1)
      partition.distinct⟩
  intro place token listed
  have placeInside : place < (gather projected layout.trainableSpans).length := by
    rw [flatLength, covered_eq]
    exact (List.getElem?_eq_some_iff.mp listed).1
  have action : (actionIndices (List.replicate (gather projected layout.trainableSpans).length
      true))[place]? = some place := by
    rw [action_indices_all, List.getElem?_range placeInside]
  have own : (gather projected layout.trainableSpans).getD place 0 =
      cell projected token.1 token.2 := by
    rw [gathered, List.getD_eq_getElem?_getD, List.getElem?_map, listed]
    rfl
  have advantage := processed.advantages place place action (Nat.zero_le _)
  have target := processed.returns place place action (Nat.zero_le _)
  rw [List.getD_eq_getElem?_getD, advantage, List.getD_eq_getElem?_getD, target, actions, own,
    gathered, List.map_drop]
  exact ⟨rfl, rfl⟩

/-- Stitched credit reads the states of all trained tokens in layout order. -/
theorem stitched_credited (trajectory : ValueTrajectory Scalar) (predictions : List (List Scalar))
    (config : ValueFunctionConfig Scalar) (layout : TrainingLayout)
    (partition : LayoutPartition trajectory.samples layout)
    (visible : Visible trajectory config.seqLen) (projected : List (List Scalar))
    (sameLength : projected.length = trajectory.samples.length)
    (reads : ∀ (sampleIndex : Nat) (sample : ValueTrajectorySample),
      trajectory.samples[sampleIndex]? = some sample →
      ∃ values row, predictions[sampleIndex]? = some values ∧ projected[sampleIndex]? = some row ∧
        Reads trajectory.inserted config.seqLen sample values row) :
    ∃ advantages returns,
      stitchedCredit trajectory config projected layout = .ok (advantages, returns) ∧
      returns.length = trajectory.samples.length ∧
      ∀ (sampleIndex : Nat) (sample : ValueTrajectorySample),
        trajectory.samples[sampleIndex]? = some sample →
        ∃ advantageRow returnRow, advantages[sampleIndex]? = some advantageRow ∧
          returns[sampleIndex]? = some returnRow ∧
          Credited trajectory predictions config (some layout) sampleIndex sample advantageRow
            returnRow := by
  obtain ⟨state, advantages, returns, accepted, entries, advantageRows, returnRows⟩ :=
    stitched_streams trajectory config layout partition visible projected sameLength
      (fun sampleIndex sample found => by
        obtain ⟨values, row, -, projectedRow, rowReads⟩ := reads sampleIndex sample found
        exact ⟨row, projectedRow, rowReads.1⟩)
  have tokenRead (token : Nat × Nat) (listed : token ∈ layout.trainableSpans.flatMap sampleTokens) :
      cell projected token.1 token.2 = valueAt trajectory.inserted predictions token := by
    obtain ⟨sample, found, trained⟩ := (partition.exact _ _).mp listed
    obtain ⟨values, row, response, projectedRow, rowReads⟩ := reads token.1 sample found
    have seen := visible sample (List.mem_of_getElem? found) token.2 trained
    rw [← rowReads.1] at seen
    have sameRow : projected.getD token.1 [] = row := by
      rw [List.getD_eq_getElem?_getD, projectedRow, Option.getD_some]
    rw [cell, sameRow]
    exact (value_at_eq response rowReads seen).symm
  refine ⟨advantages, returns, accepted, returnRows.length, ?_⟩
  intro sampleIndex sample found
  obtain ⟨advantageRow, advantageFound, advantageLength, -, advantageOthers⟩ :=
    advantageRows.each sampleIndex sample found
  obtain ⟨returnRow, returnFound, returnLength, returnTokens, returnOthers⟩ :=
    returnRows.each sampleIndex sample found
  refine ⟨advantageRow, returnRow, advantageFound, returnFound, advantageLength, returnLength, ?_, ?_⟩
  · intro position _ trained
    have inside := (List.getElem?_eq_some_iff.mp trained).1
    rw [← sample.aligned.1] at inside
    have member := (partition.exact sampleIndex position).mpr ⟨sample, found, trained⟩
    obtain ⟨place, listed⟩ := List.mem_iff_getElem?.mp member
    refine ⟨_, returnTokens place position listed inside, place, listed, ?_⟩
    rw [(entries place _ listed).2, tokenRead _ member, tokenOrder]
    congr 2
    apply List.map_congr_left
    intro token later
    exact tokenRead token (List.mem_of_mem_drop later)
  · intro position inside masked
    have absent : (sampleIndex, position) ∉ layout.trainableSpans.flatMap sampleTokens := by
      intro member
      obtain ⟨other, alsoFound, trained⟩ := (partition.exact _ _).mp member
      obtain rfl := Option.some.inj (found.symm.trans alsoFound)
      rcases masked with beyond | masked
      · have seen := visible sample (List.mem_of_getElem? found) position trained
        omega
      · exact absurd (Option.some.inj (masked.symm.trans trained)) Bool.noConfusion
    exact ⟨advantageOthers position inside absent, returnOthers position inside absent⟩

/-- A layout that stitches is exact for its samples and sees all their trained
positions. -/
def Stitches (trajectory : ValueTrajectory Scalar) (seqLen : Nat) (layout : Option TrainingLayout) :
    Prop :=
  ∀ stitched, layout = some stitched →
    LayoutPartition trajectory.samples stitched ∧ Visible trajectory seqLen

/-- The layout the code stitches with is the captured one, and it has checked that
the critic sees all of its spans. -/
theorem sequential_layout_stitches [ToString Scalar] (trajectory : ValueTrajectory Scalar)
    (config : ValueFunctionConfig Scalar) (usesPolicyGae : Bool) (branchSemantics : Option String)
    (layout : Option TrainingLayout)
    (captured : ∀ stitched, trajectory.trainingLayout = some stitched →
      LayoutPartition trajectory.samples stitched)
    (chosen : sequentialValueLayout trajectory config usesPolicyGae branchSemantics = .ok layout) :
    Stitches trajectory config.seqLen layout := by
  rintro stitched rfl
  rcases sequential_layout_cases trajectory config usesPolicyGae branchSemantics _ chosen with
    ⟨impossible, -⟩ | ⟨other, same, found, checked⟩
  · exact absurd impossible nofun
  · obtain rfl := Option.some.inj same
    have partition := captured stitched found
    refine ⟨partition, ?_⟩
    intro sample member position trained
    by_cases conditioned : trajectory.inserted.isSome = true
    · rw [visibleLength, if_pos conditioned, sample.aligned.1]
      exact (List.getElem?_eq_some_iff.mp trained).1
    · have bounded := checked.resolve_left conditioned
      obtain ⟨sampleIndex, listed⟩ := List.mem_iff_getElem?.mp member
      obtain ⟨span, inLayout, isToken⟩ := List.mem_flatMap.mp
        ((partition.exact sampleIndex position).mpr ⟨sample, listed, trained⟩)
      obtain ⟨rfl, -, below⟩ := (mem_sample_tokens_iff span sampleIndex position).mp isToken
      have seen := bounded span inLayout
      simp only [List.getD_eq_getElem?_getD, List.getElem?_map, listed, Option.map_some,
        Option.getD_some] at seen
      rw [visibleLength, if_neg conditioned]
      omega

/-- A matching response is credited, on either path. -/
theorem compute_value_result_credited (trajectory : ValueTrajectory Scalar)
    (predictions : List (List Scalar)) (config : ValueFunctionConfig Scalar)
    (layout : Option TrainingLayout)
    (filled : ∀ sample ∈ trajectory.samples, 1 ≤ sample.tokenIds.length)
    (response : Matching trajectory.inserted config.seqLen trajectory.samples predictions)
    (stitches : Stitches trajectory config.seqLen layout) :
    ∃ valuePredictions advantages returns,
      computeValueResult trajectory predictions config layout =
        .ok (valuePredictions, advantages, returns) ∧
      returns.length = trajectory.samples.length ∧
      ∀ (sampleIndex : Nat) (sample : ValueTrajectorySample),
        trajectory.samples[sampleIndex]? = some sample →
        ∃ advantageRow returnRow, advantages[sampleIndex]? = some advantageRow ∧
          returns[sampleIndex]? = some returnRow ∧
          Credited trajectory predictions config layout sampleIndex sample advantageRow
            returnRow := by
  obtain ⟨projected, accepted, sameLength, reads⟩ := project_predictions_reads trajectory.inserted
    config.seqLen trajectory.samples predictions filled response
  have responseLength : predictions.length = trajectory.samples.length := response.length_eq.symm
  cases layout with
  | none =>
    obtain ⟨advantages, returns, computed, -, width, each⟩ := branch_credit_each trajectory.reward config
      trajectory.samples projected sameLength
      (by
        intro sampleIndex sample row listed found
        obtain ⟨values, other, -, alsoFound, rowReads⟩ := reads sampleIndex sample listed
        obtain rfl := Option.some.inj (found.symm.trans alsoFound)
        rw [rowReads.1]
        exact visible_le _ _ _)
    refine ⟨_, advantages, returns, by
      simp only [computeValueResult, responseLength, ne_eq, not_true_eq_false, if_false, accepted,
        bind, Except.bind, computed]; rfl, width, ?_⟩
    intro sampleIndex sample listed
    obtain ⟨values, row, found, projectedRow, rowReads⟩ := reads sampleIndex sample listed
    obtain ⟨state, processed, advantageFound, returnFound⟩ :=
      each sampleIndex sample row listed projectedRow
    exact ⟨_, _, advantageFound, returnFound, branch_credited trajectory predictions config
      sampleIndex sample values row found rowReads state processed⟩
  | some stitched =>
    obtain ⟨partition, visible⟩ := stitches stitched rfl
    obtain ⟨advantages, returns, computed, width, each⟩ := stitched_credited trajectory predictions config
      stitched partition visible projected sameLength reads
    refine ⟨_, advantages, returns, by
      simp only [computeValueResult, responseLength, ne_eq, not_true_eq_false, if_false, accepted,
        bind, Except.bind, computed]; rfl, width, each⟩

end

end PrimeRl.Value.CriticStates
