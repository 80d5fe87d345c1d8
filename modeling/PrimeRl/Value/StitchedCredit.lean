import Mathlib.Algebra.Order.Ring.Rat
import PrimeRl.Value.Scatter

/-!
# When stitching can be skipped

Without discount or decay the credit of a trainable token depends on its own
value and the reward only. Computing it branch by branch or over all trainable
tokens in generation order is then the same, whatever the shape of the rollout.
-/

namespace PrimeRl.Value.StitchedCredit

open PrimeRl.Orchestrator.Trajectories PrimeRl.Orchestrator.TrainingLayout
open PrimeRl.Orchestrator.ValueContext
open PrimeRl.Value.Credit PrimeRl.Value.Gae PrimeRl.Value.Scatter PrimeRl.Value.Trajectory

universe u
variable {Scalar : Type u}

/-- A row that holds a function of the value at every trained position. -/
def creditRow [Zero Scalar] (credit : Scalar → Scalar) (values : List Scalar) (mask : List Bool) :
    List Scalar :=
  (List.range mask.length).map (fun position =>
    if mask.getD position false then credit (values.getD position 0) else 0)

section
variable [CommRing Scalar]

/-- Without discount and target decay the returns are the reward, and without
policy decay the advantages are the reward less the value. -/
theorem compute_gae_credit (reward gaeLambda : Scalar) (values : List Scalar) (mask : List Bool)
    (width : values.length = mask.length) :
    ∃ advantages, computeGae reward 1 gaeLambda 1 values mask =
        .ok (advantages, creditRow (fun _ => reward) values mask) ∧
      (gaeLambda = 1 → advantages = creditRow (fun value => reward - value) values mask) := by
  obtain ⟨state, computed, processed⟩ :=
    compute_gae_processed reward 1 gaeLambda 1 values mask width
  have firstValue (position index : Nat) (listed : (actionIndices mask)[position]? = some index) :
      lambdaAdvantage reward 1 1 ((actionValues values mask).drop position) =
        reward - values.getD index 0 := by
    have entry : (actionValues values mask)[position]? = some (values.getD index 0) := by
      rw [actionValues, List.getElem?_map, listed]
      rfl
    obtain ⟨inside, value⟩ := List.getElem?_eq_some_iff.mp entry
    rw [List.drop_eq_getElem_cons inside, lambda_advantage_telescopes, value]
  have rows (stream : List Scalar) (credit : Scalar → Scalar) (same : stream.length = mask.length)
      (trained : ∀ position index : Nat, (actionIndices mask)[position]? = some index →
        stream[index]? = some (credit (values.getD index 0)))
      (context : ∀ index : Nat, mask[index]? = some false → stream[index]? = some 0) :
      stream = creditRow credit values mask := by
    apply List.ext_getElem?
    intro index
    by_cases inside : index < mask.length
    · rw [creditRow, List.getElem?_map, List.getElem?_range inside, Option.map_some,
        List.getD_eq_getElem _ _ inside]
      cases entry : mask[index] with
      | false =>
        rw [context index (by rw [List.getElem?_eq_getElem inside, entry])]
        rfl
      | true =>
        have member := (mem_action_indices_iff mask index).mpr
          (by rw [List.getElem?_eq_getElem inside, entry])
        obtain ⟨position, within, listed⟩ := List.mem_iff_getElem.mp member
        rw [trained position index (by rw [List.getElem?_eq_getElem within, listed])]
        rfl
    · rw [List.getElem?_eq_none (by omega), List.getElem?_eq_none]
      rw [creditRow, List.length_map, List.length_range]
      omega
  have returns : state.returns = creditRow (fun _ => reward) values mask := by
    refine rows _ _ processed.returnWidth ?_ (fun index masked => (processed.context index masked).2)
    intro position index listed
    rw [processed.returns position index listed (Nat.zero_le _), firstValue position index listed,
      sub_add_cancel]
  refine ⟨state.advantages, by rw [computed, returns], ?_⟩
  intro undecayed
  subst undecayed
  refine rows _ _ processed.advantageWidth ?_ (fun index masked => (processed.context index masked).1)
  intro position index listed
  rw [processed.advantages position index listed (Nat.zero_le _), firstValue position index listed]

/-- With every position trained the row is the image of the values. -/
theorem credit_row_all (credit : Scalar → Scalar) (values : List Scalar) :
    creditRow credit values (List.replicate values.length true) = values.map credit := by
  apply List.ext_getElem (by simp [creditRow])
  intro index inRow inValues
  rw [List.length_map] at inValues
  simp [creditRow, List.getD_eq_getElem?_getD, inValues]

/-- Padding a visible row with zeros gives the row of the whole mask, when no
position beyond the visible ones is trained. -/
theorem credit_row_padded (credit : Scalar → Scalar) (values : List Scalar) (mask : List Bool)
    (shorter : values.length ≤ mask.length)
    (visible : ∀ position : Nat, mask[position]? = some true → position < values.length) :
    creditRow credit values (mask.take values.length) ++
        List.replicate (mask.length - values.length) 0 = creditRow credit values mask := by
  have takenWidth : (mask.take values.length).length = values.length := by
    rw [List.length_take]
    omega
  apply List.ext_getElem?
  intro index
  by_cases seen : index < values.length
  · rw [List.getElem?_append_left (by rw [creditRow, List.length_map, List.length_range]; omega),
      creditRow, creditRow, List.getElem?_map, List.getElem?_map, List.getElem?_range (by omega),
      List.getElem?_range (by omega), Option.map_some, Option.map_some,
      List.getD_eq_getElem?_getD, List.getD_eq_getElem?_getD, List.getElem?_take, if_pos seen]
    rfl
  · rw [List.getElem?_append_right (by rw [creditRow, List.length_map, List.length_range]; omega)]
    rw [creditRow, List.length_map, List.length_range, takenWidth, List.getElem?_replicate]
    by_cases inside : index < mask.length
    · have masked : mask.getD index false = false := by
        by_contra trained
        have entry : mask[index]? = some true := by
          rw [List.getD_eq_getElem _ _ inside, Bool.not_eq_false] at trained
          rw [List.getElem?_eq_getElem inside, trained]
        exact seen (visible index entry)
      rw [if_pos (by omega), creditRow, List.getElem?_map, List.getElem?_range inside,
        Option.map_some, masked]
      rfl
    · rw [if_neg (by omega), creditRow, List.getElem?_eq_none]
      rw [List.length_map, List.length_range]
      omega

end

/-! ## Writing back -/

/-- The credit of the values of a span. -/
def spanCredit (credit : Scalar → Scalar) (projected : List (List Scalar)) (span : TrainableSpan) :
    List Scalar :=
  (((projected.getD span.sampleIndex []).drop span.sampleStart).take span.length).map credit

theorem span_credit_length (credit : Scalar → Scalar) (projected : List (List Scalar))
    (span : TrainableSpan) (readable : span.length = 0 ∨
      span.sampleStart + span.length ≤ (projected.getD span.sampleIndex []).length) :
    (spanCredit credit projected span).length = span.length := by
  rw [spanCredit, List.length_map, List.length_take, List.length_drop]
  omega

/-- Scattering the credit of gathered values is writing span after span. -/
theorem scatter_eq_writes (credit : Scalar → Scalar) (projected : List (List Scalar))
    (spans : List TrainableSpan) (before : List Scalar) (rows : List (List Scalar))
    (readable : ∀ span ∈ spans, span.length = 0 ∨
      span.sampleStart + span.length ≤ (projected.getD span.sampleIndex []).length) :
    scatter (before ++ (gather projected spans).map credit) before.length spans rows =
      spans.foldl (fun rows span => writeEntries rows span (spanCredit credit projected span))
        rows := by
  induction spans generalizing before rows with
  | nil => rfl
  | cons span rest inductionHypothesis =>
    have width := span_credit_length credit projected span (readable span List.mem_cons_self)
    have later := inductionHypothesis (before ++ spanCredit credit projected span)
      (writeEntries rows span (spanCredit credit projected span))
      (fun other member => readable other (List.mem_cons_of_mem _ member))
    rw [List.length_append, width, List.append_assoc] at later
    have read : ((before ++ (spanCredit credit projected span ++
        (gather projected rest).map credit)).drop before.length).take span.length =
        spanCredit credit projected span := by
      rw [List.drop_left]
      exact List.take_left' width
    have gathered : (gather projected (span :: rest)).map credit =
        spanCredit credit projected span ++ (gather projected rest).map credit := by
      rw [gather, List.flatMap_cons, List.map_append]
      rfl
    rw [gathered, scatter, read, List.foldl_cons, ← later]
    rfl

/-- After all writes the covered cells hold their credit and the others are
unchanged. -/
theorem writes_cells [Zero Scalar] (credit : Scalar → Scalar) (projected : List (List Scalar))
    (spans : List TrainableSpan) (rows : List (List Scalar))
    (inside : ∀ span ∈ spans, Inside rows span)
    (readable : ∀ span ∈ spans, span.length = 0 ∨
      span.sampleStart + span.length ≤ (projected.getD span.sampleIndex []).length) :
    (spans.foldl (fun rows span => writeEntries rows span (spanCredit credit projected span))
        rows).map List.length = rows.map List.length ∧
      ∀ sampleIndex position,
        cell (spans.foldl (fun rows span =>
            writeEntries rows span (spanCredit credit projected span)) rows) sampleIndex position =
          if (sampleIndex, position) ∈ spans.flatMap sampleTokens then
            credit (cell projected sampleIndex position)
          else cell rows sampleIndex position := by
  induction spans generalizing rows with
  | nil =>
    refine ⟨rfl, ?_⟩
    intro sampleIndex position
    rw [List.flatMap_nil, if_neg List.not_mem_nil]
    rfl
  | cons span rest inductionHypothesis =>
    have ownReadable := readable span List.mem_cons_self
    obtain ⟨sameWidths, written⟩ := write_inside rows span (spanCredit credit projected span)
      (span_credit_length credit projected span ownReadable) (inside span List.mem_cons_self)
    obtain ⟨finalWidths, cells⟩ := inductionHypothesis
      (writeEntries rows span (spanCredit credit projected span))
      (fun other member => inside_congr sameWidths (inside other (List.mem_cons_of_mem _ member)))
      (fun other member => readable other (List.mem_cons_of_mem _ member))
    refine ⟨by rw [List.foldl_cons, finalWidths, sameWidths], ?_⟩
    intro sampleIndex position
    rw [List.foldl_cons, cells, written, List.flatMap_cons]
    by_cases later : (sampleIndex, position) ∈ rest.flatMap sampleTokens
    · rw [if_pos later, if_pos (List.mem_append_right _ later)]
    · rw [if_neg later]
      by_cases now : (sampleIndex, position) ∈ sampleTokens span
      · rw [if_pos now, if_pos (List.mem_append_left _ now)]
        obtain ⟨rfl, after, before⟩ := (mem_sample_tokens_iff span sampleIndex position).mp now
        have inProjected : position < (projected.getD span.sampleIndex []).length := by omega
        have offset : span.sampleStart + (position - span.sampleStart) = position := by omega
        rw [spanCredit, List.getD_eq_getElem?_getD, List.getElem?_map, List.getElem?_take,
          if_pos (by omega), List.getElem?_drop, offset, List.getElem?_eq_getElem inProjected, cell,
          List.getD_eq_getElem _ _ inProjected]
        rfl
      · rw [if_neg now, if_neg]
        intro member
        rcases List.mem_append.mp member with first | second
        · exact now first
        · exact later second

/-! ## Both computations -/

/-- The layout of a trajectory names exactly the trained positions of its samples. -/
structure LayoutExact (samples : List ValueTrajectorySample) (layout : TrainingLayout) : Prop where
  inside : ∀ span ∈ layout.trainableSpans, span.sampleIndex < samples.length
  exact : ∀ sampleIndex position,
    (sampleIndex, position) ∈ layout.trainableSpans.flatMap sampleTokens ↔
      ∃ sample, samples[sampleIndex]? = some sample ∧ sample.mask[position]? = some true

/-- Copying keeps tokens and masks. -/
theorem snapshot_samples_streams (samples : List (PrimeRl.Transport.TrainingSample Scalar))
    (sampledMasks : List (List Bool)) (owned : List ValueTrajectorySample)
    (copied : snapshotSamples samples sampledMasks = .ok owned) :
    owned.map (fun sample => (sample.tokenIds, sample.mask)) =
      samples.map (fun sample => (sample.tokenIds, sample.mask)) := by
  induction samples generalizing sampledMasks owned with
  | nil =>
    cases sampledMasks with
    | nil =>
      cases copied
      rfl
    | cons sampledMask sampledMasks => exact absurd copied nofun
  | cons sample samples inductionHypothesis =>
    cases sampledMasks with
    | nil => exact absurd copied nofun
    | cons sampledMask sampledMasks =>
      rw [snapshotSamples] at copied
      cases here : snapshotSample sample sampledMask with
      | error message =>
        rw [here] at copied
        exact absurd copied nofun
      | ok first =>
        rw [here] at copied
        cases later : snapshotSamples samples sampledMasks with
        | error message =>
          rw [later] at copied
          exact absurd copied nofun
        | ok rest =>
          rw [later] at copied
          cases copied
          rw [List.map_cons, List.map_cons, inductionHypothesis sampledMasks rest later]
          congr 1
          simp only [snapshotSample] at here
          split_ifs at here
          cases here
          rfl

/-- The layout materialized with the samples of a forked trace is exact for
their copies. -/
theorem materialized_layout_exact {trace : PrimeRl.Orchestrator.MessageGraph.Trace Scalar}
    (forked : Forked trace) (envName : String) (captureSampledMasks capturePolicyVersions : Bool)
    (result : TrainingMaterialization Scalar)
    (materialized : materializeTrainingData trace envName captureSampledMasks
      capturePolicyVersions = .ok result) (samples : List ValueTrajectorySample)
    (copied : snapshotSamples result.samples result.sampledMasks = .ok samples)
    (layout : TrainingLayout) (listed : result.layout = some layout) :
    LayoutExact samples layout := by
  obtain ⟨sameLayout, owned⟩ := materialized_eq forked envName captureSampledMasks
    capturePolicyVersions result materialized
  obtain rfl := Option.some.inj (sameLayout.symm.trans listed)
  have streams := snapshot_samples_streams result.samples result.sampledMasks samples copied
  rw [owned, List.map_map] at streams
  have lengths : samples.length = (owners trace trace.branches).length := by
    have widths := congrArg List.length streams
    rwa [List.length_map, List.length_map] at widths
  have maskAt (sampleIndex : Nat) : (samples[sampleIndex]?).map ValueTrajectorySample.mask =
      ((owners trace trace.branches)[sampleIndex]?).map (claimMask trace) := by
    have entry := congrArg (fun streams => (streams[sampleIndex]?).map Prod.snd) streams
    simp only [List.getElem?_map, Option.map_map] at entry
    exact entry
  refine ⟨?_, ?_⟩
  · intro span member
    obtain ⟨claim, -, -, -, -, found, -⟩ :=
      all_spans_cases span ((layout_spans forked).2.mem_iff.mp member)
    rw [lengths]
    exact (List.getElem?_eq_some_iff.mp found).1
  · intro sampleIndex position
    rw [(sample_spans_positions forked).2]
    have masks := maskAt sampleIndex
    constructor
    · rintro ⟨claim, found, trained⟩
      rw [found, Option.map_some, Option.map_eq_some_iff] at masks
      obtain ⟨sample, sampleFound, same⟩ := masks
      exact ⟨sample, sampleFound, same ▸ trained⟩
    · rintro ⟨sample, found, trained⟩
      rw [found, Option.map_some, eq_comm, Option.map_eq_some_iff] at masks
      obtain ⟨claim, claimFound, same⟩ := masks
      exact ⟨claim, claimFound, same ▸ trained⟩

/-- Every trained position of a sample is visible to the critic. -/
def Visible (trajectory : ValueTrajectory Scalar) (seqLen : Nat) : Prop :=
  ∀ sample ∈ trajectory.samples, ∀ position : Nat, sample.mask[position]? = some true →
    position < visibleLength trajectory.inserted seqLen sample

/-- Rows of credit for all samples. -/
def creditRows [Zero Scalar] (credit : Scalar → Scalar) (samples : List ValueTrajectorySample)
    (projected : List (List Scalar)) : List (List Scalar) :=
  List.zipWith (fun sample values => creditRow credit values sample.mask) samples projected

/-- Scattering over an exact layout fills the same rows. -/
theorem scatter_rows [Zero Scalar] (credit : Scalar → Scalar) (inserted : Option TokenPrefix) (seqLen : Nat)
    (samples : List ValueTrajectorySample) (layout : TrainingLayout) (projected : List (List Scalar))
    (widths : projected.map List.length = samples.map (visibleLength inserted seqLen))
    (covers : LayoutExact samples layout)
    (visible : ∀ sample ∈ samples, ∀ position : Nat, sample.mask[position]? = some true →
      position < visibleLength inserted seqLen sample) :
    scatter ((gather projected layout.trainableSpans).map credit) 0 layout.trainableSpans
        (samples.map (fun sample => List.replicate sample.tokenIds.length 0)) =
      creditRows credit samples projected := by
  have sameLength : projected.length = samples.length := by
    have lengths := congrArg List.length widths
    rwa [List.length_map, List.length_map] at lengths
  have projectedWidth (sampleIndex : Nat) (sample : ValueTrajectorySample)
      (listed : samples[sampleIndex]? = some sample) :
      (projected.getD sampleIndex []).length = visibleLength inserted seqLen sample := by
    have entry := congrArg (fun lengths => lengths[sampleIndex]?) widths
    simp only [List.getElem?_map, listed, Option.map_some, Option.map_eq_some_iff] at entry
    obtain ⟨values, found, width⟩ := entry
    rw [List.getD_eq_getElem?_getD, found, Option.getD_some, width]
  have inside : ∀ span ∈ layout.trainableSpans,
      Inside (samples.map (fun sample => List.replicate sample.tokenIds.length (0 : Scalar))) span ∧
        (span.length = 0 ∨
          span.sampleStart + span.length ≤ (projected.getD span.sampleIndex []).length) := by
    intro span listed
    by_cases empty : span.length = 0
    · exact ⟨Or.inl empty, Or.inl empty⟩
    · have last : (span.sampleIndex, span.sampleStart + span.length - 1) ∈
          layout.trainableSpans.flatMap sampleTokens := by
        refine List.mem_flatMap.mpr ⟨span, listed, ?_⟩
        rw [mem_sample_tokens_iff]
        omega
      obtain ⟨sample, found, trained⟩ := (covers.exact _ _).mp last
      have inMask := (List.getElem?_eq_some_iff.mp trained).1
      have seen := visible sample (List.mem_of_getElem? found) _ trained
      have rowWidth : ((samples.map (fun sample =>
          List.replicate sample.tokenIds.length (0 : Scalar))).map List.length).getD
          span.sampleIndex 0 = sample.tokenIds.length := by
        simp [List.getD_eq_getElem?_getD, found]
      refine ⟨Or.inr ⟨by rw [List.length_map]; exact covers.inside span listed, ?_⟩, Or.inr ?_⟩
      · rw [rowWidth, sample.aligned.1]
        omega
      · rw [projectedWidth span.sampleIndex sample found]
        omega
  obtain ⟨finalWidths, cells⟩ := writes_cells credit projected layout.trainableSpans
    (samples.map (fun sample => List.replicate sample.tokenIds.length 0))
    (fun span listed => (inside span listed).1) (fun span listed => (inside span listed).2)
  have asWrites := scatter_eq_writes credit projected layout.trainableSpans []
    (samples.map (fun sample => List.replicate sample.tokenIds.length 0))
    (fun span listed => (inside span listed).2)
  rw [List.nil_append, List.length_nil] at asWrites
  rw [asWrites]
  generalize layout.trainableSpans.foldl
    (fun rows span => writeEntries rows span (spanCredit credit projected span))
    (samples.map (fun sample => List.replicate sample.tokenIds.length 0)) = final at finalWidths cells
  apply List.ext_getElem?
  intro sampleIndex
  have entry := congrArg (fun lengths => lengths[sampleIndex]?) finalWidths
  simp only [List.getElem?_map] at entry
  cases found : samples[sampleIndex]? with
  | none =>
    rw [found] at entry
    simp only [Option.map_none, Option.map_eq_none_iff] at entry
    rw [entry, creditRows, List.getElem?_zipWith, found]
  | some sample =>
    rw [found] at entry
    simp only [Option.map_some, Option.map_eq_some_iff, List.length_replicate] at entry
    obtain ⟨row, rowFound, rowWidth⟩ := entry
    have indexInside : sampleIndex < projected.length := by
      rw [sameLength]
      exact (List.getElem?_eq_some_iff.mp found).1
    rw [rowFound, creditRows, List.getElem?_zipWith, found, List.getElem?_eq_getElem indexInside]
    simp only [Option.some.injEq]
    apply List.ext_getElem (by rw [rowWidth, creditRow, List.length_map, List.length_range,
      sample.aligned.1])
    intro position inRow inCredit
    have value := cells sampleIndex position
    rw [cell, List.getD_eq_getElem?_getD (l := final), rowFound, Option.getD_some,
      List.getD_eq_getElem _ _ inRow] at value
    rw [value]
    simp only [creditRow, List.getElem_map, List.getElem_range]
    have inMask : position < sample.mask.length := by
      rw [rowWidth, sample.aligned.1] at inRow
      exact inRow
    by_cases trained : sample.mask.getD position false = true
    · have member : (sampleIndex, position) ∈ layout.trainableSpans.flatMap sampleTokens := by
        refine (covers.exact _ _).mpr ⟨sample, found, ?_⟩
        rw [List.getD_eq_getElem _ _ inMask] at trained
        rw [List.getElem?_eq_getElem inMask, trained]
      rw [if_pos member, if_pos trained, cell, List.getD_eq_getElem _ _ indexInside]
    · have absent : (sampleIndex, position) ∉ layout.trainableSpans.flatMap sampleTokens := by
        intro member
        obtain ⟨other, alsoFound, entry⟩ := (covers.exact _ _).mp member
        obtain rfl := Option.some.inj (found.symm.trans alsoFound)
        rw [List.getD_eq_getElem?_getD, entry] at trained
        exact trained rfl
      rw [if_neg absent, if_neg trained, cell]
      simp [List.getD_eq_getElem?_getD, found]

section
variable [CommRing Scalar] [LinearOrder Scalar]

/-- Per-branch credit without discount and target decay. -/
theorem branch_credit_rows (reward : Scalar) (config : ValueFunctionConfig Scalar)
    (undiscounted : config.gamma = 1) (undecayed : config.valueTargetLambda = 1)
    (inserted : Option TokenPrefix) (samples : List ValueTrajectorySample)
    (projected : List (List Scalar))
    (widths : projected.map List.length = samples.map (visibleLength inserted config.seqLen))
    (visible : ∀ sample ∈ samples, ∀ position : Nat, sample.mask[position]? = some true →
      position < visibleLength inserted config.seqLen sample) :
    ∃ advantages, branchCredit reward config samples projected =
        .ok (advantages, creditRows (fun _ => reward) samples projected) ∧
      (config.gaeLambda = 1 →
        advantages = creditRows (fun value => reward - value) samples projected) := by
  induction samples generalizing projected with
  | nil =>
    rw [List.map_nil, List.map_eq_nil_iff] at widths
    subst widths
    exact ⟨[], rfl, fun _ => rfl⟩
  | cons sample samples inductionHypothesis =>
    cases projected with
    | nil => exact absurd widths nofun
    | cons values projected =>
      rw [List.map_cons, List.map_cons, List.cons.injEq] at widths
      obtain ⟨width, restWidths⟩ := widths
      obtain ⟨later, laterOk, laterAdvantages⟩ := inductionHypothesis projected restWidths
        (fun other member => visible other (List.mem_cons_of_mem _ member))
      have shorter : values.length ≤ sample.mask.length := by
        rw [width, visibleLength, ← sample.aligned.1]
        split_ifs
        · exact Nat.le_refl _
        · exact Nat.min_le_left _ _
      have seen : ∀ position : Nat, sample.mask[position]? = some true → position < values.length := by
        rw [width]
        exact visible sample List.mem_cons_self
      obtain ⟨advantages, computed, undecayedAdvantages⟩ := compute_gae_credit reward
        config.gaeLambda values (sample.mask.take values.length)
        (by rw [List.length_take]; omega)
      have padded (credit : Scalar → Scalar) :
          creditRow credit values (sample.mask.take values.length) ++
            List.replicate (sample.tokenIds.length - values.length) 0 =
            creditRow credit values sample.mask := by
        rw [sample.aligned.1]
        exact credit_row_padded credit values sample.mask shorter seen
      rw [branchCredit, undiscounted, undecayed, computed]
      refine ⟨(advantages ++ List.replicate (sample.tokenIds.length - values.length) 0) :: later,
        ?_, ?_⟩
      · simp only [bind, Except.bind, laterOk, padded]
        rfl
      · intro undecayedPolicy
        rw [undecayedAdvantages undecayedPolicy, laterAdvantages undecayedPolicy, padded]
        rfl

/-- Stitched credit without discount and target decay. -/
theorem stitched_credit_rows (trajectory : ValueTrajectory Scalar)
    (config : ValueFunctionConfig Scalar) (undiscounted : config.gamma = 1)
    (undecayed : config.valueTargetLambda = 1) (layout : TrainingLayout)
    (projected : List (List Scalar))
    (widths : projected.map List.length =
      trajectory.samples.map (visibleLength trajectory.inserted config.seqLen))
    (covers : LayoutExact trajectory.samples layout) (visible : Visible trajectory config.seqLen) :
    ∃ advantages, stitchedCredit trajectory config projected layout =
        .ok (advantages, creditRows (fun _ => trajectory.reward) trajectory.samples projected) ∧
      (config.gaeLambda = 1 → advantages =
        creditRows (fun value => trajectory.reward - value) trajectory.samples projected) := by
  have sameLength : projected.length = trajectory.samples.length := by
    have lengths := congrArg List.length widths
    rwa [List.length_map, List.length_map] at lengths
  have listed : layout.trainableSpans.any
      (fun span => decide (projected.length ≤ span.sampleIndex)) = false := by
    rw [List.any_eq_false]
    intro span member
    have inside := covers.inside span member
    rw [decide_eq_true_eq]
    omega
  obtain ⟨advantages, computed, undecayedAdvantages⟩ := compute_gae_credit trajectory.reward
    config.gaeLambda (gather projected layout.trainableSpans)
    (List.replicate (gather projected layout.trainableSpans).length true) (by simp)
  have rows (credit : Scalar → Scalar) := scatter_rows credit trajectory.inserted config.seqLen
    trajectory.samples layout projected widths covers visible
  refine ⟨scatter advantages 0 layout.trainableSpans
    (trajectory.samples.map (fun sample => List.replicate sample.tokenIds.length 0)), ?_, ?_⟩
  · rw [stitchedCredit, listed, undiscounted, undecayed]
    simp only [Bool.false_eq_true, if_false, computed, bind, Except.bind, credit_row_all, rows]
  · intro undecayedPolicy
    rw [undecayedAdvantages undecayedPolicy, credit_row_all, rows]

/-- Both outcomes raise the same error, or they have the same predictions and
returns and, where the policy uses them, the same advantages. -/
def Agree (usesPolicyGae : Bool)
    (first second : Except String (List (List Scalar) × List (List Scalar) × List (List Scalar))) :
    Prop :=
  (∃ message, first = .error message ∧ second = .error message) ∨
    ∃ predictions advantages stitchedAdvantages returns,
      first = .ok (predictions, advantages, returns) ∧
      second = .ok (predictions, stitchedAdvantages, returns) ∧
      (usesPolicyGae = true → advantages = stitchedAdvantages)

/-- Without discount and target decay both computations have the same returns,
and without policy decay the same advantages. -/
theorem results_agree (trajectory : ValueTrajectory Scalar) (predictions : List (List Scalar))
    (config : ValueFunctionConfig Scalar) (usesPolicyGae : Bool) (undiscounted : config.gamma = 1)
    (undecayed : config.valueTargetLambda = 1)
    (undecayedPolicy : usesPolicyGae = true → config.gaeLambda = 1) (layout : TrainingLayout)
    (covers : LayoutExact trajectory.samples layout) (visible : Visible trajectory config.seqLen) :
    Agree usesPolicyGae (computeValueResult trajectory predictions config none)
      (computeValueResult trajectory predictions config (some layout)) := by
  simp only [computeValueResult]
  by_cases sameLength : predictions.length = trajectory.samples.length
  · simp only [sameLength, ne_eq, not_true_eq_false, if_false]
    cases accepted : projectPredictions trajectory.inserted config.seqLen trajectory.samples
        predictions with
    | error message => exact Or.inl ⟨message, rfl, rfl⟩
    | ok projected =>
      have widths := project_predictions_lengths trajectory.inserted config.seqLen
        trajectory.samples predictions projected sameLength accepted
      obtain ⟨branchAdvantages, branchOk, branchUndecayed⟩ := branch_credit_rows trajectory.reward
        config undiscounted undecayed trajectory.inserted trajectory.samples projected widths visible
      obtain ⟨stitchedAdvantages, stitchedOk, stitchedUndecayed⟩ := stitched_credit_rows trajectory
        config undiscounted undecayed layout projected widths covers visible
      right
      simp only [bind, Except.bind, branchOk, stitchedOk]
      refine ⟨_, branchAdvantages, stitchedAdvantages, _, rfl, rfl, ?_⟩
      intro uses
      rw [branchUndecayed (undecayedPolicy uses), stitchedUndecayed (undecayedPolicy uses)]
  · simp only [sameLength, ne_eq, not_false_eq_true, if_true]
    exact Or.inl ⟨_, rfl, rfl⟩

/-- Wherever the code skips stitching on a forked trajectory, skipping is sound:
returns agree at every position, and so do the advantages a policy uses. Without
any discount or decay both computations agree everywhere. -/
theorem skipping_stitching_sound [ToString Scalar] (trajectory : ValueTrajectory Scalar)
    (config : ValueFunctionConfig Scalar) (predictions : List (List Scalar))
    (layout : TrainingLayout) (several : 2 ≤ trajectory.samples.length)
    (covers : LayoutExact trajectory.samples layout) (visible : Visible trajectory config.seqLen) :
    (∀ usesPolicyGae branchSemantics,
        sequentialValueLayout trajectory config usesPolicyGae branchSemantics = .ok none →
        Agree usesPolicyGae (computeValueResult trajectory predictions config none)
          (computeValueResult trajectory predictions config (some layout))) ∧
      (config.gamma = 1 → config.gaeLambda = 1 → config.valueTargetLambda = 1 →
        computeValueResult trajectory predictions config none =
          computeValueResult trajectory predictions config (some layout)) := by
  refine ⟨?_, ?_⟩
  · intro usesPolicyGae branchSemantics skipped
    rcases sequential_layout_cases trajectory config usesPolicyGae branchSemantics none skipped with
      ⟨-, single | ⟨undiscounted, undecayed, undecayedPolicy⟩⟩ | ⟨stitched, impossible, -⟩
    · omega
    · exact results_agree trajectory predictions config usesPolicyGae undiscounted undecayed
        undecayedPolicy layout covers visible
    · exact absurd impossible nofun
  · intro undiscounted undecayedPolicy undecayed
    rcases results_agree trajectory predictions config true undiscounted undecayed
      (fun _ => undecayedPolicy) layout covers visible with
      ⟨message, first, second⟩ | ⟨_, _, _, _, first, second, same⟩
    · rw [first, second]
    · rw [first, second, same rfl]

theorem undecayed : 0 ≤ (1 : Rat) ∧ (1 : Rat) ≤ 1 := by decide

/-- A configuration without discount or decay. -/
def undecayedConfig : ValueFunctionConfig Rat :=
  ⟨8, 1, 1, 1, undecayed, undecayed, undecayed⟩

/-- The critic's copy of a trace whose branches share an answer. -/
def sharedTrajectory : ValueTrajectory Rat :=
  { samples :=
      [⟨[1, 2, 3, 4], [false, true, true, true], [false, true, true, true], by decide, by decide⟩,
       ⟨[1, 2, 3, 5, 6], [false, false, false, false, true], [false, true, true, false, true],
         by decide, by decide⟩]
    trainingLayout := some (trainingLayout sharedAnswer
      (iterTrainableBranches sharedAnswer sharedAnswer.branches))
    reward := 1
    inserted := none
    envName := "env"
    groupId := "group"
    policyVersion := 0 }

/-- Predictions for the shared answer. -/
def sharedPredictions : List (List Rat) := [[0, 1 / 2, 1, 0], [0, 1 / 2, 1, 0, 1 / 4]]

/-- Both computations agree on the shared answer, where stitching is skipped. -/
theorem skipping_stitching_shared_answer :
    Agree true (computeValueResult sharedTrajectory sharedPredictions undecayedConfig none)
        (computeValueResult sharedTrajectory sharedPredictions undecayedConfig
          (some (trainingLayout sharedAnswer
            (iterTrainableBranches sharedAnswer sharedAnswer.branches)))) ∧
      computeValueResult sharedTrajectory sharedPredictions undecayedConfig none =
        computeValueResult sharedTrajectory sharedPredictions undecayedConfig
          (some (trainingLayout sharedAnswer
            (iterTrainableBranches sharedAnswer sharedAnswer.branches))) := by
  have sound := skipping_stitching_sound sharedTrajectory undecayedConfig sharedPredictions _
    (by decide) (materialized_layout_exact shared_answer_forked "env" true false _ rfl _ rfl _ rfl)
    (by
      intro sample member position trained
      have inside := (List.getElem?_eq_some_iff.mp trained).1
      rcases List.mem_cons.mp member with rfl | other
      · exact inside
      · rw [List.mem_singleton.mp other] at inside ⊢
        exact inside)
  exact ⟨sound.1 true none rfl, sound.2 rfl rfl rfl⟩

end

end PrimeRl.Value.StitchedCredit
