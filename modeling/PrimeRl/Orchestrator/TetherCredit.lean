import PrimeRl.Orchestrator.TetherPositions
import PrimeRl.Value.TokenStreams

/-!
# The credit identity of the mixed baseline

On the streams of a value result every trained token receives the critic's return
less the mixed baseline. At decay one the critic's return is the discounted
reward, so the credit mixes the errors of the anchor and of the critic. The
recorded mean squared error is that of the assigned advantages: statistics of
accumulated rows reconstruct it, and their clamp is never active.
-/

namespace PrimeRl.Orchestrator.Tether

open Regression
open PrimeRl.Orchestrator.Trajectories PrimeRl.Orchestrator.ValueContext
open PrimeRl.Value.Credit PrimeRl.Value.CriticStates PrimeRl.Value.Gae PrimeRl.Value.Scatter
open PrimeRl.Value.StitchedCredit PrimeRl.Value.TokenStreams PrimeRl.Value.Trajectory

universe u v
variable {Scalar : Type u} [Field Scalar] [LinearOrder Scalar] [IsStrictOrderedRing Scalar]

/-! ## Evaluated rollouts -/

/-- A rollout with the streams of a value result of its trajectory, whose trained
tokens the critic sees. -/
structure Evaluated (config : ValueFunctionConfig Scalar) (rollout : Rollout Scalar)
    (trajectory : ValueTrajectory Scalar) (layout : Option TrainingLayout)
    (predictions rawAdvantages returns : List (List Scalar)) : Prop where
  valueTrajectory : rollout.valueTrajectory = some trajectory
  valuePredictions : rollout.valuePredictions = some predictions
  valueAdvantages : rollout.valueAdvantages = some rawAdvantages
  computed : ∃ response, computeValueResult trajectory response config layout =
    .ok (predictions, rawAdvantages, returns)
  stitches : Stitches trajectory config.seqLen layout
  visible : Visible trajectory config.seqLen
  copied : rollout.samples.map (fun sample => (sample.tokenIds, sample.mask)) =
    trajectory.samples.map (fun sample => (sample.tokenIds, sample.mask))

/-- A runtime made for a value configuration. -/
structure Configured (runtime : TetherRuntime Scalar) (config : ValueFunctionConfig Scalar) : Prop where
  gamma : runtime.gamma = config.gamma
  gaeLambda : runtime.gaeLambda = config.gaeLambda
  valueSeqLen : runtime.valueSeqLen = config.seqLen
  shaped : ∀ controller, runtime.positionedAdaptive = some controller → controller.Shaped

/-- All trained tokens are inside the policy's sequence. -/
def InsidePolicy (runtime : TetherRuntime Scalar) (trajectory : ValueTrajectory Scalar) : Prop :=
  ∀ sample ∈ trajectory.samples, ∀ position : Nat, sample.mask[position]? = some true →
    position < runtime.policySeqLen

/-- The coefficient applied to a token. -/
def appliedRho (runtime : TetherRuntime Scalar) (sample : ValueTrajectorySample) (index : Nat) :
    Scalar :=
  match runtime.positionedAdaptive with
  | some controller => controller.rho.getD
      (min ((sample.sampledMask.take index).count true / controller.binSize)
        (controller.rho.length - 1)) 0
  | none => runtime.rho

omit [Field Scalar] [LinearOrder Scalar] [IsStrictOrderedRing Scalar] in
/-- A sample with streams is a sample of the trajectory. -/
theorem streams_samples {trajectory : ValueTrajectory Scalar}
    {predictions rawAdvantages : List (List Scalar)} {item : Streams Scalar}
    (member : item ∈ streamsOf trajectory predictions rawAdvantages) :
    item.1.1 ∈ trajectory.samples :=
  (List.of_mem_zip (List.of_mem_zip member).1).1

section
omit [IsStrictOrderedRing Scalar]
variable {config : ValueFunctionConfig Scalar} {rollout : Rollout Scalar}
  {trajectory : ValueTrajectory Scalar} {layout : Option TrainingLayout}
  {predictions rawAdvantages returns : List (List Scalar)}
  (evaluated : Evaluated config rollout trajectory layout predictions rawAdvantages returns)
include evaluated

theorem Evaluated.streams :
    ResultStreams trajectory config layout predictions rawAdvantages returns := by
  obtain ⟨response, computed⟩ := evaluated.computed
  exact compute_value_result_streams trajectory response config layout evaluated.stitches _ _ _
    computed

theorem Evaluated.attached : Attached rollout trajectory predictions rawAdvantages :=
  ⟨evaluated.valueTrajectory, evaluated.valuePredictions, evaluated.valueAdvantages,
    evaluated.streams.predictionWidths, evaluated.streams.advantageWidths⟩

variable {runtime : TetherRuntime Scalar} (configured : Configured runtime config)
include configured

/-- Visible trained tokens are never refused. -/
theorem Evaluated.unhidden :
    (streamsOf trajectory predictions rawAdvantages).any
      (fun item => hides runtime trajectory.inserted item.1.1) = false := by
  rw [List.any_eq_false]
  intro item member
  rw [hides, TetherRuntime.hidesTrained, configured.valueSeqLen, Bool.not_eq_true,
    Bool.and_eq_false_iff]
  refine Or.inr (List.any_eq_false.mpr ?_)
  intro trained inMask isTrained
  obtain ⟨place, listed⟩ := List.mem_iff_getElem?.mp inMask
  rw [List.getElem?_drop] at listed
  have seen := evaluated.visible item.1.1 (streams_samples member) _
    (listed.trans (congrArg some isTrained))
  omega

/-- Scorers reach every trained token. -/
theorem Evaluated.reached (inside : InsidePolicy runtime trajectory)
    (item : Streams Scalar) (member : item ∈ streamsOf trajectory predictions rawAdvantages)
    (index : Nat) : (index < reach runtime trajectory.inserted item.1.1 ∧
      item.1.1.mask.getD index false = true) ↔ item.1.1.mask.getD index false = true := by
  constructor
  · exact And.right
  · intro trained
    have inMask : item.1.1.mask[index]? = some true := by
      by_contra other
      rw [List.getD_eq_getElem?_getD] at trained
      cases found : item.1.1.mask[index]? with
      | none =>
        rw [found] at trained
        cases trained
      | some flag =>
        rw [found] at trained
        exact other (found.trans (congrArg some trained))
    have sampled := streams_samples member
    have seen := evaluated.visible item.1.1 sampled index inMask
    rw [← configured.valueSeqLen] at seen
    exact ⟨lt_min seen (inside item.1.1 sampled index inMask), trained⟩

end

/-! ## Squares -/

/-- Sum of the squared advantages of a rollout. -/
def squaredAdvantages (rollout : Rollout Scalar) : Scalar :=
  ((rollout.advantages.getD []).map (fun advantage => advantage ^ 2)).sum

/-- Number of trained tokens of the scored samples. -/
def trainedTokens (rollout : Rollout Scalar) : Nat :=
  (rollout.scoredSamples.map (fun sample => sample.mask.count true)).sum

section
omit [LinearOrder Scalar] [IsStrictOrderedRing Scalar]

/-- Scored positions are counted by the mask they come from. -/
theorem scored_positions_take (limit : Nat) (mask : List Bool) (inside : limit ≤ mask.length) :
    (scoredPositions limit mask).length = (mask.take limit).count true := by
  induction limit with
  | zero => rfl
  | succ limit inductionHypothesis =>
    rw [scored_positions_succ, count_take_succ mask limit inside,
      ← inductionHypothesis (Nat.le_of_lt inside)]
    by_cases trained : mask.getD limit false = true
    · rw [if_pos trained, if_pos trained, List.length_append, List.length_singleton]
    · rw [if_neg trained, if_neg trained, Nat.add_zero]

/-- A limit behind all trained positions leaves none out. -/
theorem scored_positions_count (limit : Nat) (mask : List Bool) (inside : limit ≤ mask.length)
    (all : ∀ index, mask.getD index false = true → index < limit) :
    (scoredPositions limit mask).length = mask.count true := by
  have remaining : (mask.drop limit).count true = 0 := by
    rw [List.count_eq_zero]
    intro member
    obtain ⟨offset, listed⟩ := List.mem_iff_getElem?.mp member
    rw [List.getElem?_drop] at listed
    have bounded := all (limit + offset) (by rw [List.getD_eq_getElem?_getD, listed]; rfl)
    omega
  rw [scored_positions_take limit mask inside, ← Nat.add_zero ((mask.take limit).count true),
    ← remaining, ← List.count_append, List.take_append_drop]

/-- A branch's squares are those of its scored positions. -/
theorem branch_credits_squares (anchor : Scalar) (rhoAt : Nat → Scalar) (limit length : Nat)
    (inside : limit ≤ length) (mask : List Bool) (values valueAdvantages : List Scalar) :
    ((branchCredits anchor rhoAt limit length mask values valueAdvantages).map
        (fun advantage => advantage ^ 2)).sum =
      ((scoredPositions limit mask).map (fun index =>
        mixedCredit anchor (rhoAt index) values valueAdvantages index ^ 2)).sum := by
  obtain ⟨remaining, rfl⟩ := Nat.exists_eq_add_of_le inside
  rw [scoredPositions, Sums.sum_filter_map, branchCredits, List.map_map, List.range_add,
    List.map_append, List.sum_append]
  have beyond : ((List.range remaining).map (limit + ·)).map ((fun advantage => advantage ^ 2) ∘
      fun index => if index < limit ∧ mask.getD index false = true then
        mixedCredit anchor (rhoAt index) values valueAdvantages index else 0) =
      List.replicate remaining 0 := by
    rw [List.map_map, List.eq_replicate_iff, List.length_map, List.length_range]
    refine ⟨rfl, ?_⟩
    intro square member
    obtain ⟨offset, _, rfl⟩ := List.mem_map.mp member
    have outside : ¬(limit + offset < limit ∧ mask.getD (limit + offset) false = true) := by omega
    simp only [Function.comp_apply, if_neg outside, ne_eq, OfNat.ofNat_ne_zero, not_false_eq_true,
      zero_pow]
  rw [beyond, List.sum_replicate, nsmul_zero, add_zero]
  congr 1
  apply List.map_congr_left
  intro index member
  have below := List.mem_range.mp member
  by_cases trained : mask.getD index false = true
  · simp only [Function.comp_apply, below, trained, and_self, if_true]
  · rw [Function.comp_apply, if_neg (fun both => trained both.2), if_neg trained,
      zero_pow two_ne_zero]

end

omit [IsStrictOrderedRing Scalar] in
/-- Squares of all credits of a rollout. -/
theorem rollout_credits_squares (runtime : TetherRuntime Scalar) (inserted : Option TokenPrefix)
    (anchor : Scalar) (rhoAt : ValueTrajectorySample → Nat → Scalar)
    (streams : List (Streams Scalar)) :
    ((rolloutCredits runtime inserted anchor rhoAt streams).map
        (fun advantage => advantage ^ 2)).sum =
      (streams.flatMap (fun item => (scoredPositions (reach runtime inserted item.1.1)
        item.1.1.mask).map (fun index =>
          mixedCredit anchor (rhoAt item.1.1 index) item.1.2 item.2 index ^ 2))).sum := by
  induction streams with
  | nil => rfl
  | cons item streams inductionHypothesis =>
    rw [rolloutCredits, List.flatMap_cons, List.map_append, List.sum_append, List.flatMap_cons,
      List.sum_append, branch_credits_squares _ _ _ _ (reach_le _ _ _)]
    congr 1

/-! ## What scoring measures -/

/-- The rows of statistics recorded for a rollout carry its trained tokens and its
squared advantages, and nothing without tokens. -/
structure Measures (rollout assigned : Rollout Scalar)
    (rows : List (TetherRegressionStats Scalar × Scalar)) : Prop where
  weight : (rows.map (fun row => row.1.weight)).sum = trainedTokens rollout
  residual : (rows.map (fun row => residualSum row.1 row.2)).sum = squaredAdvantages assigned
  empty : ∀ row ∈ rows, row.1.weight = 0 → residualSum row.1 row.2 = 0

/-- Statistics of no rows have no residual. -/
theorem of_rows_empty (rows : List (Scalar × Scalar)) (rho : Scalar)
    (unweighed : (TetherRegressionStats.ofRows rows).weight = 0) :
    residualSum (TetherRegressionStats.ofRows rows) rho = 0 := by
  have none : rows.length = 0 :=
    (accumulated_weight (of_rows_accumulated rows)).symm.trans unweighed
  rw [residual_sum_unclamped, List.length_eq_zero_iff.mp none]
  rfl

/-- The recorded error times the tokens is the sum of the squared advantages. -/
theorem record_applied_metrics {Value : Type v} (assignedOf : Value → Rollout Scalar)
    (rowsOf : Value → List (TetherRegressionStats Scalar × Scalar))
    (rollouts : List (Rollout Scalar)) (values : List Value)
    (measured : List.Forall₂ (fun rollout value => Measures rollout (assignedOf value) (rowsOf value))
      rollouts values) :
    (TetherRuntime.recordAppliedMetrics (values.flatMap rowsOf)).mseApplied *
        ((rollouts.map trainedTokens).sum : Nat) =
      (values.map (fun value => squaredAdvantages (assignedOf value))).sum := by
  have summed : ((values.flatMap rowsOf).map (fun row => row.1.weight)).sum =
      (rollouts.map trainedTokens).sum ∧
      ((values.flatMap rowsOf).map (fun row => residualSum row.1 row.2)).sum =
        (values.map (fun value => squaredAdvantages (assignedOf value))).sum ∧
      ∀ row ∈ values.flatMap rowsOf, row.1.weight = 0 → residualSum row.1 row.2 = 0 := by
    induction measured with
    | nil => exact ⟨rfl, rfl, fun row member => nomatch member⟩
    | @cons rollout value rollouts values here later inductionHypothesis =>
      obtain ⟨weights, residuals, empties⟩ := inductionHypothesis
      rw [List.flatMap_cons, List.map_append, List.sum_append, List.map_append, List.sum_append,
        here.weight, here.residual, weights, residuals]
      refine ⟨rfl, rfl, ?_⟩
      intro row member
      rcases List.mem_append.mp member with own | other
      · exact here.empty row own
      · exact empties row other
  obtain ⟨weights, residuals, empties⟩ := summed
  rw [TetherRuntime.recordAppliedMetrics]
  dsimp only
  rw [weights, residuals]
  rcases Nat.eq_zero_or_pos (rollouts.map trainedTokens).sum with none | some
  · have weightless : ((values.flatMap rowsOf).map (fun row => residualSum row.1 row.2)).sum = 0 := by
      apply List.sum_eq_zero
      intro residual member
      obtain ⟨row, inRows, rfl⟩ := List.mem_map.mp member
      apply empties row inRows
      have listed : row.1.weight ∈ (values.flatMap rowsOf).map (fun row => row.1.weight) :=
        List.mem_map.mpr ⟨row, inRows, rfl⟩
      have bounded := List.single_le_sum (fun weight _ => Nat.zero_le weight) row.1.weight listed
      rw [weights, none] at bounded
      exact Nat.le_zero.mp bounded
    rw [← residuals, weightless, zero_div, zero_mul]
  · rw [Nat.max_eq_left some]
    exact div_mul_cancel₀ _ (Nat.cast_ne_zero.mpr some.ne')

/-! ## The identity -/

/-- The discounted reward of a token at a place of its generation order. -/
def monteCarloReturn (config : ValueFunctionConfig Scalar) (trajectory : ValueTrajectory Scalar)
    (layout : Option TrainingLayout) (sampleIndex : Nat) (sample : ValueTrajectorySample)
    (place : Nat) : Scalar :=
  config.gamma ^ ((tokenOrder layout trajectory.inserted config.seqLen sampleIndex sample).length -
    1 - place) * trajectory.reward

/-- The credit of an evaluated rollout. Every trained token has the critic's return
less the mixed baseline, every other token nothing. The critic's advantage is the
recursion over the values in generation order, and at decay one the credit mixes
the errors of the anchor and of the critic against the discounted reward, which is
what the returns hold at decay one. -/
structure MixedCredits (runtime : TetherRuntime Scalar) (config : ValueFunctionConfig Scalar)
    (trajectory : ValueTrajectory Scalar) (layout : Option TrainingLayout)
    (predictions rawAdvantages returns : List (List Scalar)) (anchor : Scalar)
    (assigned : Rollout Scalar) : Prop where
  stream : assigned.advantages = some ((streamsOf trajectory predictions rawAdvantages).flatMap
    (fun item => (List.range item.1.1.tokenIds.length).map (fun index =>
      if item.1.1.mask.getD index false = true then
        mixedCredit anchor (appliedRho runtime item.1.1 index) item.1.2 item.2 index
      else 0)))
  entries : ∀ (sampleIndex : Nat) (sample : ValueTrajectorySample),
    trajectory.samples[sampleIndex]? = some sample → ∀ position : Nat,
    sample.mask[position]? = some true →
    ∃ place, TokenEntries trajectory config layout predictions rawAdvantages returns sampleIndex
        sample position place ∧
      (config.gaeLambda = 1 →
        mixedCredit anchor (appliedRho runtime sample position) (predictions.getD sampleIndex [])
            (rawAdvantages.getD sampleIndex []) position =
          (1 - appliedRho runtime sample position) *
              (monteCarloReturn config trajectory layout sampleIndex sample place - anchor) +
            appliedRho runtime sample position *
              (monteCarloReturn config trajectory layout sampleIndex sample place -
                cell predictions sampleIndex position)) ∧
      (config.valueTargetLambda = 1 → cell returns sampleIndex position =
        monteCarloReturn config trajectory layout sampleIndex sample place)

section
variable {config : ValueFunctionConfig Scalar} {rollout : Rollout Scalar}
  {trajectory : ValueTrajectory Scalar} {layout : Option TrainingLayout}
  {predictions rawAdvantages returns : List (List Scalar)}
  (evaluated : Evaluated config rollout trajectory layout predictions rawAdvantages returns)
  {runtime : TetherRuntime Scalar} (configured : Configured runtime config)
  (inside : InsidePolicy runtime trajectory)
include evaluated

omit [IsStrictOrderedRing Scalar] in
/-- The streams of the tokens of an evaluated rollout. -/
theorem Evaluated.entries (anchor rho : Scalar) (sampleIndex : Nat) (sample : ValueTrajectorySample)
    (found : trajectory.samples[sampleIndex]? = some sample) (position : Nat)
    (trained : sample.mask[position]? = some true) :
    ∃ place, TokenEntries trajectory config layout predictions rawAdvantages returns sampleIndex
        sample position place ∧
      (config.gaeLambda = 1 →
        mixedCredit anchor rho (predictions.getD sampleIndex []) (rawAdvantages.getD sampleIndex [])
            position =
          (1 - rho) * (monteCarloReturn config trajectory layout sampleIndex sample place - anchor) +
            rho * (monteCarloReturn config trajectory layout sampleIndex sample place -
              cell predictions sampleIndex position)) ∧
      (config.valueTargetLambda = 1 → cell returns sampleIndex position =
        monteCarloReturn config trajectory layout sampleIndex sample place) := by
  obtain ⟨place, entries⟩ := evaluated.streams.entries sampleIndex sample found position trained
    (evaluated.visible sample (List.mem_of_getElem? found) position trained)
  refine ⟨place, entries, ?_, ?_⟩
  · intro undecayed
    have advantage := entries.advantage
    rw [undecayed, monte_carlo_token _ _ _ _ _ entries.listed] at advantage
    rw [mixedCredit, ← cell, ← cell, advantage, monteCarloReturn]
    ring
  · intro undecayed
    have target := entries.target
    rw [undecayed, monte_carlo_token _ _ _ _ _ entries.listed] at target
    rw [target, monteCarloReturn, sub_add_cancel]

omit [IsStrictOrderedRing Scalar] in
/-- Credits fit the samples they are written for. -/
theorem Evaluated.assigns (anchor : Scalar) (rhoAt : ValueTrajectorySample → Nat → Scalar) :
    rollout.assignAdvantages (rolloutCredits runtime trajectory.inserted anchor rhoAt
        (streamsOf trajectory predictions rawAdvantages)) =
      .ok { rollout with
        advantages := some (rolloutCredits runtime trajectory.inserted anchor rhoAt
          (streamsOf trajectory predictions rawAdvantages)) } := by
  have samples : (streamsOf trajectory predictions rawAdvantages).map
      (fun item => item.1.1.tokenIds.length) =
      rollout.samples.map (fun sample => sample.tokenIds.length) := by
    have copied := congrArg (List.map (fun entry : List Nat × List Bool => entry.1.length))
      evaluated.copied
    rw [List.map_map, List.map_map] at copied
    refine Eq.trans ?_ copied.symm
    rw [← evaluated.attached.samples, List.map_map]
    rfl
  rw [Rollout.assignAdvantages]
  rw [rollout_credits_length, samples, if_neg (not_not_intro rfl)]

include configured inside

omit [IsStrictOrderedRing Scalar] in
/-- What a scorer writes is the mixed credit of the trained tokens. -/
theorem Evaluated.credits (anchor : Scalar) :
    rolloutCredits runtime trajectory.inserted anchor (appliedRho runtime)
        (streamsOf trajectory predictions rawAdvantages) =
      (streamsOf trajectory predictions rawAdvantages).flatMap (fun item =>
        (List.range item.1.1.tokenIds.length).map (fun index =>
          if item.1.1.mask.getD index false = true then
            mixedCredit anchor (appliedRho runtime item.1.1 index) item.1.2 item.2 index
          else 0)) := by
  rw [rolloutCredits, List.flatMap_def, List.flatMap_def]
  congr 1
  apply List.map_congr_left
  intro item member
  apply List.map_congr_left
  intro index _
  simp only [evaluated.reached configured inside item member index]

omit [IsStrictOrderedRing Scalar] in
/-- The scored positions are the trained tokens. -/
theorem Evaluated.tokens :
    ((streamsOf trajectory predictions rawAdvantages).map (fun item =>
      (scoredPositions (reach runtime trajectory.inserted item.1.1) item.1.1.mask).length)).sum =
      trainedTokens rollout := by
  have counted : (streamsOf trajectory predictions rawAdvantages).map (fun item =>
      (scoredPositions (reach runtime trajectory.inserted item.1.1) item.1.1.mask).length) =
      (streamsOf trajectory predictions rawAdvantages).map (fun item =>
        item.1.1.mask.count true) := by
    apply List.map_congr_left
    intro item member
    apply scored_positions_count
    · exact item.1.1.aligned.1 ▸ reach_le runtime trajectory.inserted item.1.1
    · intro index trained
      exact ((evaluated.reached configured inside item member index).mpr trained).1
  rw [counted, trainedTokens, Rollout.scoredSamples, evaluated.valueTrajectory]
  dsimp only
  rw [← evaluated.attached.samples, List.map_map, List.map_map]
  rfl

/-- An evaluated rollout scored with one coefficient. -/
theorem Evaluated.single (withoutBins : runtime.positionedAdaptive = none) (anchor : Scalar) :
    ∃ value, runtime.scoreRollout runtime.rho (rollout, anchor) = .ok value ∧
      value.1.advantages = some (rolloutCredits runtime trajectory.inserted anchor
        (appliedRho runtime) (streamsOf trajectory predictions rawAdvantages)) ∧
      (runtime.adaptive.isSome = true →
        Measures rollout value.1 (value.2.map (fun stats => (stats, runtime.rho)))) := by
  have constant : appliedRho runtime = fun _ _ => runtime.rho := by
    funext sample index
    rw [appliedRho, withoutBins]
  rw [score_rollout_eq evaluated.attached, evaluated.unhidden configured, if_neg Bool.false_ne_true,
    evaluated.assigns, constant]
  refine ⟨_, rfl, rfl, ?_⟩
  intro adaptive
  dsimp only
  rw [if_pos adaptive]
  constructor
  case weight =>
    rw [← evaluated.tokens configured inside]
    simp only [List.map_cons, List.map_nil, List.sum_cons, List.sum_nil, Nat.add_zero]
    rw [accumulated_weight (of_rows_accumulated _), rolloutRows, List.length_flatMap]
    simp only [List.length_map]
  case residual =>
    simp only [List.map_cons, List.map_nil, List.sum_cons, List.sum_nil, add_zero]
    rw [residual_sum_unclamped, squaredAdvantages]
    dsimp only
    rw [Option.getD_some, rollout_credits_squares, rolloutRows, List.map_flatMap]
    simp only [List.map_map, Function.comp_def, mixed_credit_row]
  case empty =>
    intro row member
    simp only [List.map_cons, List.map_nil, List.mem_singleton] at member
    subst member
    exact of_rows_empty _ _

/-- An evaluated rollout scored with bins. -/
theorem Evaluated.positioned (controller : AdaptivePositionTetherCoefficients Scalar)
    (withBins : runtime.positionedAdaptive = some controller) (shaped : controller.Shaped)
    (anchor : Scalar) :
    ∃ value, runtime.scorePositionedRollout (controller.table shaped) (rollout, anchor) = .ok value ∧
      value.1.advantages = some (rolloutCredits runtime trajectory.inserted anchor
        (appliedRho runtime) (streamsOf trajectory predictions rawAdvantages)) ∧
      value.2.bins.length = controller.numBins ∧
      Measures rollout value.1 (value.2.bins.zip (controller.table shaped).rho) := by
  have binned : (fun sample : ValueTrajectorySample =>
      rhoOf (controller.table shaped) sample.sampledMask) = appliedRho runtime := by
    funext sample index
    rw [appliedRho, withBins]
    rfl
  rw [score_positioned_rollout_eq evaluated.attached, evaluated.unhidden configured,
    if_neg Bool.false_ne_true, evaluated.assigns, binned]
  refine ⟨_, rfl, rfl, ?_, ?_⟩
  · rw [rolloutStats, List.length_map, List.length_range]
    exact shaped.rho
  have zipped : (rolloutStats runtime (controller.table shaped) trajectory anchor
      (streamsOf trajectory predictions rawAdvantages)).bins.zip (controller.table shaped).rho =
      (List.range (controller.table shaped).numBins).map (fun bin =>
        (TetherRegressionStats.ofRows (rolloutBinRows runtime trajectory.inserted
          (controller.table shaped) anchor (streamsOf trajectory predictions rawAdvantages) bin),
          (controller.table shaped).rho.getD bin 0)) := by
    have sameLength : (controller.table shaped).numBins = (controller.table shaped).rho.length := rfl
    apply List.ext_getElem
    · rw [List.length_zip, rolloutStats, List.length_map, List.length_map, List.length_range,
        ← sameLength, Nat.min_self]
    · intro bin inZip inRange
      rw [List.length_map, List.length_range] at inRange
      rw [List.getElem_zip, List.getElem_map, List.getElem_range,
        List.getD_eq_getElem _ _ (sameLength ▸ inRange)]
      simp only [rolloutStats, List.getElem_map, List.getElem_range]
  dsimp only
  rw [zipped]
  constructor
  case weight =>
    have summed := congrArg TetherRegressionStats.weight (bin_statistics_sum runtime
      trajectory.inserted (controller.table shaped) anchor
      (streamsOf trajectory predictions rawAdvantages))
    rw [TetherRegressionStats.weight_sum, accumulated_weight (of_rows_accumulated _), rolloutRows,
      List.length_flatMap] at summed
    simp only [List.length_map, List.map_map] at summed
    rw [← evaluated.tokens configured inside, List.map_map]
    exact summed
  case residual =>
    rw [List.map_map, squaredAdvantages]
    dsimp only
    rw [Option.getD_some, rollout_credits_squares, ← binned, ← sum_bins runtime trajectory.inserted
      (controller.table shaped)]
    congr 1
    apply List.map_congr_left
    intro bin _
    rw [Function.comp_apply, residual_sum_unclamped, rolloutBinRows, List.map_flatMap]
    congr 1
    rw [List.flatMap_def, List.flatMap_def]
    congr 1
    apply List.map_congr_left
    intro item _
    rw [binRows, List.map_map]
    apply List.map_congr_left
    intro index member
    have own := of_decide_eq_true (List.mem_filter.mp member).2
    rw [Function.comp_apply, ← mixed_credit_row]
    dsimp only
    rw [rhoOf, own]
  case empty =>
    intro row member
    obtain ⟨bin, _, rfl⟩ := List.mem_map.mp member
    exact of_rows_empty _ _

end

/-! ## Groups -/

/-- A group scored against its anchors: every rollout has its mixed credit, and in
an adaptive mode the recorded error times the scored trained tokens is the sum of
the squares of the assigned advantages. -/
structure TetherScored (runtime : TetherRuntime Scalar) (config : ValueFunctionConfig Scalar)
    (group : List (Rollout Scalar)) (anchors : List Scalar) (next : TetherRuntime Scalar)
    (scored : List (Rollout Scalar)) : Prop where
  length : scored.length = group.length
  credits : ∀ (place : Nat) (rollout assigned : Rollout Scalar) (anchor : Scalar),
    group[place]? = some rollout → anchors[place]? = some anchor → scored[place]? = some assigned →
    ∀ trajectory layout predictions rawAdvantages returns,
      Evaluated config rollout trajectory layout predictions rawAdvantages returns →
      MixedCredits runtime config trajectory layout predictions rawAdvantages returns anchor assigned
  measured : runtime.adaptive.isSome = true ∨ runtime.positionedAdaptive.isSome = true →
    next.appliedMetrics.mseApplied * ((group.map trainedTokens).sum : Nat) =
      (scored.map squaredAdvantages).sum

/-- Every rollout of a group is evaluated, with its trained tokens inside the
policy's sequence. -/
def AllEvaluated (runtime : TetherRuntime Scalar) (config : ValueFunctionConfig Scalar)
    (group : List (Rollout Scalar)) : Prop :=
  ∀ rollout ∈ group, ∃ trajectory layout predictions rawAdvantages returns,
    Evaluated config rollout trajectory layout predictions rawAdvantages returns ∧
      InsidePolicy runtime trajectory

omit [IsStrictOrderedRing Scalar] in
/-- Streams of credit are mixed credits. -/
theorem Evaluated.mixed_credits {config : ValueFunctionConfig Scalar} {rollout : Rollout Scalar}
    {trajectory : ValueTrajectory Scalar} {layout : Option TrainingLayout}
    {predictions rawAdvantages returns : List (List Scalar)}
    (evaluated : Evaluated config rollout trajectory layout predictions rawAdvantages returns)
    {runtime : TetherRuntime Scalar} (configured : Configured runtime config)
    (inside : InsidePolicy runtime trajectory) (anchor : Scalar) (assigned : Rollout Scalar)
    (written : assigned.advantages = some (rolloutCredits runtime trajectory.inserted anchor
      (appliedRho runtime) (streamsOf trajectory predictions rawAdvantages))) :
    MixedCredits runtime config trajectory layout predictions rawAdvantages returns anchor
      assigned := by
  refine ⟨written.trans (congrArg some (evaluated.credits configured inside anchor)), ?_⟩
  intro sampleIndex sample found position trained
  exact evaluated.entries anchor _ sampleIndex sample found position trained

omit [IsStrictOrderedRing Scalar] in
/-- Other value results of a rollout are results for the same streams. -/
theorem Evaluated.unique {config : ValueFunctionConfig Scalar} {rollout : Rollout Scalar}
    {trajectory other : ValueTrajectory Scalar} {layout otherLayout : Option TrainingLayout}
    {predictions rawAdvantages returns others otherAdvantages otherReturns : List (List Scalar)}
    (evaluated : Evaluated config rollout trajectory layout predictions rawAdvantages returns)
    (again : Evaluated config rollout other otherLayout others otherAdvantages otherReturns) :
    other = trajectory ∧ others = predictions ∧ otherAdvantages = rawAdvantages :=
  ⟨Option.some.inj (again.valueTrajectory.symm.trans evaluated.valueTrajectory),
    Option.some.inj (again.valuePredictions.symm.trans evaluated.valuePredictions),
    Option.some.inj (again.valueAdvantages.symm.trans evaluated.valueAdvantages)⟩

/-- What scoring a rollout with an anchor writes. -/
structure ScoredItem {Value : Type v} (runtime : TetherRuntime Scalar)
    (config : ValueFunctionConfig Scalar) (assignedOf : Value → Rollout Scalar)
    (rowsOf : Value → List (TetherRegressionStats Scalar × Scalar)) (adaptive : Prop)
    (item : Rollout Scalar × Scalar) (value : Value) : Prop where
  credits : ∀ trajectory layout predictions rawAdvantages returns,
    Evaluated config item.1 trajectory layout predictions rawAdvantages returns →
    MixedCredits runtime config trajectory layout predictions rawAdvantages returns item.2
      (assignedOf value)
  measured : adaptive → Measures item.1 (assignedOf value) (rowsOf value)

/-- A group of scored items is scored. -/
theorem scored_items {Value : Type v} {runtime : TetherRuntime Scalar}
    {config : ValueFunctionConfig Scalar} {assignedOf : Value → Rollout Scalar}
    {rowsOf : Value → List (TetherRegressionStats Scalar × Scalar)} {adaptive : Prop}
    {group : List (Rollout Scalar)} {anchors : List Scalar} {values : List Value}
    (sameLength : anchors.length = group.length)
    (scored : List.Forall₂ (ScoredItem runtime config assignedOf rowsOf adaptive)
      (group.zip anchors) values) (next : TetherRuntime Scalar)
    (isAdaptive : runtime.adaptive.isSome = true ∨ runtime.positionedAdaptive.isSome = true →
      adaptive ∧
        next.appliedMetrics = TetherRuntime.recordAppliedMetrics (values.flatMap rowsOf)) :
    TetherScored runtime config group anchors next (values.map assignedOf) := by
  have zipLength : (group.zip anchors).length = group.length := by
    rw [List.length_zip, sameLength, Nat.min_self]
  constructor
  case length => rw [List.length_map, ← scored.length_eq, zipLength]
  case credits =>
    intro place rollout assigned anchor isRollout isAnchor isAssigned
    rw [List.getElem?_map] at isAssigned
    obtain ⟨value, isValue, rfl⟩ := Option.map_eq_some_iff.mp isAssigned
    have zipped : (group.zip anchors)[place]? = some (rollout, anchor) :=
      List.getElem?_zip_eq_some.mpr ⟨isRollout, isAnchor⟩
    obtain ⟨inZip, isItem⟩ := List.getElem?_eq_some_iff.mp zipped
    obtain ⟨inValues, isListed⟩ := List.getElem?_eq_some_iff.mp isValue
    have related := (List.forall₂_iff_get.mp scored).2 place inZip inValues
    rw [List.get_eq_getElem, List.get_eq_getElem, isItem, isListed] at related
    exact related.credits
  case measured =>
    intro recorded
    obtain ⟨holds, isMetrics⟩ := isAdaptive recorded
    rw [isMetrics, List.map_map]
    apply record_applied_metrics assignedOf rowsOf group values
    have firsts : (group.zip anchors).map Prod.fst = group := List.map_fst_zip sameLength.ge
    rw [← firsts, List.forall₂_map_left_iff]
    exact scored.imp (fun item value related => related.measured holds)

/-- On the streams of value results every group is scored with the mixed credit of
its anchors, whether the runtime has a fixed, an adaptive or a positioned
coefficient. -/
theorem tether_credit_identity (runtime : TetherRuntime Scalar) (config : ValueFunctionConfig Scalar)
    (configured : Configured runtime config) (group : List (Rollout Scalar))
    (evaluated : AllEvaluated runtime config group) (anchors : List Scalar)
    (anchored : groupBaselines (group.map Rollout.scoredReward) runtime.config.group = .ok anchors) :
    ∃ next scored, runtime.scoreGroup group = .ok (next, scored) ∧
      TetherScored runtime config group anchors next scored := by
  have sameLength : anchors.length = group.length :=
    (group_baselines_length anchored).trans (List.length_map _)
  rw [TetherRuntime.scoreGroup]
  cases bins : runtime.positionedAdaptive with
  | none =>
    have each : ∀ item ∈ group.zip anchors, ∃ value, runtime.scoreRollout runtime.rho item = .ok value ∧
        ScoredItem runtime config Prod.fst
          (fun value => value.2.map (fun stats => (stats, runtime.rho)))
          (runtime.adaptive.isSome = true) item value := by
      rintro ⟨rollout, anchor⟩ member
      obtain ⟨trajectory, layout, predictions, rawAdvantages, returns, isEvaluated, inside⟩ :=
        evaluated rollout (List.of_mem_zip member).1
      obtain ⟨value, accepted, written, measured⟩ :=
        isEvaluated.single configured inside bins anchor
      refine ⟨value, accepted, ?_, measured⟩
      intro other otherLayout others otherAdvantages otherReturns again
      obtain ⟨rfl, rfl, rfl⟩ := isEvaluated.unique again
      exact again.mixed_credits configured inside anchor value.1 written
    obtain ⟨values, collected, scored⟩ := Fallible.collect_accepts _ _ _ each
    dsimp only
    rw [TetherRuntime.scoreGlobalGroup, anchored]
    dsimp only [bind, Except.bind]
    rw [collected]
    dsimp only
    cases adaptive : runtime.adaptive with
    | none =>
      refine ⟨_, _, rfl, scored_items sameLength scored runtime ?_⟩
      rintro (impossible | impossible)
      · rw [adaptive] at impossible
        cases impossible
      · rw [bins] at impossible
        cases impossible
    | some controller =>
      obtain ⟨observed, accepted⟩ := controller.observe_group_accepts (values.flatMap Prod.snd)
      have isAdaptive : runtime.adaptive.isSome = true := by rw [adaptive]; rfl
      dsimp only
      rw [accepted]
      split_ifs
      · refine ⟨_, _, rfl, scored_items sameLength scored _ (fun _ => ⟨isAdaptive, ?_⟩)⟩
        rw [List.map_flatMap]
      · refine ⟨_, _, rfl, scored_items sameLength scored _ (fun _ => ⟨isAdaptive, ?_⟩)⟩
        rw [List.map_flatMap]
  | some controller =>
    have shaped := configured.shaped controller bins
    have each : ∀ item ∈ group.zip anchors, ∃ value,
        runtime.scorePositionedRollout (controller.table shaped) item = .ok value ∧
        (ScoredItem runtime config Prod.fst
          (fun value => value.2.bins.zip (controller.table shaped).rho) True item value ∧
          value.2.bins.length = controller.numBins) := by
      rintro ⟨rollout, anchor⟩ member
      obtain ⟨trajectory, layout, predictions, rawAdvantages, returns, isEvaluated, inside⟩ :=
        evaluated rollout (List.of_mem_zip member).1
      obtain ⟨value, accepted, written, length, measured⟩ :=
        isEvaluated.positioned configured inside controller bins shaped anchor
      refine ⟨value, accepted, ⟨?_, fun _ => measured⟩, length⟩
      intro other otherLayout others otherAdvantages otherReturns again
      obtain ⟨rfl, rfl, rfl⟩ := isEvaluated.unique again
      exact again.mixed_credits configured inside anchor value.1 written
    obtain ⟨values, collected, related⟩ := Fallible.collect_accepts _ _ _ each
    have scored := related.imp (fun item value both => both.1)
    have sameBins : ∀ stats ∈ values.map Prod.snd, stats.bins.length = controller.numBins := by
      intro stats member
      obtain ⟨value, inValues, rfl⟩ := List.mem_map.mp member
      obtain ⟨item, inGroup, accepted⟩ := Fallible.collected_from collected value inValues
      obtain ⟨other, alsoAccepted, -, length⟩ := each item inGroup
      obtain rfl := Except.ok.inj (alsoAccepted.symm.trans accepted)
      exact length
    obtain ⟨observed, accepted, -⟩ := controller.observe_group_accepts _ shaped sameBins
    dsimp only
    rw [TetherRuntime.scorePositionedGroup, anchored, controller.coefficient_table_eq shaped]
    dsimp only [bind, Except.bind]
    rw [collected]
    dsimp only
    rw [accepted]
    split_ifs
    · refine ⟨_, _, rfl, scored_items sameLength scored _ (fun _ => ⟨trivial, ?_⟩)⟩
      rw [List.flatMap_map]
    · refine ⟨_, _, rfl, scored_items sameLength scored _ (fun _ => ⟨trivial, ?_⟩)⟩
      rw [List.flatMap_map]

/-- An answer has the value result of its response. -/
theorem answer_evaluated (reward : Rat) (returns : List (List Rat))
    (computed : computeValueResult (answerTrajectory reward) answerPredictions undecayedConfig none =
      .ok (answerPredictions, answerAdvantages reward, returns)) :
    Evaluated undecayedConfig (answerRollout reward) (answerTrajectory reward) none
      answerPredictions (answerAdvantages reward) returns := by
  refine ⟨rfl, rfl, rfl, ⟨_, computed⟩, nofun, ?_, rfl⟩
  intro sample member position trained
  have within := (List.getElem?_eq_some_iff.mp trained).1
  rcases List.mem_cons.mp member with rfl | later
  · exact within
  · obtain rfl := List.mem_singleton.mp later
    exact within

theorem answer_inside (reward : Rat) : InsidePolicy halfRuntime (answerTrajectory reward) := by
  intro sample member position trained
  have within := (List.getElem?_eq_some_iff.mp trained).1
  rcases List.mem_cons.mp member with rfl | later
  · exact Nat.lt_trans within (by decide)
  · obtain rfl := List.mem_singleton.mp later
    exact Nat.lt_trans within (by decide)

/-- Two answers against each other's reward, with an adaptive coefficient. Their six trained
tokens are those of the recorded error. -/
theorem tether_credit_identity_two_answers :
    ∃ next scored, halfRuntime.scoreGroup [answerRollout 1, answerRollout 0] = .ok (next, scored) ∧
      TetherScored halfRuntime undecayedConfig [answerRollout 1, answerRollout 0] [0, 1] next
        scored ∧
      next.appliedMetrics.mseApplied * 6 = (scored.map squaredAdvantages).sum := by
  obtain ⟨next, scored, accepted, isScored⟩ := tether_credit_identity halfRuntime undecayedConfig
    ⟨rfl, rfl, rfl, fun _ withBins => by cases withBins⟩ [answerRollout 1, answerRollout 0]
    (by
      intro rollout member
      rcases List.mem_cons.mp member with rfl | later
      · exact ⟨_, _, _, _, _, answer_evaluated 1 [[0, 1, 1], [0, 0, 0, 0, 1]] (by decide +kernel),
          answer_inside 1⟩
      · obtain rfl := List.mem_singleton.mp later
        exact ⟨_, _, _, _, _, answer_evaluated 0 [[0, 0, 0], [0, 0, 0, 0, 0]] (by decide +kernel),
          answer_inside 0⟩)
    [0, 1] (by decide +kernel)
  exact ⟨next, scored, accepted, isScored, isScored.measured (.inl rfl)⟩

end PrimeRl.Orchestrator.Tether
