import PrimeRl.Orchestrator.Tether
import PrimeRl.Orchestrator.Trajectories
import PrimeRl.Support.Fallible
import PrimeRl.Value.Trajectory

/-!
# Scoring a group with a mixed baseline

The runtime subtracts a mix of the group anchor and the critic's value from the
critic's return, token by token. One scorer has one coefficient, the other takes
the coefficient of the bin of the token's action position. Both gather the
statistics of the tokens they score for the controller.
-/

namespace PrimeRl.Orchestrator.Tether

open PrimeRl.Orchestrator.MessageGraph PrimeRl.Orchestrator.Trajectories
open PrimeRl.Orchestrator.ValueContext PrimeRl.Transport PrimeRl.Value.Trajectory

universe u
variable {Scalar : Type u} [Field Scalar] [LinearOrder Scalar] [IsStrictOrderedRing Scalar]

/-! ## Anchors -/

inductive GroupBaselineType where
  | mean
  | leaveOneOut
deriving DecidableEq, Repr

/-- The anchor of every rollout: the mean of the group, or of its other rollouts. -/
def groupBaselines (rewards : List Scalar) (baseline : GroupBaselineType) :
    Except String (List Scalar) :=
  if rewards.isEmpty then .ok []
  else
    match baseline with
    | .mean => .ok (List.replicate rewards.length (rewards.sum / (rewards.length : Scalar)))
    | .leaveOneOut =>
        if rewards.length < 2 then .error "leave_one_out baseline requires group_size >= 2"
        else
          .ok ((List.range rewards.length).map (fun index =>
            ((rewards.zipIdx.filter (fun other => decide (other.2 ≠ index))).map Prod.fst).sum /
              ((rewards.length - 1 : Nat) : Scalar)))

omit [LinearOrder Scalar] [IsStrictOrderedRing Scalar] in
theorem group_baselines_length {rewards anchors : List Scalar} {baseline : GroupBaselineType}
    (accepted : groupBaselines rewards baseline = .ok anchors) :
    anchors.length = rewards.length := by
  unfold groupBaselines at accepted
  by_cases empty : rewards.isEmpty
  · rw [if_pos empty] at accepted
    cases accepted
    rw [List.isEmpty_iff.mp empty]
  · rw [if_neg empty] at accepted
    cases baseline with
    | mean =>
      cases accepted
      exact List.length_replicate
    | leaveOneOut =>
      dsimp only at accepted
      split_ifs at accepted
      cases accepted
      rw [List.length_map, List.length_range]

/-! ## Rollouts -/

/-- A rollout with the streams of the critic. -/
structure Rollout (Scalar : Type u) where
  trace : Trace Scalar
  envName : String
  samples : List (TrainingSample Scalar)
  reward : Scalar
  advantages : Option (List Scalar)
  valuePredictions : Option (List (List Scalar))
  valueAdvantages : Option (List (List Scalar))
  valueVersion : Option Int
  valuePrefix : Option TokenPrefix
  valueTrajectory : Option (ValueTrajectory Scalar)

/-- What scoring reads of a sample. -/
structure ScoredSample where
  tokenIds : List Nat
  mask : List Bool
deriving DecidableEq, Repr

namespace Rollout

/-- The samples of the critic's copy, where there is one. -/
def scoredSamples (rollout : Rollout Scalar) : List ScoredSample :=
  match rollout.valueTrajectory with
  | some trajectory => trajectory.samples.map (fun sample => ⟨sample.tokenIds, sample.mask⟩)
  | none => rollout.samples.map (fun sample => ⟨sample.tokenIds, sample.mask⟩)

/-- The reward the critic was asked about, where there is one. -/
def scoredReward (rollout : Rollout Scalar) : Scalar :=
  match rollout.valueTrajectory with
  | some trajectory => trajectory.reward
  | none => rollout.reward

/-- Tokens, sampled mask and trained mask of every branch. -/
def branchViews (rollout : Rollout Scalar) : List (List Nat × List Bool × List Bool) :=
  match rollout.valueTrajectory with
  | some trajectory =>
      trajectory.samples.map (fun sample => (sample.tokenIds, sample.sampledMask, sample.mask))
  | none =>
      (iterTrainableBranches rollout.trace rollout.trace.branches).map (fun item =>
        (item.branch.tokenIds, item.branch.sampledMask, item.mask))

/-- Write the stream of per-token advantages. -/
def assignAdvantages (rollout : Rollout Scalar) (values : List Scalar) :
    Except String (Rollout Scalar) :=
  let total := (rollout.samples.map (fun sample => sample.tokenIds.length)).sum
  if values.length ≠ total then
    .error s!"per-token advantages must align with the rollout's tokens: got {values.length}, expected {total} (env '{rollout.envName}')."
  else .ok { rollout with advantages := some values }

end Rollout

/-! ## The runtime -/

/-- A group anchor mixed with the critic's prediction. -/
structure TetherBaselineConfig (Scalar : Type u) [Field Scalar] [LinearOrder Scalar] where
  group : GroupBaselineType
  rho : Scalar
  adaptive : Option (AdaptiveTetherConfig Scalar)
  adaptiveGroup : adaptive.isSome = true → group = .leaveOneOut

/-- Mean squared errors of the applied coefficients and of the anchors. -/
structure AppliedMetrics (Scalar : Type u) where
  mseApplied : Scalar
  mseGroupApplied : Scalar

structure TetherRuntime (Scalar : Type u) [Field Scalar] [LinearOrder Scalar] where
  config : TetherBaselineConfig Scalar
  gamma : Scalar
  gaeLambda : Scalar
  valueSeqLen : Nat
  policySeqLen : Nat
  adaptiveMinValueVersion : Int
  appliedMetrics : AppliedMetrics Scalar
  adaptive : Option (AdaptiveTetherCoefficient Scalar)
  positionedAdaptive : Option (AdaptivePositionTetherCoefficients Scalar)

namespace TetherRuntime

def create (config : TetherBaselineConfig Scalar) (gamma gaeLambda : Scalar)
    (valueSeqLen policySeqLen : Nat) (adaptiveBatchSize : Option Nat)
    (adaptiveMinValueVersion : Int) : Except String (TetherRuntime Scalar) :=
  let runtime : TetherRuntime Scalar :=
    { config := config
      gamma := gamma
      gaeLambda := gaeLambda
      valueSeqLen := valueSeqLen
      policySeqLen := policySeqLen
      adaptiveMinValueVersion := adaptiveMinValueVersion
      appliedMetrics := ⟨0, 0⟩
      adaptive := none
      positionedAdaptive := none }
  match config.adaptive with
  | none => .ok runtime
  | some adaptive =>
      match adaptiveBatchSize with
      | none => .error "adaptive TETHER needs a resolved rollout batch size"
      | some batchSize =>
          match adaptive.position with
          | none => do
              let controller ← AdaptiveTetherCoefficient.create adaptive batchSize gamma gaeLambda
              .ok { runtime with adaptive := some controller }
          | some position =>
              match position.resolve policySeqLen batchSize with
              | .error message => .error message
              | .ok (numBins, binSize, minBinRollouts) => do
                  let controller ← AdaptivePositionTetherCoefficients.create adaptive batchSize gamma
                    gaeLambda numBins binSize minBinRollouts
                  .ok { runtime with positionedAdaptive := some controller }

/-- The one coefficient of a runtime without bins. -/
def rho (runtime : TetherRuntime Scalar) : Scalar :=
  match runtime.adaptive with
  | some adaptive => adaptive.rho
  | none => runtime.config.rho

def criticVisibleLength (runtime : TetherRuntime Scalar) (rollout : Rollout Scalar)
    (sampleLength : Nat) : Nat :=
  let inserted :=
    match rollout.valueTrajectory with
    | some trajectory => trajectory.inserted
    | none => rollout.valuePrefix
  let criticLength := if inserted.isSome then sampleLength else runtime.valueSeqLen
  min sampleLength criticLength

def adaptiveObservationReady (runtime : TetherRuntime Scalar) (group : List (Rollout Scalar)) : Bool :=
  decide (runtime.adaptiveMinValueVersion = 0) ||
    group.all (fun rollout =>
      match rollout.valueVersion with
      | some version => decide (runtime.adaptiveMinValueVersion ≤ version)
      | none => false)

/-- Measure the scored group with its applied coefficients. -/
def recordAppliedMetrics (rows : List (TetherRegressionStats Scalar × Scalar)) :
    AppliedMetrics Scalar :=
  let weight := (rows.map (fun row => row.1.weight)).sum
  let residual := (rows.map (fun row => residualSum row.1 row.2)).sum
  let groupResidual := (rows.map (fun row => row.1.targetTarget)).sum
  { mseApplied := residual / ((max weight 1 : Nat) : Scalar)
    mseGroupApplied := groupResidual / ((max weight 1 : Nat) : Scalar) }

/-- Temporal credit needs every trained token to be visible. -/
def hidesTrained (runtime : TetherRuntime Scalar) (mask : List Bool) (visibleLength : Nat) : Bool :=
  (decide (runtime.gamma < 1) || decide (runtime.gaeLambda < 1)) &&
    (mask.drop visibleLength).any id

end TetherRuntime

/-! ## One coefficient -/

/-- Advantages of a branch and statistics of a rollout under construction. -/
structure BranchScore (Scalar : Type u) where
  advantages : List Scalar
  accumulator : StatsAccumulator Scalar

/-- One position of a branch. Statistics are kept in adaptive mode only. -/
def scoreIndex (adaptive : Bool) (anchor rho : Scalar) (mask : List Bool)
    (values valueAdvantages : List Scalar) (score : BranchScore Scalar) (index : Nat) :
    Except String (BranchScore Scalar) :=
  match mask[index]? with
  | none => .error "list index out of range"
  | some false => .ok score
  | some true =>
      let valueAdvantage := valueAdvantages.getD index 0
      let feature := values.getD index 0 - anchor
      let centeredTarget := valueAdvantage + feature
      .ok
        { advantages := score.advantages.set index (valueAdvantage + (1 - rho) * feature)
          accumulator :=
            if adaptive then score.accumulator.addRow feature centeredTarget
            else score.accumulator }

namespace TetherRuntime

/-- One branch of a rollout, behind the ones before it. -/
def scoreBranch (runtime : TetherRuntime Scalar) (rollout : Rollout Scalar) (anchor rho : Scalar)
    (score : BranchScore Scalar) (item : (ScoredSample × List Scalar) × List Scalar) :
    Except String (BranchScore Scalar) :=
  match item with
  | ((sample, values), valueAdvantages) =>
      let sampleLength := sample.tokenIds.length
      if values.length ≠ sampleLength ∨ valueAdvantages.length ≠ sampleLength then
        .error "TETHER value streams must span the padded sample stream"
      else
        let visibleLength := runtime.criticVisibleLength rollout sampleLength
        if runtime.hidesTrained sample.mask visibleLength then
          .error "TETHER temporal credit requires every trainable token to be visible to the critic"
        else do
          let branch ← (List.range (min visibleLength runtime.policySeqLen)).foldlM
            (scoreIndex runtime.adaptive.isSome anchor rho sample.mask values valueAdvantages)
            ⟨List.replicate sampleLength 0, score.accumulator⟩
          .ok ⟨score.advantages ++ branch.advantages, branch.accumulator⟩

/-- One rollout: its credit, and in adaptive mode its statistics. -/
def scoreRollout (runtime : TetherRuntime Scalar) (rho : Scalar)
    (item : Rollout Scalar × Scalar) :
    Except String (Rollout Scalar × List (TetherRegressionStats Scalar)) :=
  match item with
  | (rollout, anchor) =>
      let samples := rollout.scoredSamples
      match rollout.valuePredictions, rollout.valueAdvantages with
      | some predictions, some rawAdvantages =>
          if predictions.length ≠ samples.length ∨ rawAdvantages.length ≠ samples.length then
            .error "TETHER value/sample branch count mismatch"
          else do
            let score ← ((samples.zip predictions).zip rawAdvantages).foldlM
              (runtime.scoreBranch rollout anchor rho) ⟨[], .empty⟩
            let assigned ← rollout.assignAdvantages score.advantages
            if runtime.adaptive.isSome then do
              let stats ← score.accumulator.freeze
              .ok (assigned, [stats])
            else .ok (assigned, [])
      | _, _ => .error "value evaluator did not attach TETHER predictions and policy GAE"

/-- Credit of a group with one coefficient, which the group is then queued for. -/
def scoreGlobalGroup (runtime : TetherRuntime Scalar) (group : List (Rollout Scalar)) :
    Except String (TetherRuntime Scalar × List (Rollout Scalar)) := do
  let anchors ← groupBaselines (group.map Rollout.scoredReward) runtime.config.group
  let rho := runtime.rho
  let scored ← Fallible.collect (runtime.scoreRollout rho) (group.zip anchors)
  let rollouts := scored.map Prod.fst
  let regressionStats := scored.flatMap Prod.snd
  match runtime.adaptive with
  | none => .ok (runtime, rollouts)
  | some adaptive =>
      let measured :=
        { runtime with
          appliedMetrics := recordAppliedMetrics (regressionStats.map (fun stats => (stats, rho))) }
      if runtime.adaptiveObservationReady group then
        match adaptive.observeGroup regressionStats with
        | (observed, none) => .ok ({ measured with adaptive := some observed }, rollouts)
        | (_, some message) => .error message
      else .ok (measured, rollouts)

end TetherRuntime

/-! ## One coefficient for each bin -/

/-- Advantages, statistics by bin and the action position reached in a branch. -/
structure PositionedScore (Scalar : Type u) where
  advantages : List Scalar
  accumulators : List (StatsAccumulator Scalar)
  actionPosition : Nat

/-- One position of a branch. Sampled tokens advance the action position whether
they are trained or not. -/
def scorePositionedIndex (coefficients : TetherCoefficientTable Scalar) (anchor : Scalar)
    (actionMask trainMask : List Bool) (values valueAdvantages : List Scalar)
    (score : PositionedScore Scalar) (index : Nat) : PositionedScore Scalar :=
  if !actionMask.getD index false then score
  else
    let binIndex := coefficients.binIndex score.actionPosition
    let advanced := { score with actionPosition := score.actionPosition + 1 }
    if !trainMask.getD index false then advanced
    else
      let valueAdvantage := valueAdvantages.getD index 0
      let feature := values.getD index 0 - anchor
      let centeredTarget := valueAdvantage + feature
      let rho := coefficients.rho.getD binIndex 0
      { advanced with
        advantages := score.advantages.set index (valueAdvantage + (1 - rho) * feature)
        accumulators :=
          score.accumulators.modify binIndex (fun accumulator =>
            accumulator.addRow feature centeredTarget) }

/-- Whether some token is trained that was not sampled; the masks are zipped
strictly. -/
def trainsUnsampled : List Bool → List Bool → Except String Bool
  | [], [] => .ok false
  | [], _ :: _ => .error "zip() argument 2 is longer than argument 1"
  | _ :: _, [] => .error "zip() argument 2 is shorter than argument 1"
  | trainable :: trainMask, sampled :: actionMask =>
      if trainable && !sampled then .ok true else trainsUnsampled trainMask actionMask

/-- Advantages and statistics by bin of a rollout under construction. -/
structure RolloutScore (Scalar : Type u) [Field Scalar] [LinearOrder Scalar] where
  advantages : List Scalar
  bins : List (TetherRegressionStats Scalar)

namespace TetherRuntime

/-- One branch of a rollout, behind the ones before it. -/
def scorePositionedBranch (runtime : TetherRuntime Scalar) (rollout : Rollout Scalar)
    (anchor : Scalar) (coefficients : TetherCoefficientTable Scalar) (score : RolloutScore Scalar)
    (item : (((List Nat × List Bool × List Bool) × ScoredSample) × List Scalar) × List Scalar) :
    Except String (RolloutScore Scalar) :=
  match item with
  | ((((branchTokens, actionMask, trainMask), sample), values), valueAdvantages) =>
      let sampleLength := sample.tokenIds.length
      if sample.tokenIds ≠ branchTokens ∨ sample.mask ≠ trainMask then
        .error "positioned TETHER branch/sample token streams are misaligned"
      else if values.length ≠ sampleLength ∨ valueAdvantages.length ≠ sampleLength then
        .error "TETHER value streams must span the padded sample stream"
      else if actionMask.length ≠ sampleLength then
        .error "positioned TETHER train mask must follow native sampled provenance"
      else
        match trainsUnsampled trainMask actionMask with
        | .error message => .error message
        | .ok true => .error "positioned TETHER train mask must follow native sampled provenance"
        | .ok false =>
            let visibleLength := runtime.criticVisibleLength rollout sampleLength
            if runtime.hidesTrained trainMask visibleLength then
              .error "TETHER temporal credit requires every trainable token to be visible to the critic"
            else do
              let branch := (List.range (min visibleLength runtime.policySeqLen)).foldl
                (scorePositionedIndex coefficients anchor actionMask trainMask values valueAdvantages)
                ⟨List.replicate sampleLength 0, List.replicate coefficients.numBins .empty, 0⟩
              let frozen ← Fallible.collect StatsAccumulator.freeze branch.accumulators
              .ok ⟨score.advantages ++ branch.advantages, List.zipWith (· + ·) score.bins frozen⟩

/-- One rollout: its credit and its statistics by bin. -/
def scorePositionedRollout (runtime : TetherRuntime Scalar)
    (coefficients : TetherCoefficientTable Scalar) (item : Rollout Scalar × Scalar) :
    Except String (Rollout Scalar × TetherRolloutStats Scalar) :=
  match item with
  | (rollout, anchor) =>
      let samples := rollout.scoredSamples
      match rollout.valuePredictions, rollout.valueAdvantages with
      | some predictions, some rawAdvantages =>
          let branchViews := rollout.branchViews
          if branchViews.length ≠ samples.length ∨ predictions.length ≠ samples.length ∨
              rawAdvantages.length ≠ samples.length then
            .error "positioned TETHER branch/sample/value alignment mismatch"
          else do
            let score ← (((branchViews.zip samples).zip predictions).zip rawAdvantages).foldlM
              (runtime.scorePositionedBranch rollout anchor coefficients)
              ⟨[], List.replicate coefficients.numBins 0⟩
            let assigned ← rollout.assignAdvantages score.advantages
            let stats ← TetherRolloutStats.create score.bins
            .ok (assigned, stats)
      | _, _ => .error "value evaluator did not attach TETHER predictions and policy GAE"

/-- Credit of a group with the coefficients of the bins, which the group is then
queued for. -/
def scorePositionedGroup (runtime : TetherRuntime Scalar)
    (controller : AdaptivePositionTetherCoefficients Scalar) (group : List (Rollout Scalar)) :
    Except String (TetherRuntime Scalar × List (Rollout Scalar)) := do
  let anchors ← groupBaselines (group.map Rollout.scoredReward) runtime.config.group
  let coefficients ← controller.coefficientTable
  let scored ← Fallible.collect (runtime.scorePositionedRollout coefficients) (group.zip anchors)
  let rollouts := scored.map Prod.fst
  let regressionStats := scored.map Prod.snd
  let measured :=
    { runtime with
      appliedMetrics := recordAppliedMetrics
        (regressionStats.flatMap (fun stats => stats.bins.zip coefficients.rho)) }
  if runtime.adaptiveObservationReady group then
    match controller.observeGroup regressionStats with
    | (observed, none) => .ok ({ measured with positionedAdaptive := some observed }, rollouts)
    | (_, some message) => .error message
  else .ok (measured, rollouts)

def scoreGroup (runtime : TetherRuntime Scalar) (group : List (Rollout Scalar)) :
    Except String (TetherRuntime Scalar × List (Rollout Scalar)) :=
  match runtime.positionedAdaptive with
  | some controller => runtime.scorePositionedGroup controller group
  | none => runtime.scoreGlobalGroup group

end TetherRuntime

end PrimeRl.Orchestrator.Tether
