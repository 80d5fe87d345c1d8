import PrimeRl.Orchestrator.TetherGroups

/-!
# Bins refine one coefficient

With equal coefficients in all bins the scorer with bins assigns what the scorer
with one coefficient assigns, and refuses what it refuses. The statistics of the
bins of a rollout sum to its statistics, because every scored token has one bin:
that of the number of sampled tokens before it in its branch.
-/

namespace PrimeRl.Orchestrator.Tether

open Regression
open PrimeRl.Orchestrator.ValueContext PrimeRl.Value.Credit PrimeRl.Value.Trajectory

universe u v
variable {Scalar : Type u} [Field Scalar] [LinearOrder Scalar] [IsStrictOrderedRing Scalar]

/-- Two runtimes that differ in their coefficients only. -/
structure SameSettings (first second : TetherRuntime Scalar) : Prop where
  group : first.config.group = second.config.group
  gamma : first.gamma = second.gamma
  gaeLambda : first.gaeLambda = second.gaeLambda
  valueSeqLen : first.valueSeqLen = second.valueSeqLen
  policySeqLen : first.policySeqLen = second.policySeqLen

/-- Every rollout of a group is attached. -/
def AllAttached (group : List (Rollout Scalar)) : Prop :=
  ∀ rollout ∈ group, ∃ trajectory predictions rawAdvantages,
    Attached rollout trajectory predictions rawAdvantages

section
variable {first second : TetherRuntime Scalar} (same : SameSettings first second)
include same

omit [IsStrictOrderedRing Scalar]

theorem SameSettings.reach (inserted : Option TokenPrefix) (sample : ValueTrajectorySample) :
    reach first inserted sample = reach second inserted sample := by
  rw [Tether.reach, Tether.reach, same.valueSeqLen, same.policySeqLen]

theorem SameSettings.hides (inserted : Option TokenPrefix) (sample : ValueTrajectorySample) :
    hides first inserted sample = hides second inserted sample := by
  rw [Tether.hides, Tether.hides, TetherRuntime.hidesTrained, TetherRuntime.hidesTrained, same.gamma,
    same.gaeLambda, same.valueSeqLen]

theorem SameSettings.credits (inserted : Option TokenPrefix) (anchor : Scalar)
    (rhoAt : ValueTrajectorySample → Nat → Scalar) (streams : List (Streams Scalar)) :
    rolloutCredits first inserted anchor rhoAt streams =
      rolloutCredits second inserted anchor rhoAt streams := by
  simp only [rolloutCredits, same.reach]

end

omit [Field Scalar] [LinearOrder Scalar] [IsStrictOrderedRing Scalar] in
/-- Advantages of one length are refused alike. -/
theorem assign_advantages_lengths (rollout : Rollout Scalar) (values others : List Scalar)
    (sameLength : values.length = others.length) {Result : Type v} (result : Result) :
    (rollout.assignAdvantages values).map (fun _ => result) =
      (rollout.assignAdvantages others).map (fun _ => result) := by
  rw [Rollout.assignAdvantages, Rollout.assignAdvantages, sameLength]
  split_ifs
  · rfl
  · rfl

omit [LinearOrder Scalar] [IsStrictOrderedRing Scalar] in
theorem branch_credits_congr (anchor : Scalar) (rhoAt otherAt : Nat → Scalar) (limit length : Nat)
    (mask : List Bool) (values valueAdvantages : List Scalar)
    (sameRho : ∀ index, rhoAt index = otherAt index) :
    branchCredits anchor rhoAt limit length mask values valueAdvantages =
      branchCredits anchor otherAt limit length mask values valueAdvantages := by
  rw [funext sameRho]

omit [IsStrictOrderedRing Scalar] in
theorem rollout_credits_length (runtime : TetherRuntime Scalar) (inserted : Option TokenPrefix)
    (anchor : Scalar) (rhoAt : ValueTrajectorySample → Nat → Scalar)
    (streams : List (Streams Scalar)) :
    (rolloutCredits runtime inserted anchor rhoAt streams).length =
      (streams.map (fun item => item.1.1.tokenIds.length)).sum := by
  rw [rolloutCredits, List.length_flatMap]
  simp only [branch_credits_length]

omit [LinearOrder Scalar] [IsStrictOrderedRing Scalar] in
/-- Every coefficient of a table is read at some bin, and bins read coefficients. -/
theorem rho_of_constant (coefficients : TetherCoefficientTable Scalar) (rho : Scalar)
    (constant : ∀ coefficient ∈ coefficients.rho, coefficient = rho) (actionMask : List Bool)
    (index : Nat) : rhoOf coefficients actionMask index = rho := by
  have inside : binOf coefficients actionMask index < coefficients.rho.length :=
    coefficients.bin_index_lt _
  rw [rhoOf, List.getD_eq_getElem _ _ inside]
  exact constant _ (List.getElem_mem inside)

omit [IsStrictOrderedRing Scalar] in
/-- What every scored position of a rollout contributes is summed bin by bin. -/
theorem sum_bins {Total : Type v} [AddCommMonoid Total] (runtime : TetherRuntime Scalar)
    (inserted : Option TokenPrefix) (coefficients : TetherCoefficientTable Scalar)
    (value : Streams Scalar → Nat → Total) (streams : List (Streams Scalar)) :
    ((List.range coefficients.numBins).map (fun bin => (streams.flatMap (fun item =>
      ((scoredPositions (reach runtime inserted item.1.1) item.1.1.mask).filter (fun index =>
        decide (binOf coefficients item.1.1.sampledMask index = bin))).map (value item))).sum)).sum =
      (streams.flatMap (fun item => (scoredPositions (reach runtime inserted item.1.1)
        item.1.1.mask).map (value item))).sum := by
  induction streams with
  | nil =>
    simp only [List.flatMap_nil, List.sum_nil, List.map_const', List.sum_replicate, nsmul_zero]
  | cons item streams inductionHypothesis =>
    simp only [List.flatMap_cons, List.sum_append]
    rw [List.sum_map_add, inductionHypothesis,
      Sums.sum_fibers (binOf coefficients item.1.1.sampledMask) (value item) coefficients.numBins _
        (fun index _ => coefficients.bin_index_lt _)]

/-- The bins of a rollout sum to its statistics. -/
theorem bin_statistics_sum (runtime : TetherRuntime Scalar) (inserted : Option TokenPrefix)
    (coefficients : TetherCoefficientTable Scalar) (anchor : Scalar)
    (streams : List (Streams Scalar)) :
    ((List.range coefficients.numBins).map (fun bin => TetherRegressionStats.ofRows
      (rolloutBinRows runtime inserted coefficients anchor streams bin))).sum =
      TetherRegressionStats.ofRows (rolloutRows runtime inserted anchor streams) := by
  apply TetherRegressionStats.moments_injective
  have summed := sum_bins runtime inserted coefficients
    (fun item index => Moments.ofRow (scoredRow anchor item.1.2 item.2 index)) streams
  rw [TetherRegressionStats.moments_sum, List.map_map]
  change ((List.range coefficients.numBins).map (fun bin => Moments.ofRows
    (rolloutBinRows runtime inserted coefficients anchor streams bin))).sum =
    Moments.ofRows (rolloutRows runtime inserted anchor streams)
  simp only [Moments.ofRows, rolloutBinRows, rolloutRows, binRows, List.map_flatMap, List.map_map]
  exact summed

/-! ## Groups -/

/-- What the rollouts of a group become with one coefficient. -/
theorem score_global_group_eq (runtime : TetherRuntime Scalar) (group : List (Rollout Scalar)) :
    (runtime.scoreGlobalGroup group).map Prod.snd =
      (groupBaselines (group.map Rollout.scoredReward) runtime.config.group).bind (fun anchors =>
        (Fallible.collect (runtime.scoreRollout runtime.rho) (group.zip anchors)).map
          (List.map Prod.fst)) := by
  rw [TetherRuntime.scoreGlobalGroup]
  dsimp only [bind]
  cases groupBaselines (group.map Rollout.scoredReward) runtime.config.group with
  | error message => rfl
  | ok anchors =>
    dsimp only [Except.bind]
    cases Fallible.collect (runtime.scoreRollout runtime.rho) (group.zip anchors) with
    | error message => rfl
    | ok scored =>
      dsimp only
      cases runtime.adaptive with
      | none => rfl
      | some adaptive =>
        obtain ⟨next, observed⟩ := adaptive.observe_group_accepts (scored.flatMap Prod.snd)
        dsimp only
        rw [observed]
        cases runtime.adaptiveObservationReady group with
        | true => rfl
        | false => rfl

/-- What the rollouts of a group become with bins. -/
theorem score_positioned_group_eq (runtime : TetherRuntime Scalar)
    (controller : AdaptivePositionTetherCoefficients Scalar) (shaped : controller.Shaped)
    (group : List (Rollout Scalar)) (attached : AllAttached group) :
    (runtime.scorePositionedGroup controller group).map Prod.snd =
      (groupBaselines (group.map Rollout.scoredReward) runtime.config.group).bind (fun anchors =>
        (Fallible.collect (runtime.scorePositionedRollout (controller.table shaped))
          (group.zip anchors)).map (List.map Prod.fst)) := by
  rw [TetherRuntime.scorePositionedGroup, controller.coefficient_table_eq shaped]
  dsimp only [bind]
  cases groupBaselines (group.map Rollout.scoredReward) runtime.config.group with
  | error message => rfl
  | ok anchors =>
    dsimp only [Except.bind]
    cases collected : Fallible.collect
        (runtime.scorePositionedRollout (controller.table shaped)) (group.zip anchors) with
    | error message => rfl
    | ok scored =>
      have sameBins : ∀ stats ∈ scored.map Prod.snd, stats.bins.length = controller.numBins := by
        intro stats member
        obtain ⟨result, inScored, rfl⟩ := List.mem_map.mp member
        obtain ⟨item, inGroup, accepted⟩ := Fallible.collected_from collected result inScored
        obtain ⟨trajectory, predictions, rawAdvantages, isAttached⟩ :=
          attached item.1 (List.of_mem_zip inGroup).1
        rw [show item = (item.1, item.2) from rfl,
          score_positioned_rollout_eq isAttached] at accepted
        split_ifs at accepted
        obtain ⟨assigned, -, rfl⟩ := Fallible.map_ok accepted
        rw [rolloutStats, List.length_map, List.length_range]
        exact shaped.rho
      obtain ⟨next, observed, -⟩ := controller.observe_group_accepts _ shaped sameBins
      dsimp only
      rw [observed]
      cases runtime.adaptiveObservationReady group with
      | true => rfl
      | false => rfl

omit [Field Scalar] [LinearOrder Scalar] [IsStrictOrderedRing Scalar] in
/-- Whatever statistics come with them, assigned advantages are the same. -/
theorem assign_parts {Stats Other : Type v} (rollout : Rollout Scalar) (values : List Scalar)
    (stats : Stats) (other : Other) :
    ((rollout.assignAdvantages values).map (fun assigned => (assigned, stats))).map Prod.fst =
      ((rollout.assignAdvantages values).map (fun assigned => (assigned, other))).map Prod.fst := by
  cases rollout.assignAdvantages values with
  | error message => rfl
  | ok assigned => rfl

/-- The second scorer refines the first on a group: equal coefficients assign the
same advantages and refuse the same groups; for any coefficients the bins of a
rollout sum to what the first scorer gathers for it; and the coefficient and the bin
of a trained token are those of the number of sampled tokens before it in its own
branch, capped at the last bin. -/
structure PositionsRefine (positioned single : TetherRuntime Scalar)
    (coefficients : TetherCoefficientTable Scalar) (group : List (Rollout Scalar)) : Prop where
  assigns : (∀ coefficient ∈ coefficients.rho, coefficient = single.rho) →
    (positioned.scoreGroup group).map Prod.snd = (single.scoreGroup group).map Prod.snd
  sums : single.adaptive.isSome = true → ∀ rollout ∈ group, ∀ anchor rho,
    (positioned.scorePositionedRollout coefficients (rollout, anchor)).map
        (fun result => [result.2.bins.sum]) =
      (single.scoreRollout rho (rollout, anchor)).map Prod.snd
  bins : ∀ rollout ∈ group, ∀ trajectory predictions rawAdvantages,
    Attached rollout trajectory predictions rawAdvantages → ∀ anchor assigned stats,
    positioned.scorePositionedRollout coefficients (rollout, anchor) = .ok (assigned, stats) →
    assigned.advantages = some ((streamsOf trajectory predictions rawAdvantages).flatMap (fun item =>
      (List.range item.1.1.tokenIds.length).map (fun index =>
        if index < reach positioned trajectory.inserted item.1.1 ∧
            item.1.1.mask.getD index false = true then
          mixedCredit anchor (coefficients.rho.getD
            (min ((item.1.1.sampledMask.take index).count true / coefficients.binSize)
              (coefficients.numBins - 1)) 0) item.1.2 item.2 index
        else 0))) ∧
    stats.bins = (List.range coefficients.numBins).map (fun bin => TetherRegressionStats.ofRows
      ((streamsOf trajectory predictions rawAdvantages).flatMap (fun item =>
        ((scoredPositions (reach positioned trajectory.inserted item.1.1) item.1.1.mask).filter
          (fun index => decide (min
            ((item.1.1.sampledMask.take index).count true / coefficients.binSize)
            (coefficients.numBins - 1) = bin))).map (scoredRow anchor item.1.2 item.2))))

/-- Scoring with bins refines scoring with one coefficient on every group with
attached streams. -/
theorem positions_refine (positioned single : TetherRuntime Scalar)
    (same : SameSettings positioned single)
    (controller : AdaptivePositionTetherCoefficients Scalar)
    (withBins : positioned.positionedAdaptive = some controller)
    (withoutBins : single.positionedAdaptive = none) (shaped : controller.Shaped)
    (group : List (Rollout Scalar)) (attached : AllAttached group) :
    PositionsRefine positioned single (controller.table shaped) group := by
  constructor
  case assigns =>
    intro constant
    rw [TetherRuntime.scoreGroup, TetherRuntime.scoreGroup, withBins, withoutBins]
    dsimp only
    rw [score_positioned_group_eq positioned controller shaped group attached,
      score_global_group_eq, same.group]
    congr 1
    funext anchors
    apply Fallible.collect_map_congr
    rintro ⟨rollout, anchor⟩ member
    obtain ⟨trajectory, predictions, rawAdvantages, isAttached⟩ :=
      attached rollout (List.of_mem_zip member).1
    rw [score_positioned_rollout_eq isAttached, score_rollout_eq isAttached]
    simp only [same.hides, same.credits]
    by_cases hidden : (streamsOf trajectory predictions rawAdvantages).any
        (fun item => hides single trajectory.inserted item.1.1) = true
    · rw [if_pos hidden, if_pos hidden]
      rfl
    · rw [if_neg hidden, if_neg hidden]
      have credits : rolloutCredits single trajectory.inserted anchor
          (fun sample => rhoOf (controller.table shaped) sample.sampledMask)
          (streamsOf trajectory predictions rawAdvantages) =
          rolloutCredits single trajectory.inserted anchor (fun _ _ => single.rho)
            (streamsOf trajectory predictions rawAdvantages) := by
        congr 1
        funext sample index
        exact rho_of_constant _ _ constant sample.sampledMask index
      rw [credits]
      exact assign_parts rollout _ _ _
  case sums =>
    intro adaptive rollout member anchor rho
    obtain ⟨trajectory, predictions, rawAdvantages, isAttached⟩ := attached rollout member
    rw [score_positioned_rollout_eq isAttached, score_rollout_eq isAttached]
    simp only [same.hides, adaptive, if_true]
    by_cases hidden : (streamsOf trajectory predictions rawAdvantages).any
        (fun item => hides single trajectory.inserted item.1.1) = true
    · rw [if_pos hidden, if_pos hidden]
      rfl
    · rw [if_neg hidden, if_neg hidden]
      have summed := bin_statistics_sum positioned trajectory.inserted (controller.table shaped) anchor
        (streamsOf trajectory predictions rawAdvantages)
      have rows : rolloutRows positioned trajectory.inserted anchor
          (streamsOf trajectory predictions rawAdvantages) =
          rolloutRows single trajectory.inserted anchor
            (streamsOf trajectory predictions rawAdvantages) := by
        simp only [rolloutRows, same.reach]
      rw [rows] at summed
      have sameLength := (rollout_credits_length positioned trajectory.inserted anchor
        (fun sample => rhoOf (controller.table shaped) sample.sampledMask)
        (streamsOf trajectory predictions rawAdvantages)).trans
        (rollout_credits_length single trajectory.inserted anchor (fun _ _ => rho)
          (streamsOf trajectory predictions rawAdvantages)).symm
      have assigned := assign_advantages_lengths rollout _ _ sameLength
        [TetherRegressionStats.ofRows (rolloutRows single trajectory.inserted anchor
          (streamsOf trajectory predictions rawAdvantages))]
      rw [Fallible.map_map, Fallible.map_map]
      refine Eq.trans ?_ assigned
      congr 1
      funext written
      exact congrArg (fun stats => [stats]) summed
  case bins =>
    intro rollout member trajectory predictions rawAdvantages isAttached anchor assigned stats scored
    rw [score_positioned_rollout_eq isAttached] at scored
    split_ifs at scored
    obtain ⟨other, accepted, isResult⟩ := Fallible.map_ok scored
    cases isResult
    refine ⟨?_, rfl⟩
    rw [Rollout.assignAdvantages] at accepted
    split_ifs at accepted
    cases accepted
    rfl

/-! ## Two rollouts of two branches -/

/-- The critic's copy of an answer of two tokens behind one prompt token, and of a branch
that goes on with a context token and one more action. -/
def answerTrajectory (reward : Rat) : ValueTrajectory Rat :=
  { samples :=
      [⟨[1, 2, 3], [false, true, true], [false, true, true], by decide, by decide⟩,
       ⟨[1, 2, 3, 4, 6], [false, false, false, false, true], [false, true, true, false, true],
         by decide, rfl⟩]
    trainingLayout := none
    reward := reward
    inserted := none
    envName := "env"
    groupId := "group"
    policyVersion := 0 }

def answerSample (tokenIds : List Nat) (mask : List Bool) :
    PrimeRl.Transport.TrainingSample Rat :=
  { tokenIds := tokenIds
    mask := mask
    logprobs := []
    temperatures := []
    envName := "env"
    refLogprobs := none
    rlWeights := none
    ceWeights := none
    refKlWeights := none
    advantages := none
    tokenPolicyVersions := none }

/-- What the critic predicts for either answer. -/
def answerPredictions : List (List Rat) := [[0, 1 / 2, 1 / 4], [0, 1 / 2, 1 / 4, 0, 3 / 4]]

/-- The shared actions have their credit in the first branch only. -/
def answerAdvantages (reward : Rat) : List (List Rat) :=
  [[0, reward - 1 / 2, reward - 1 / 4], [0, 0, 0, 0, reward - 3 / 4]]

/-- A rollout of the answer with the streams of the critic. -/
def answerRollout (reward : Rat) : Rollout Rat :=
  { trace := ⟨"trace", none, [], [], [], []⟩
    envName := "env"
    samples := [answerSample [1, 2, 3] [false, true, true],
      answerSample [1, 2, 3, 4, 6] [false, false, false, false, true]]
    reward := reward
    advantages := none
    valuePredictions := some answerPredictions
    valueAdvantages := some (answerAdvantages reward)
    valueVersion := some 1
    valuePrefix := none
    valueTrajectory := some (answerTrajectory reward) }

theorem answer_rollout_attached (reward : Rat) :
    Attached (answerRollout reward) (answerTrajectory reward) answerPredictions
      (answerAdvantages reward) :=
  ⟨rfl, rfl, rfl, rfl, rfl⟩

def halfConfig : AdaptiveTetherConfig Rat :=
  ⟨1 / 2, none, 1 / 10, 1 / 2, by norm_num, by norm_num⟩

/-- A controller of one coefficient. -/
def halfCoefficient : AdaptiveTetherCoefficient Rat :=
  { config := halfConfig
    batchSize := 4
    gamma := 1
    gaeLambda := 1
    rho := 1 / 2
    pendingRollouts := 0
    pending := 0
    updates := 0
    skippedUpdates := 0
    lastFitRho := 1 / 2
    lastFitValid := false
    lastMseGroup := 0
    lastMseFit := 0
    lastMseEma := 0
    lastFeaturePower := 0 }

/-- A controller with three bins of one action. -/
def halfController : AdaptivePositionTetherCoefficients Rat :=
  { config := halfConfig
    batchSize := 4
    gamma := 1
    gaeLambda := 1
    numBins := 3
    binSize := 1
    minBinRollouts := 1
    rho := [1 / 2, 1 / 2, 1 / 2]
    pendingRollouts := 0
    pendingBins := [0, 0, 0]
    pendingContributors := [0, 0, 0]
    updates := 0
    skippedUpdates := 0
    binUpdates := [0, 0, 0]
    lastFitValid := [false, false, false]
    lastContributors := [0, 0, 0]
    lastMseGroup := 0
    lastMseFit := 0
    lastMseEma := 0
    lastFeaturePower := 0
    lastFitTokenFraction := 0 }

theorem half_controller_shaped : halfController.Shaped :=
  ⟨by decide, by decide, rfl, rfl, rfl⟩

/-- The runtime with one adaptive coefficient. -/
def halfRuntime : TetherRuntime Rat :=
  { config := ⟨.leaveOneOut, 1 / 2, some halfConfig, fun _ => rfl⟩
    gamma := 1
    gaeLambda := 1
    valueSeqLen := 8
    policySeqLen := 8
    adaptiveMinValueVersion := 0
    appliedMetrics := ⟨0, 0⟩
    adaptive := some halfCoefficient
    positionedAdaptive := none }

/-- The same runtime with bins. -/
def halfBins : TetherRuntime Rat :=
  { halfRuntime with adaptive := none, positionedAdaptive := some halfController }

theorem answers_attached : AllAttached [answerRollout 1, answerRollout 0] := by
  intro rollout member
  rcases List.mem_cons.mp member with rfl | later
  · exact ⟨_, _, _, answer_rollout_attached 1⟩
  · rw [List.mem_singleton] at later
    subst later
    exact ⟨_, _, _, answer_rollout_attached 0⟩

/-- Two rollouts, whose equal bins are scored as one coefficient. Every bin has the
statistics of one action of each rollout, and their sum is what the one coefficient
gathers. -/
theorem positions_refine_two_answers :
    PositionsRefine halfBins halfRuntime (halfController.table half_controller_shaped)
        [answerRollout 1, answerRollout 0] ∧
      (halfBins.scoreGroup [answerRollout 1, answerRollout 0]).map Prod.snd =
        (halfRuntime.scoreGroup [answerRollout 1, answerRollout 0]).map Prod.snd ∧
      (∀ anchor rho, (halfBins.scorePositionedRollout (halfController.table half_controller_shaped)
          (answerRollout 1, anchor)).map (fun result => [result.2.bins.sum]) =
        (halfRuntime.scoreRollout rho (answerRollout 1, anchor)).map Prod.snd) ∧
      ((halfBins.scorePositionedRollout (halfController.table half_controller_shaped)
          (answerRollout 1, 0)).map
        (fun result => result.2.bins.map TetherRegressionStats.weight)).toOption = some [1, 1, 1] := by
  have refine := positions_refine halfBins halfRuntime ⟨rfl, rfl, rfl, rfl, rfl⟩ halfController rfl
    rfl half_controller_shaped _ answers_attached
  exact ⟨refine, refine.assigns (by decide +kernel), refine.sums rfl _ List.mem_cons_self,
    by decide +kernel⟩

end PrimeRl.Orchestrator.Tether
