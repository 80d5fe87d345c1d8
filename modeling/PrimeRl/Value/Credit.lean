import Mathlib.Order.Defs.LinearOrder
import PrimeRl.Value.Gae
import PrimeRl.Value.Trajectory

/-!
# Critic credit

Predictions on the conditioned or truncated inputs are projected onto the
original positions. Credit is computed either on every branch by itself or on
all trainable tokens of a forked rollout in generation order.
-/

namespace PrimeRl.Value.Credit

open PrimeRl.Orchestrator.Trajectories PrimeRl.Orchestrator.ValueContext
open PrimeRl.Value.Gae PrimeRl.Value.Trajectory

universe u
variable {Scalar : Type u}

/-- The part of the value configuration that decides credit, with its validated
ranges. -/
structure ValueFunctionConfig (Scalar : Type u) [Zero Scalar] [One Scalar] [LE Scalar] where
  seqLen : Nat
  gamma : Scalar
  gaeLambda : Scalar
  valueTargetLambda : Scalar
  gammaRange : 0 ≤ gamma ∧ gamma ≤ 1
  gaeLambdaRange : 0 ≤ gaeLambda ∧ gaeLambda ≤ 1
  valueTargetLambdaRange : 0 ≤ valueTargetLambda ∧ valueTargetLambda ≤ 1

/-- What the critic sees of a sequence. -/
def valueInput (tokenIds : List Nat) (inserted : Option TokenPrefix) (seqLen : Nat) :
    Except String (List Nat) :=
  match inserted with
  | some context => context.apply tokenIds
  | none => .ok (tokenIds.take seqLen)

/-- Predictions at the original positions. -/
def projectValues (inserted : Option TokenPrefix) (values : List Scalar) :
    Except String (List Scalar) :=
  match inserted with
  | some context => context.project values
  | none => .ok values

/-- Check and project the predictions of the samples in turn. -/
def projectPredictions (inserted : Option TokenPrefix) (seqLen : Nat) :
    List ValueTrajectorySample → List (List Scalar) → Except String (List (List Scalar))
  | sample :: samples, values :: predictions =>
      match valueInput sample.tokenIds inserted seqLen with
      | .error message => .error message
      | .ok inputTokens =>
          if values.length ≠ inputTokens.length then
            if inserted.isNone then
              .error s!"value evaluator returned {values.length} tokens for truncated value input of {inputTokens.length}"
            else
              .error s!"value evaluator returned {values.length} tokens for conditioned value input of {inputTokens.length}"
          else do
            let projected ← projectValues inserted values
            let rest ← projectPredictions inserted seqLen samples predictions
            .ok (projected :: rest)
  | _, _ => .ok []

/-- Slice assignment to a row. -/
def assignSlice (row : List Scalar) (start stop : Nat) (entries : List Scalar) : List Scalar :=
  row.take start ++ entries ++ row.drop (max start stop)

/-- Write a flat stream back to the spans it was read from. -/
def scatter (flat : List Scalar) : Nat → List TrainableSpan → List (List Scalar) →
    List (List Scalar)
  | _, [], rows => rows
  | offset, span :: rest, rows =>
      scatter flat (offset + span.length) rest
        (rows.modify span.sampleIndex (fun row =>
          assignSlice row span.sampleStart (span.sampleStart + span.length)
            ((flat.drop offset).take span.length)))

/-- Read the spans of the projected predictions. -/
def gather (projected : List (List Scalar)) (spans : List TrainableSpan) : List Scalar :=
  spans.flatMap (fun span =>
    ((projected.getD span.sampleIndex []).drop span.sampleStart).take span.length)

section
variable [CommRing Scalar] [LinearOrder Scalar]

/-- The layout for stitched credit, or none where credit is per branch. -/
def sequentialValueLayout [ToString Scalar] (trajectory : ValueTrajectory Scalar)
    (config : ValueFunctionConfig Scalar) (usesPolicyGae : Bool) (branchSemantics : Option String) :
    Except String (Option TrainingLayout) :=
  let needsStitching := decide (config.gamma < 1) || decide (config.valueTargetLambda < 1) ||
    (usesPolicyGae && decide (config.gaeLambda < 1))
  if decide (trajectory.samples.length ≤ 1) || !needsStitching then .ok none
  else if branchSemantics ≠ some "sequential" then
    .error (s!"temporal value credit over multiple branches requires algo.branch_semantics='sequential'; env='{trajectory.envName}', group={trajectory.groupId}, branches={trajectory.samples.length}, " ++
      s!"gamma={config.gamma}, gae_lambda={config.gaeLambda}, value_target_lambda={config.valueTargetLambda}")
  else
    match trajectory.trainingLayout with
    | none => .error "AssertionError"
    | some layout =>
        if trajectory.inserted.isSome then .ok (some layout)
        else
          let visibleLengths :=
            trajectory.samples.map (fun sample => min sample.tokenIds.length config.seqLen)
          match layout.trainableSpans.find? (fun span =>
            decide (visibleLengths.getD span.sampleIndex 0 < span.sampleStart + span.length)) with
          | none => .ok (some layout)
          | some span =>
              .error s!"sequential temporal credit requires every trainable token to be visible to the critic; sample {span.sampleIndex} span [{span.sampleStart}, {span.sampleStart + span.length}) exceeds visible length {visibleLengths.getD span.sampleIndex 0}"

/-- Without an error the code either computes per branch, for a single branch or
where no discount or decay asks for more, or stitches with the captured layout,
whose spans it has seen to be visible unless a prefix conditions them. -/
theorem sequential_layout_cases [ToString Scalar] (trajectory : ValueTrajectory Scalar)
    (config : ValueFunctionConfig Scalar) (usesPolicyGae : Bool) (branchSemantics : Option String)
    (layout : Option TrainingLayout)
    (chosen : sequentialValueLayout trajectory config usesPolicyGae branchSemantics = .ok layout) :
    (layout = none ∧ (trajectory.samples.length ≤ 1 ∨
      (config.gamma = 1 ∧ config.valueTargetLambda = 1 ∧
        (usesPolicyGae = true → config.gaeLambda = 1)))) ∨
      ∃ stitched, layout = some stitched ∧ trajectory.trainingLayout = some stitched ∧
        (trajectory.inserted.isSome = true ∨ ∀ span ∈ stitched.trainableSpans,
          span.sampleStart + span.length ≤ (trajectory.samples.map (fun sample =>
            min sample.tokenIds.length config.seqLen)).getD span.sampleIndex 0) := by
  have atLimit (value : Scalar) (bounded : value ≤ 1) (notBelow : decide (value < 1) = false) :
      value = 1 :=
    le_antisymm bounded (not_lt.mp (of_decide_eq_false notBelow))
  rw [sequentialValueLayout] at chosen
  by_cases single : trajectory.samples.length ≤ 1
  · simp only [single, decide_true, Bool.true_or, if_true] at chosen
    cases chosen
    exact Or.inl ⟨rfl, Or.inl single⟩
  · simp only [single, decide_false, Bool.false_or] at chosen
    cases stitching : (decide (config.gamma < 1) || decide (config.valueTargetLambda < 1) ||
        (usesPolicyGae && decide (config.gaeLambda < 1))) with
    | false =>
      simp only [stitching, Bool.not_false, if_true] at chosen
      cases chosen
      simp only [Bool.or_eq_false_iff] at stitching
      refine Or.inl ⟨rfl, Or.inr ⟨atLimit _ config.gammaRange.2 stitching.1.1,
        atLimit _ config.valueTargetLambdaRange.2 stitching.1.2, ?_⟩⟩
      intro uses
      rw [uses, Bool.true_and] at stitching
      exact atLimit _ config.gaeLambdaRange.2 stitching.2
    | true =>
      simp only [stitching, Bool.not_true, Bool.false_eq_true, if_false] at chosen
      by_cases sequential : branchSemantics = some "sequential"
      · simp only [sequential, ne_eq, not_true_eq_false, if_false] at chosen
        cases captured : trajectory.trainingLayout with
        | none =>
          rw [captured] at chosen
          exact absurd chosen nofun
        | some stitched =>
          rw [captured] at chosen
          by_cases conditioned : trajectory.inserted.isSome = true
          · simp only [conditioned, if_true] at chosen
            cases chosen
            exact Or.inr ⟨stitched, rfl, rfl, Or.inl conditioned⟩
          · simp only [conditioned, Bool.false_eq_true, if_false] at chosen
            split at chosen
            · next bounded =>
              cases chosen
              refine Or.inr ⟨stitched, rfl, rfl, Or.inr ?_⟩
              intro span member
              have seen := List.find?_eq_none.mp bounded span member
              rw [decide_eq_true_eq] at seen
              exact Nat.not_lt.mp seen
            · exact absurd chosen nofun
      · simp only [sequential, ne_eq, not_false_eq_true, if_true] at chosen
        exact absurd chosen nofun

/-- Credit of every branch by itself, padded to its tokens. -/
def branchCredit (reward : Scalar) (config : ValueFunctionConfig Scalar) :
    List ValueTrajectorySample → List (List Scalar) →
    Except String (List (List Scalar) × List (List Scalar))
  | sample :: samples, projected :: rest => do
      let (sampleAdvantages, sampleReturns) ← computeGae reward config.gamma config.gaeLambda
        config.valueTargetLambda projected (sample.mask.take projected.length)
      let (advantages, returns) ← branchCredit reward config samples rest
      let padding := List.replicate (sample.tokenIds.length - projected.length) 0
      .ok ((sampleAdvantages ++ padding) :: advantages, (sampleReturns ++ padding) :: returns)
  | _, _ => .ok ([], [])

/-- Credit of all trainable tokens in the order of the layout. -/
def stitchedCredit (trajectory : ValueTrajectory Scalar) (config : ValueFunctionConfig Scalar)
    (projected : List (List Scalar)) (layout : TrainingLayout) :
    Except String (List (List Scalar) × List (List Scalar)) :=
  if layout.trainableSpans.any (fun span => decide (projected.length ≤ span.sampleIndex)) then
    .error "list index out of range"
  else do
    let flatValues := gather projected layout.trainableSpans
    let (flatAdvantages, flatReturns) ← computeGae trajectory.reward config.gamma config.gaeLambda
      config.valueTargetLambda flatValues (List.replicate flatValues.length true)
    let zeros := trajectory.samples.map (fun sample => List.replicate sample.tokenIds.length 0)
    .ok (scatter flatAdvantages 0 layout.trainableSpans zeros,
      scatter flatReturns 0 layout.trainableSpans zeros)

/-- Value predictions, advantages and returns at the original positions. -/
def computeValueResult (trajectory : ValueTrajectory Scalar) (predictions : List (List Scalar))
    (config : ValueFunctionConfig Scalar) (layout : Option TrainingLayout) :
    Except String (List (List Scalar) × List (List Scalar) × List (List Scalar)) :=
  if predictions.length ≠ trajectory.samples.length then
    .error s!"value evaluator returned {predictions.length} branches for rollout with {trajectory.samples.length} samples"
  else do
    let projected ← projectPredictions trajectory.inserted config.seqLen trajectory.samples predictions
    let (advantages, returns) ←
      match layout with
      | none => branchCredit trajectory.reward config trajectory.samples projected
      | some stitched => stitchedCredit trajectory config projected stitched
    let valuePredictions := List.zipWith (fun sample values =>
      values ++ List.replicate (sample.tokenIds.length - values.length) 0) trajectory.samples projected
    .ok (valuePredictions, advantages, returns)

end

/-! ## Projected streams -/

/-- Length of the part of a sample the critic sees. -/
def visibleLength (inserted : Option TokenPrefix) (seqLen : Nat) (sample : ValueTrajectorySample) :
    Nat :=
  if inserted.isSome then sample.tokenIds.length else min sample.tokenIds.length seqLen

theorem value_input_length (inserted : Option TokenPrefix) (seqLen : Nat)
    (sample : ValueTrajectorySample) (inputTokens : List Nat)
    (accepted : valueInput sample.tokenIds inserted seqLen = .ok inputTokens) :
    inputTokens.length = visibleLength inserted seqLen sample +
      inserted.elim 0 (fun context => context.tokenIds.length) := by
  cases inserted with
  | none =>
    cases accepted
    rw [List.length_take, visibleLength]
    exact Nat.min_comm _ _
  | some context => exact TokenPrefix.apply_length context _ _ accepted

/-- Accepted predictions give one stream of visible length for every sample. -/
theorem project_predictions_lengths (inserted : Option TokenPrefix) (seqLen : Nat)
    (samples : List ValueTrajectorySample) (predictions projected : List (List Scalar))
    (same : predictions.length = samples.length)
    (accepted : projectPredictions inserted seqLen samples predictions = .ok projected) :
    projected.map List.length = samples.map (visibleLength inserted seqLen) := by
  induction samples generalizing predictions projected with
  | nil =>
    rw [List.length_nil, List.length_eq_zero_iff] at same
    subst same
    cases accepted
    rfl
  | cons sample samples inductionHypothesis =>
    obtain ⟨values, predictions, rfl⟩ := List.exists_cons_of_length_eq_add_one same
    rw [projectPredictions] at accepted
    cases input : valueInput sample.tokenIds inserted seqLen with
    | error message =>
      rw [input] at accepted
      exact absurd accepted nofun
    | ok inputTokens =>
      rw [input] at accepted
      by_cases width : values.length = inputTokens.length
      · simp only [width, ne_eq, not_true_eq_false, if_false] at accepted
        cases here : projectValues inserted values with
        | error message =>
          rw [here] at accepted
          exact absurd accepted nofun
        | ok first =>
          rw [here] at accepted
          cases later : projectPredictions inserted seqLen samples predictions with
          | error message =>
            rw [later] at accepted
            exact absurd accepted nofun
          | ok rest =>
            rw [later] at accepted
            cases accepted
            have inputLength := value_input_length inserted seqLen sample inputTokens input
            have firstLength : first.length + inserted.elim 0 (fun context => context.tokenIds.length) =
                values.length := by
              cases inserted with
              | none =>
                cases here
                rfl
              | some context => exact TokenPrefix.project_length context _ _ here
            rw [List.map_cons, List.map_cons,
              inductionHypothesis predictions rest (Nat.succ.inj same) later]
            congr 1
            omega
      · simp only [width, ne_eq, not_false_eq_true, if_true] at accepted
        split_ifs at accepted

end PrimeRl.Value.Credit
