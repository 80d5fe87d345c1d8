import Mathlib.Data.List.GetD
import PrimeRl.Orchestrator.TetherFit
import PrimeRl.Orchestrator.TetherScoring
import PrimeRl.Value.Credit

/-!
# What a scored branch receives

Both loops over the positions of a branch write the mixed credit at its trained
positions and gather one row of statistics for each of them. With bins, the row
goes to the bin of the number of sampled tokens before the position, and the
coefficient is that of the bin.
-/

namespace PrimeRl.Orchestrator.Tether

open Regression
open PrimeRl.Orchestrator.ValueContext PrimeRl.Value.Credit PrimeRl.Value.Trajectory

universe u v
variable {Scalar : Type u} [Field Scalar] [LinearOrder Scalar] [IsStrictOrderedRing Scalar]

/-! ## Rows -/

/-- The statistics of the rows of a list. -/
def TetherRegressionStats.ofRows (rows : List (Scalar × Scalar)) : TetherRegressionStats Scalar :=
  ⟨(Moments.ofRows rows).count, (Moments.ofRows rows).features, (Moments.ofRows rows).products,
    (Moments.ofRows rows).targets, Moments.features_nonneg rows, Moments.targets_nonneg rows⟩

theorem of_rows_accumulated (rows : List (Scalar × Scalar)) :
    (TetherRegressionStats.ofRows rows).Accumulated rows := rfl

theorem stats_of_rows_append (first second : List (Scalar × Scalar)) :
    TetherRegressionStats.ofRows (first ++ second) =
      TetherRegressionStats.ofRows first + TetherRegressionStats.ofRows second := by
  apply TetherRegressionStats.moments_injective
  rw [TetherRegressionStats.moments_add]
  exact Moments.of_rows_append first second

/-- Without the clamp the residual of accumulated rows is the same. -/
theorem residual_sum_unclamped (rows : List (Scalar × Scalar)) (rho : Scalar) :
    residualSum (TetherRegressionStats.ofRows rows) rho =
      (rows.map (fun row => (row.2 - rho * row.1) ^ 2)).sum := by
  rw [← Moments.residual_of_rows, residual_sum_eq]
  exact max_eq_left (Moments.residual_nonneg rows rho)

namespace StatsAccumulator

def addRows (accumulator : StatsAccumulator Scalar) (rows : List (Scalar × Scalar)) :
    StatsAccumulator Scalar :=
  rows.foldl (fun accumulator row => accumulator.addRow row.1 row.2) accumulator

omit [LinearOrder Scalar] [IsStrictOrderedRing Scalar] in
theorem add_rows_append (accumulator : StatsAccumulator Scalar)
    (first second : List (Scalar × Scalar)) :
    accumulator.addRows (first ++ second) = (accumulator.addRows first).addRows second :=
  List.foldl_append

/-- Rows added to an empty accumulator freeze to their statistics. -/
theorem freeze_add_rows (rows : List (Scalar × Scalar)) :
    (empty.addRows rows).freeze = .ok (TetherRegressionStats.ofRows rows) := by
  obtain ⟨stats, frozen, accumulated⟩ := accumulator_freezes rows
  rw [addRows, frozen, TetherRegressionStats.moments_injective
    (accumulated.trans (of_rows_accumulated rows).symm)]

end StatsAccumulator

/-! ## Positions -/

/-- The trained positions that a scorer reaches. -/
def scoredPositions (limit : Nat) (mask : List Bool) : List Nat :=
  (List.range limit).filter (fun index => mask.getD index false)

/-- The regression row of a position. -/
def scoredRow (anchor : Scalar) (values valueAdvantages : List Scalar) (index : Nat) :
    Scalar × Scalar :=
  (values.getD index 0 - anchor, valueAdvantages.getD index 0 + (values.getD index 0 - anchor))

/-- The critic's return less the mixed baseline. -/
def mixedCredit (anchor rho : Scalar) (values valueAdvantages : List Scalar) (index : Nat) : Scalar :=
  (values.getD index 0 + valueAdvantages.getD index 0) -
    (anchor + rho * (values.getD index 0 - anchor))

/-- The credit of a branch, with the coefficient of each position. -/
def branchCredits (anchor : Scalar) (rhoAt : Nat → Scalar) (limit length : Nat) (mask : List Bool)
    (values valueAdvantages : List Scalar) : List Scalar :=
  (List.range length).map (fun index =>
    if index < limit ∧ mask.getD index false = true then
      mixedCredit anchor (rhoAt index) values valueAdvantages index
    else 0)

theorem scored_positions_succ (limit : Nat) (mask : List Bool) :
    scoredPositions (limit + 1) mask =
      if mask.getD limit false = true then scoredPositions limit mask ++ [limit]
      else scoredPositions limit mask := by
  rw [scoredPositions, List.range_succ, List.filter_append, scoredPositions]
  by_cases trained : mask.getD limit false = true
  · rw [if_pos trained, List.filter_cons, if_pos trained, List.filter_nil]
  · rw [if_neg trained, List.filter_cons, if_neg trained, List.filter_nil, List.append_nil]

theorem mem_scored_positions (limit : Nat) (mask : List Bool) (index : Nat) :
    index ∈ scoredPositions limit mask ↔ index < limit ∧ mask.getD index false = true := by
  rw [scoredPositions, List.mem_filter, List.mem_range]

section
omit [LinearOrder Scalar] [IsStrictOrderedRing Scalar]

/-- The credit is the error of the row. -/
theorem mixed_credit_row (anchor rho : Scalar) (values valueAdvantages : List Scalar) (index : Nat) :
    mixedCredit anchor rho values valueAdvantages index =
      (scoredRow anchor values valueAdvantages index).2 -
        rho * (scoredRow anchor values valueAdvantages index).1 := by
  rw [mixedCredit, scoredRow]
  ring

/-- What the loops write is the mixed credit. -/
theorem mixed_credit_written (anchor rho : Scalar) (values valueAdvantages : List Scalar)
    (index : Nat) :
    valueAdvantages.getD index 0 + (1 - rho) * (values.getD index 0 - anchor) =
      mixedCredit anchor rho values valueAdvantages index := by
  rw [mixedCredit]
  ring

theorem branch_credits_length (anchor : Scalar) (rhoAt : Nat → Scalar) (limit length : Nat)
    (mask : List Bool) (values valueAdvantages : List Scalar) :
    (branchCredits anchor rhoAt limit length mask values valueAdvantages).length = length := by
  rw [branchCredits, List.length_map, List.length_range]

theorem branch_credits_zero (anchor : Scalar) (rhoAt : Nat → Scalar) (length : Nat)
    (mask : List Bool) (values valueAdvantages : List Scalar) :
    branchCredits anchor rhoAt 0 length mask values valueAdvantages = List.replicate length 0 := by
  simp [branchCredits, List.map_const']

/-- One more position changes its own entry at most. -/
theorem branch_credits_succ (anchor : Scalar) (rhoAt : Nat → Scalar) (limit length : Nat)
    (mask : List Bool) (values valueAdvantages : List Scalar) :
    branchCredits anchor rhoAt (limit + 1) length mask values valueAdvantages =
      if mask.getD limit false = true then
        (branchCredits anchor rhoAt limit length mask values valueAdvantages).set limit
          (mixedCredit anchor (rhoAt limit) values valueAdvantages limit)
      else branchCredits anchor rhoAt limit length mask values valueAdvantages := by
  by_cases trained : mask.getD limit false = true
  · rw [if_pos trained]
    apply List.ext_getElem
    · rw [List.length_set, branch_credits_length, branch_credits_length]
    · intro index inLeft inRight
      rw [List.getElem_set]
      simp only [branchCredits, List.getElem_map, List.getElem_range]
      by_cases here : limit = index
      · subst here
        rw [if_pos rfl, if_pos ⟨Nat.lt_succ_self _, trained⟩]
      · have same : index < limit + 1 ↔ index < limit := by omega
        simp only [here, if_false, same]
  · rw [if_neg trained]
    apply List.map_congr_left
    intro index _
    have same : index < limit + 1 ∧ mask.getD index false = true ↔
        index < limit ∧ mask.getD index false = true := by
      constructor
      · rintro ⟨bounded, isTrained⟩
        have other : index ≠ limit := by
          rintro rfl
          exact trained isTrained
        exact ⟨by omega, isTrained⟩
      · rintro ⟨bounded, isTrained⟩
        exact ⟨by omega, isTrained⟩
    simp only [same]

/-- The loop with one coefficient. -/
theorem score_positions (adaptive : Bool) (anchor rho : Scalar) (mask : List Bool)
    (values valueAdvantages : List Scalar) (length limit : Nat) (inside : limit ≤ mask.length)
    (accumulator : StatsAccumulator Scalar) :
    (List.range limit).foldlM (scoreIndex adaptive anchor rho mask values valueAdvantages)
        ⟨List.replicate length 0, accumulator⟩ =
      .ok ⟨branchCredits anchor (fun _ => rho) limit length mask values valueAdvantages,
        if adaptive then accumulator.addRows
          ((scoredPositions limit mask).map (scoredRow anchor values valueAdvantages))
        else accumulator⟩ := by
  induction limit with
  | zero =>
    rw [branch_credits_zero]
    cases adaptive with
    | false => rfl
    | true => rfl
  | succ limit inductionHypothesis =>
    have below : limit < mask.length := inside
    have read : mask.getD limit false = mask[limit] := List.getD_eq_getElem _ _ below
    rw [List.range_succ, List.foldlM_append, inductionHypothesis (Nat.le_of_lt inside)]
    simp only [bind, Except.bind, List.foldlM_cons, List.foldlM_nil, scoreIndex,
      List.getElem?_eq_getElem below, branch_credits_succ, scored_positions_succ, read]
    cases mask[limit] with
    | false => rfl
    | true =>
      cases adaptive with
      | false => simp only [mixed_credit_written, if_true, pure, Except.pure]; rfl
      | true =>
        simp only [mixed_credit_written, if_true, pure, Except.pure, List.map_append,
          StatsAccumulator.add_rows_append]
        rfl

end

/-! ## Bins -/

/-- The bin of a position: that of the sampled tokens before it in its branch. -/
def binOf (coefficients : TetherCoefficientTable Scalar) (actionMask : List Bool) (index : Nat) : Nat :=
  coefficients.binIndex ((actionMask.take index).count true)

/-- The coefficient of a position. -/
def rhoOf (coefficients : TetherCoefficientTable Scalar) (actionMask : List Bool) (index : Nat) :
    Scalar :=
  coefficients.rho.getD (binOf coefficients actionMask index) 0

/-- The rows of the scored positions in a bin. -/
def binRows (coefficients : TetherCoefficientTable Scalar) (anchor : Scalar) (limit : Nat)
    (actionMask trainMask : List Bool) (values valueAdvantages : List Scalar) (bin : Nat) :
    List (Scalar × Scalar) :=
  ((scoredPositions limit trainMask).filter (fun index =>
    decide (binOf coefficients actionMask index = bin))).map (scoredRow anchor values valueAdvantages)

section
omit [LinearOrder Scalar] [IsStrictOrderedRing Scalar]

theorem count_take_succ (mask : List Bool) (index : Nat) (inside : index < mask.length) :
    (mask.take (index + 1)).count true =
      (mask.take index).count true + if mask.getD index false = true then 1 else 0 := by
  rw [List.take_add_one, List.count_append, List.getElem?_eq_getElem inside,
    List.getD_eq_getElem _ _ inside]
  cases mask[index] with
  | false => rfl
  | true => rfl

/-- The row of a scored position enters its own bin only. -/
theorem bin_rows_succ (coefficients : TetherCoefficientTable Scalar) (anchor : Scalar) (limit : Nat)
    (actionMask trainMask : List Bool) (values valueAdvantages : List Scalar) (bin : Nat) :
    binRows coefficients anchor (limit + 1) actionMask trainMask values valueAdvantages bin =
      if trainMask.getD limit false = true ∧ binOf coefficients actionMask limit = bin then
        binRows coefficients anchor limit actionMask trainMask values valueAdvantages bin ++
          [scoredRow anchor values valueAdvantages limit]
      else binRows coefficients anchor limit actionMask trainMask values valueAdvantages bin := by
  rw [binRows, scored_positions_succ]
  by_cases trained : trainMask.getD limit false = true
  · rw [if_pos trained, List.filter_append, List.map_append, binRows]
    by_cases here : binOf coefficients actionMask limit = bin
    · rw [if_pos ⟨trained, here⟩, List.filter_cons, if_pos (decide_eq_true here), List.filter_nil,
        List.map_singleton]
    · rw [if_neg (fun both => here both.2), List.filter_cons,
        if_neg (fun same => here (of_decide_eq_true same)), List.filter_nil, List.map_nil,
        List.append_nil]
  · rw [if_neg trained, if_neg (fun both => trained both.1), binRows]

/-- The loop with bins: trained positions are sampled, so the loop reaches all of
them, and the action position is the number of sampled tokens so far. -/
theorem score_positioned_positions (coefficients : TetherCoefficientTable Scalar) (anchor : Scalar)
    (actionMask trainMask : List Bool) (values valueAdvantages : List Scalar) (length limit : Nat)
    (inside : limit ≤ actionMask.length)
    (provenance : ∀ index, trainMask.getD index false = true → actionMask.getD index false = true) :
    (List.range limit).foldl
        (scorePositionedIndex coefficients anchor actionMask trainMask values valueAdvantages)
        ⟨List.replicate length 0, List.replicate coefficients.numBins .empty, 0⟩ =
      ⟨branchCredits anchor (rhoOf coefficients actionMask) limit length trainMask values
          valueAdvantages,
        (List.range coefficients.numBins).map (fun bin => StatsAccumulator.empty.addRows
          (binRows coefficients anchor limit actionMask trainMask values valueAdvantages bin)),
        (actionMask.take limit).count true⟩ := by
  induction limit with
  | zero =>
    rw [branch_credits_zero]
    simp [binRows, scoredPositions, StatsAccumulator.addRows, List.map_const']
  | succ limit inductionHypothesis =>
    have counted := count_take_succ actionMask limit inside
    rw [List.range_succ, List.foldl_append, inductionHypothesis (Nat.le_of_lt inside),
      List.foldl_cons, List.foldl_nil, scorePositionedIndex]
    by_cases sampled : actionMask.getD limit false = true
    · rw [if_pos sampled] at counted
      rw [sampled, Bool.not_true, if_neg Bool.false_ne_true]
      by_cases trained : trainMask.getD limit false = true
      · rw [trained, Bool.not_true, if_neg Bool.false_ne_true, counted, branch_credits_succ,
          if_pos trained]
        dsimp only
        rw [mixed_credit_written]
        congr 1
        apply List.ext_getElem (by simp)
        intro bin inLeft inRight
        have same : coefficients.binIndex ((actionMask.take limit).count true) =
            binOf coefficients actionMask limit := rfl
        rw [List.getElem_modify]
        simp only [same, List.getElem_map, List.getElem_range, bin_rows_succ, trained, true_and]
        by_cases here : binOf coefficients actionMask limit = bin
        · rw [if_pos here, if_pos here, StatsAccumulator.add_rows_append]
          rfl
        · rw [if_neg here, if_neg here]
      · have skipped := Bool.eq_false_iff.mpr trained
        rw [skipped, Bool.not_false, if_pos rfl, counted, branch_credits_succ, if_neg trained]
        simp only [bin_rows_succ, skipped, Bool.false_eq_true, false_and, if_false]
    · have untrained : ¬trainMask.getD limit false = true :=
        fun trained => sampled (provenance limit trained)
      have skipped := Bool.eq_false_iff.mpr untrained
      rw [if_neg sampled] at counted
      rw [Bool.eq_false_iff.mpr sampled, Bool.not_false, if_pos rfl, counted, branch_credits_succ,
        if_neg untrained]
      simp only [bin_rows_succ, skipped, Bool.false_eq_true, false_and, if_false, Nat.add_zero]

end

/-! ## Rollouts -/

/-- A rollout with the critic's copy and one stream of predictions and of policy
advantages as wide as each sample. -/
structure Attached (rollout : Rollout Scalar) (trajectory : ValueTrajectory Scalar)
    (predictions rawAdvantages : List (List Scalar)) : Prop where
  valueTrajectory : rollout.valueTrajectory = some trajectory
  valuePredictions : rollout.valuePredictions = some predictions
  valueAdvantages : rollout.valueAdvantages = some rawAdvantages
  predictionWidths : predictions.map List.length =
    trajectory.samples.map (fun sample => sample.tokenIds.length)
  advantageWidths : rawAdvantages.map List.length =
    trajectory.samples.map (fun sample => sample.tokenIds.length)

/-- A sample with its predictions and advantages. -/
abbrev Streams (Scalar : Type u) := (ValueTrajectorySample × List Scalar) × List Scalar

/-- The samples of a trajectory with their streams. -/
def streamsOf (trajectory : ValueTrajectory Scalar) (predictions rawAdvantages : List (List Scalar)) :
    List (Streams Scalar) :=
  (trajectory.samples.zip predictions).zip rawAdvantages

/-- How far a scorer goes in a sample. -/
def reach (runtime : TetherRuntime Scalar) (inserted : Option TokenPrefix)
    (sample : ValueTrajectorySample) : Nat :=
  min (visibleLength inserted runtime.valueSeqLen sample) runtime.policySeqLen

/-- A sample trains a token that temporal credit cannot reach. -/
def hides (runtime : TetherRuntime Scalar) (inserted : Option TokenPrefix)
    (sample : ValueTrajectorySample) : Bool :=
  runtime.hidesTrained sample.mask (visibleLength inserted runtime.valueSeqLen sample)

/-- The advantages of a rollout, with a coefficient for each position of a sample. -/
def rolloutCredits (runtime : TetherRuntime Scalar) (inserted : Option TokenPrefix) (anchor : Scalar)
    (rhoAt : ValueTrajectorySample → Nat → Scalar) (streams : List (Streams Scalar)) : List Scalar :=
  streams.flatMap (fun item => branchCredits anchor (rhoAt item.1.1) (reach runtime inserted item.1.1)
    item.1.1.tokenIds.length item.1.1.mask item.1.2 item.2)

/-- The rows of a rollout. -/
def rolloutRows (runtime : TetherRuntime Scalar) (inserted : Option TokenPrefix) (anchor : Scalar)
    (streams : List (Streams Scalar)) : List (Scalar × Scalar) :=
  streams.flatMap (fun item => (scoredPositions (reach runtime inserted item.1.1) item.1.1.mask).map
    (scoredRow anchor item.1.2 item.2))

/-- The rows of a rollout in a bin. -/
def rolloutBinRows (runtime : TetherRuntime Scalar) (inserted : Option TokenPrefix)
    (coefficients : TetherCoefficientTable Scalar) (anchor : Scalar)
    (streams : List (Streams Scalar)) (bin : Nat) : List (Scalar × Scalar) :=
  streams.flatMap (fun item => binRows coefficients anchor (reach runtime inserted item.1.1)
    item.1.1.sampledMask item.1.1.mask item.1.2 item.2 bin)

/-- What the refusal of a hidden token says. -/
def hiddenMessage : String :=
  "TETHER temporal credit requires every trainable token to be visible to the critic"

omit [Field Scalar] [LinearOrder Scalar] [IsStrictOrderedRing Scalar] in
theorem zip_widths {Item : Type v} (width : Item → Nat) (items : List Item)
    (rows : List (List Scalar)) (widths : rows.map List.length = items.map width) :
    ∀ pair ∈ items.zip rows, pair.2.length = width pair.1 := by
  induction items generalizing rows with
  | nil => exact fun pair member => nomatch member
  | cons item items inductionHypothesis =>
    cases rows with
    | nil => exact fun pair member => nomatch member
    | cons row rows =>
      obtain ⟨here, later⟩ := List.cons.inj widths
      rw [List.zip_cons_cons, List.forall_mem_cons]
      exact ⟨here, inductionHypothesis rows later⟩

omit [Field Scalar] [LinearOrder Scalar] [IsStrictOrderedRing Scalar] in
/-- The streams of an attached rollout are as wide as their samples. -/
theorem Attached.widths {rollout : Rollout Scalar} {trajectory : ValueTrajectory Scalar}
    {predictions rawAdvantages : List (List Scalar)}
    (attached : Attached rollout trajectory predictions rawAdvantages) :
    ∀ item ∈ streamsOf trajectory predictions rawAdvantages,
      item.1.2.length = item.1.1.tokenIds.length ∧ item.2.length = item.1.1.tokenIds.length := by
  have sameLength : predictions.length = trajectory.samples.length := by
    have lengths := congrArg List.length attached.predictionWidths
    rwa [List.length_map, List.length_map] at lengths
  have firsts : (trajectory.samples.zip predictions).map Prod.fst = trajectory.samples :=
    List.map_fst_zip sameLength.ge
  intro item member
  refine ⟨zip_widths _ _ _ attached.predictionWidths item.1 (List.of_mem_zip member).1, ?_⟩
  apply zip_widths (fun pair : ValueTrajectorySample × List Scalar => pair.1.tokenIds.length) _ _ ?_
    item member
  rw [attached.advantageWidths]
  nth_rewrite 1 [← firsts]
  rw [List.map_map]
  rfl

omit [IsStrictOrderedRing Scalar] in
/-- What the runtime calls visible is what the critic sees. -/
theorem critic_visible_length {rollout : Rollout Scalar} {trajectory : ValueTrajectory Scalar}
    (copied : rollout.valueTrajectory = some trajectory) (runtime : TetherRuntime Scalar)
    (sample : ValueTrajectorySample) :
    runtime.criticVisibleLength rollout sample.tokenIds.length =
      visibleLength trajectory.inserted runtime.valueSeqLen sample := by
  rw [TetherRuntime.criticVisibleLength, copied, visibleLength]
  dsimp only
  by_cases conditioned : trajectory.inserted.isSome = true
  · rw [if_pos conditioned, if_pos conditioned, Nat.min_self]
  · rw [if_neg conditioned, if_neg conditioned]

omit [IsStrictOrderedRing Scalar] in
theorem reach_le (runtime : TetherRuntime Scalar) (inserted : Option TokenPrefix)
    (sample : ValueTrajectorySample) : reach runtime inserted sample ≤ sample.tokenIds.length := by
  have seen : visibleLength inserted runtime.valueSeqLen sample ≤ sample.tokenIds.length := by
    rw [visibleLength]
    split_ifs
    · exact Nat.le_refl _
    · exact Nat.min_le_left _ _
  exact (Nat.min_le_left _ _).trans seen

omit [IsStrictOrderedRing Scalar] in
/-- The branches of a rollout with one coefficient. -/
theorem score_branches {rollout : Rollout Scalar} {trajectory : ValueTrajectory Scalar}
    (copied : rollout.valueTrajectory = some trajectory) (runtime : TetherRuntime Scalar)
    (anchor rho : Scalar) (streams : List (Streams Scalar))
    (widths : ∀ item ∈ streams,
      item.1.2.length = item.1.1.tokenIds.length ∧ item.2.length = item.1.1.tokenIds.length)
    (score : BranchScore Scalar) :
    (streams.map (fun item => (((⟨item.1.1.tokenIds, item.1.1.mask⟩ : ScoredSample), item.1.2),
        item.2))).foldlM (runtime.scoreBranch rollout anchor rho) score =
      if streams.any (fun item => hides runtime trajectory.inserted item.1.1) then
        .error hiddenMessage
      else .ok
        ⟨score.advantages ++
            rolloutCredits runtime trajectory.inserted anchor (fun _ _ => rho) streams,
          if runtime.adaptive.isSome then
            score.accumulator.addRows (rolloutRows runtime trajectory.inserted anchor streams)
          else score.accumulator⟩ := by
  induction streams generalizing score with
  | nil =>
    simp only [List.map_nil, List.foldlM_nil, List.any_nil, Bool.false_eq_true, if_false,
      rolloutCredits, rolloutRows, List.flatMap_nil, List.append_nil, StatsAccumulator.addRows,
      List.foldl_nil, ite_self]
    rfl
  | cons item streams inductionHypothesis =>
    obtain ⟨⟨valueWidth, advantageWidth⟩, later⟩ := List.forall_mem_cons.mp widths
    have fits : ¬(item.1.2.length ≠ item.1.1.tokenIds.length ∨
        item.2.length ≠ item.1.1.tokenIds.length) :=
      fun wrong => wrong.elim (fun differs => differs valueWidth) (fun differs => differs advantageWidth)
    have inMask : reach runtime trajectory.inserted item.1.1 ≤ item.1.1.mask.length :=
      item.1.1.aligned.1 ▸ reach_le runtime trajectory.inserted item.1.1
    rw [List.map_cons, List.foldlM_cons, TetherRuntime.scoreBranch]
    dsimp only
    rw [if_neg fits, critic_visible_length copied, List.any_cons]
    cases hidden : hides runtime trajectory.inserted item.1.1 with
    | true =>
      rw [hides] at hidden
      rw [if_pos hidden, Bool.true_or, if_pos rfl]
      rfl
    | false =>
      rw [hides] at hidden
      have scored := score_positions runtime.adaptive.isSome anchor rho item.1.1.mask item.1.2 item.2
        item.1.1.tokenIds.length _ inMask score.accumulator
      rw [reach] at scored
      rw [if_neg (Bool.eq_false_iff.mp hidden), scored, Bool.false_or]
      refine (inductionHypothesis later _).trans ?_
      by_cases others : streams.any (fun item => hides runtime trajectory.inserted item.1.1) = true
      · rw [if_pos others, if_pos others]
      · rw [if_neg others, if_neg others, rolloutCredits, rolloutCredits, List.flatMap_cons,
          List.append_assoc, rolloutRows, rolloutRows, List.flatMap_cons]
        cases runtime.adaptive.isSome with
        | false => rfl
        | true =>
          simp only [if_true, StatsAccumulator.add_rows_append]
          rfl

/-- Masks of one sample are zipped without an error, and its copy has seen that
only sampled tokens train. -/
theorem trains_unsampled_sample (sample : ValueTrajectorySample) :
    trainsUnsampled sample.mask sample.sampledMask = .ok false := by
  have scanned (trainMask actionMask : List Bool) (same : trainMask.length = actionMask.length)
      (provenance : (trainMask.zip actionMask).any (fun entry => entry.1 && !entry.2) = false) :
      trainsUnsampled trainMask actionMask = .ok false := by
    induction trainMask generalizing actionMask with
    | nil =>
      rw [List.length_nil, eq_comm, List.length_eq_zero_iff] at same
      rw [same]
      rfl
    | cons trainable trainMask inductionHypothesis =>
      obtain ⟨sampled, actionMask, rfl⟩ := List.exists_cons_of_length_eq_add_one same.symm
      rw [List.zip_cons_cons, List.any_cons, Bool.or_eq_false_iff] at provenance
      have here : ¬(trainable && !sampled) = true := Bool.eq_false_iff.mp provenance.1
      rw [trainsUnsampled, if_neg here]
      exact inductionHypothesis actionMask (Nat.succ.inj same) provenance.2
  exact scanned _ _ sample.aligned.2 sample.provenance

/-- A trained token of a copied sample was sampled. -/
theorem trained_sampled (sample : ValueTrajectorySample) (index : Nat)
    (trained : sample.mask.getD index false = true) : sample.sampledMask.getD index false = true := by
  have inside : index < sample.mask.length := by
    by_contra outside
    rw [List.getD_eq_default _ _ (Nat.not_lt.mp outside)] at trained
    cases trained
  have alsoInside : index < sample.sampledMask.length := sample.aligned.2 ▸ inside
  rw [List.getD_eq_getElem _ _ inside] at trained
  rw [List.getD_eq_getElem _ _ alsoInside]
  have inZip : index < (sample.mask.zip sample.sampledMask).length := by
    rw [List.length_zip]
    exact lt_min inside alsoInside
  have paired := List.getElem_mem inZip
  rw [List.getElem_zip] at paired
  have checked := List.any_eq_false.mp sample.provenance _ paired
  rw [trained, Bool.true_and] at checked
  cases sampled : sample.sampledMask[index] with
  | true => rfl
  | false => exact absurd (congrArg not sampled) checked

/-- The branches of a rollout with bins. -/
theorem score_positioned_branches {rollout : Rollout Scalar} {trajectory : ValueTrajectory Scalar}
    (copied : rollout.valueTrajectory = some trajectory) (runtime : TetherRuntime Scalar)
    (anchor : Scalar) (coefficients : TetherCoefficientTable Scalar) (streams : List (Streams Scalar))
    (widths : ∀ item ∈ streams,
      item.1.2.length = item.1.1.tokenIds.length ∧ item.2.length = item.1.1.tokenIds.length)
    (advantages : List Scalar) (rows : Nat → List (Scalar × Scalar)) :
    (streams.map (fun item => ((((item.1.1.tokenIds, item.1.1.sampledMask, item.1.1.mask),
        (⟨item.1.1.tokenIds, item.1.1.mask⟩ : ScoredSample)), item.1.2), item.2))).foldlM
        (runtime.scorePositionedBranch rollout anchor coefficients)
        ⟨advantages, (List.range coefficients.numBins).map (fun bin =>
          TetherRegressionStats.ofRows (rows bin))⟩ =
      if streams.any (fun item => hides runtime trajectory.inserted item.1.1) then
        .error hiddenMessage
      else .ok
        ⟨advantages ++ rolloutCredits runtime trajectory.inserted anchor
            (fun sample => rhoOf coefficients sample.sampledMask) streams,
          (List.range coefficients.numBins).map (fun bin => TetherRegressionStats.ofRows
            (rows bin ++
              rolloutBinRows runtime trajectory.inserted coefficients anchor streams bin))⟩ := by
  induction streams generalizing advantages rows with
  | nil =>
    simp only [List.map_nil, List.foldlM_nil, List.any_nil, Bool.false_eq_true, if_false,
      rolloutCredits, rolloutBinRows, List.flatMap_nil, List.append_nil]
    rfl
  | cons item streams inductionHypothesis =>
    obtain ⟨⟨valueWidth, advantageWidth⟩, later⟩ := List.forall_mem_cons.mp widths
    have fits : ¬(item.1.2.length ≠ item.1.1.tokenIds.length ∨
        item.2.length ≠ item.1.1.tokenIds.length) :=
      fun wrong => wrong.elim (fun differs => differs valueWidth) (fun differs => differs advantageWidth)
    have sampledWidth : item.1.1.sampledMask.length = item.1.1.tokenIds.length :=
      (item.1.1.aligned.1.trans item.1.1.aligned.2).symm
    have inMask : reach runtime trajectory.inserted item.1.1 ≤ item.1.1.sampledMask.length :=
      sampledWidth.symm ▸ reach_le runtime trajectory.inserted item.1.1
    rw [List.map_cons, List.foldlM_cons, TetherRuntime.scorePositionedBranch]
    dsimp only
    rw [if_neg (not_or.mpr ⟨not_not_intro rfl, not_not_intro rfl⟩), if_neg fits,
      if_neg (not_not_intro sampledWidth), trains_unsampled_sample]
    dsimp only
    rw [critic_visible_length copied, List.any_cons]
    cases hidden : hides runtime trajectory.inserted item.1.1 with
    | true =>
      rw [hides] at hidden
      rw [if_pos hidden, Bool.true_or, if_pos rfl]
      rfl
    | false =>
      rw [hides] at hidden
      have scored := score_positioned_positions coefficients anchor item.1.1.sampledMask
        item.1.1.mask item.1.2 item.2 item.1.1.tokenIds.length _ inMask (trained_sampled item.1.1)
      rw [reach] at scored
      have frozen : Fallible.collect StatsAccumulator.freeze
          ((List.range coefficients.numBins).map (fun bin => StatsAccumulator.empty.addRows
            (binRows coefficients anchor (reach runtime trajectory.inserted item.1.1)
              item.1.1.sampledMask item.1.1.mask item.1.2 item.2 bin))) =
          .ok ((List.range coefficients.numBins).map (fun bin => TetherRegressionStats.ofRows
            (binRows coefficients anchor (reach runtime trajectory.inserted item.1.1)
              item.1.1.sampledMask item.1.1.mask item.1.2 item.2 bin))) := by
        rw [Fallible.collect_ok_iff, List.forall₂_map_left_iff, List.forall₂_map_right_iff,
          List.forall₂_same]
        exact fun bin _ => StatsAccumulator.freeze_add_rows _
      rw [reach] at frozen
      rw [if_neg (Bool.eq_false_iff.mp hidden), scored, frozen, Bool.false_or]
      have added : List.zipWith (· + ·)
          ((List.range coefficients.numBins).map (fun bin =>
            TetherRegressionStats.ofRows (rows bin)))
          ((List.range coefficients.numBins).map (fun bin => TetherRegressionStats.ofRows
            (binRows coefficients anchor (reach runtime trajectory.inserted item.1.1)
              item.1.1.sampledMask item.1.1.mask item.1.2 item.2 bin))) =
          (List.range coefficients.numBins).map (fun bin => TetherRegressionStats.ofRows (rows bin ++
            binRows coefficients anchor (reach runtime trajectory.inserted item.1.1)
              item.1.1.sampledMask item.1.1.mask item.1.2 item.2 bin)) := by
        rw [List.zipWith_map, List.zipWith_self]
        simp only [stats_of_rows_append]
      rw [reach] at added
      dsimp only [bind, Except.bind]
      rw [added]
      refine (inductionHypothesis later _ _).trans ?_
      by_cases others : streams.any (fun item => hides runtime trajectory.inserted item.1.1) = true
      · rw [if_pos others, if_pos others]
      · rw [if_neg others, if_neg others]
        simp only [rolloutCredits, rolloutBinRows, List.flatMap_cons, List.append_assoc, reach]

end PrimeRl.Orchestrator.Tether
