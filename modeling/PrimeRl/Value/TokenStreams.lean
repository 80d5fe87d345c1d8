import PrimeRl.Support.Fallible
import PrimeRl.Value.CriticStates
import PrimeRl.Value.GaeClosedForm

/-!
# The streams of a trained token

On either path the streams of a value result hold, for every trained token, the
exponentially weighted advantage and target of its values in generation order.
At decay one they are the discounted reward with and without the token's value.
-/

namespace PrimeRl.Value.TokenStreams

open PrimeRl.Orchestrator.Trajectories PrimeRl.Orchestrator.TrainingLayout
open PrimeRl.Value.Credit PrimeRl.Value.CriticStates PrimeRl.Value.Gae PrimeRl.Value.Scatter
open PrimeRl.Value.StitchedCredit PrimeRl.Value.Trajectory

universe u
variable {Scalar : Type u} [CommRing Scalar]

/-- At decay one a token has the discounted reward less its value. -/
theorem monte_carlo_token (reward gamma : Scalar) (order : List (Nat × Nat)) (place : Nat)
    (token : Nat × Nat) (listed : order[place]? = some token) (value : Nat × Nat → Scalar) :
    lambdaAdvantage reward gamma 1 ((order.drop place).map value) =
      gamma ^ (order.length - 1 - place) * reward - value token := by
  obtain ⟨inside, isToken⟩ := List.getElem?_eq_some_iff.mp listed
  have remaining : ((order.drop (place + 1)).map value).length = order.length - 1 - place := by
    rw [List.length_map, List.length_drop]
    omega
  rw [List.drop_eq_getElem_cons inside, isToken, List.map_cons, lambda_advantage_monte_carlo,
    remaining]

variable [LinearOrder Scalar]

/-- The entries of a trained token: its advantage and its target are the recursions
over the values of the tokens from it on. -/
structure TokenEntries (trajectory : ValueTrajectory Scalar) (config : ValueFunctionConfig Scalar)
    (layout : Option TrainingLayout) (valuePredictions advantages returns : List (List Scalar))
    (sampleIndex : Nat) (sample : ValueTrajectorySample) (position place : Nat) : Prop where
  listed : (tokenOrder layout trajectory.inserted config.seqLen sampleIndex sample)[place]? =
    some (sampleIndex, position)
  advantage : cell advantages sampleIndex position =
    lambdaAdvantage trajectory.reward config.gamma config.gaeLambda
      (((tokenOrder layout trajectory.inserted config.seqLen sampleIndex sample).drop place).map
        (fun token => cell valuePredictions token.1 token.2))
  target : cell returns sampleIndex position =
    lambdaAdvantage trajectory.reward config.gamma config.valueTargetLambda
      (((tokenOrder layout trajectory.inserted config.seqLen sampleIndex sample).drop place).map
        (fun token => cell valuePredictions token.1 token.2)) +
      cell valuePredictions sampleIndex position

/-- The streams of a value result: as wide as the samples, with the entries of every
visible trained token. -/
structure ResultStreams (trajectory : ValueTrajectory Scalar) (config : ValueFunctionConfig Scalar)
    (layout : Option TrainingLayout) (valuePredictions advantages returns : List (List Scalar)) :
    Prop where
  predictionWidths : valuePredictions.map List.length =
    trajectory.samples.map (fun sample => sample.tokenIds.length)
  advantageWidths : advantages.map List.length =
    trajectory.samples.map (fun sample => sample.tokenIds.length)
  entries : ∀ (sampleIndex : Nat) (sample : ValueTrajectorySample),
    trajectory.samples[sampleIndex]? = some sample → ∀ position : Nat,
    sample.mask[position]? = some true →
    position < visibleLength trajectory.inserted config.seqLen sample →
    ∃ place, TokenEntries trajectory config layout valuePredictions advantages returns sampleIndex
      sample position place

omit [LinearOrder Scalar] in
/-- Padding a projected stream keeps the values the critic saw. -/
theorem padded_cell (samples : List ValueTrajectorySample) (projected : List (List Scalar))
    (sampleIndex position : Nat) (sample : ValueTrajectorySample) (row : List Scalar)
    (found : samples[sampleIndex]? = some sample) (projectedRow : projected[sampleIndex]? = some row)
    (seen : position < row.length) :
    cell (List.zipWith (fun sample values =>
      values ++ List.replicate (sample.tokenIds.length - values.length) 0) samples projected)
      sampleIndex position = row.getD position 0 := by
  rw [cell, List.getD_eq_getElem?_getD (l := List.zipWith _ _ _), List.getElem?_zipWith, found,
    projectedRow]
  simp only [Option.getD_some]
  rw [List.getD_append _ _ _ _ seen]

omit [CommRing Scalar] [LinearOrder Scalar] in
theorem lengths_ext (rows : List (List Scalar)) (samples : List ValueTrajectorySample)
    (sameLength : rows.length = samples.length)
    (each : ∀ (sampleIndex : Nat) (sample : ValueTrajectorySample),
      samples[sampleIndex]? = some sample →
      ∃ row, rows[sampleIndex]? = some row ∧ row.length = sample.tokenIds.length) :
    rows.map List.length = samples.map (fun sample => sample.tokenIds.length) := by
  apply List.ext_getElem?
  intro sampleIndex
  rw [List.getElem?_map, List.getElem?_map]
  cases found : samples[sampleIndex]? with
  | none =>
    have outside := List.getElem?_eq_none_iff.mp found
    rw [List.getElem?_eq_none (sameLength ▸ outside)]
    rfl
  | some sample =>
    obtain ⟨row, isRow, width⟩ := each sampleIndex sample found
    rw [isRow, Option.map_some, Option.map_some, width]

omit [LinearOrder Scalar] in
/-- Rows of a list read cell by cell. -/
theorem cell_of_row (rows : List (List Scalar)) (sampleIndex position : Nat) (row : List Scalar)
    (found : rows[sampleIndex]? = some row) : cell rows sampleIndex position = row.getD position 0 := by
  rw [cell, List.getD_eq_getElem?_getD (l := rows), found, Option.getD_some]

/-- A value result with visible trained tokens has these streams. -/
theorem compute_value_result_streams (trajectory : ValueTrajectory Scalar)
    (predictions : List (List Scalar)) (config : ValueFunctionConfig Scalar)
    (layout : Option TrainingLayout) (stitches : Stitches trajectory config.seqLen layout)
    (valuePredictions advantages returns : List (List Scalar))
    (computed : computeValueResult trajectory predictions config layout =
      .ok (valuePredictions, advantages, returns)) :
    ResultStreams trajectory config layout valuePredictions advantages returns := by
  rw [computeValueResult] at computed
  by_cases sameBranches : predictions.length ≠ trajectory.samples.length
  · rw [if_pos sameBranches] at computed
    cases computed
  rw [if_neg sameBranches] at computed
  obtain ⟨projected, accepted, computed⟩ := Fallible.bind_ok computed
  have projectedWidths := project_predictions_lengths trajectory.inserted config.seqLen
    trajectory.samples predictions projected (not_not.mp sameBranches) accepted
  have sameLength : projected.length = trajectory.samples.length := by
    have lengths := congrArg List.length projectedWidths
    rwa [List.length_map, List.length_map] at lengths
  have rowOf (sampleIndex : Nat) (sample : ValueTrajectorySample)
      (found : trajectory.samples[sampleIndex]? = some sample) :
      ∃ row, projected[sampleIndex]? = some row ∧
        row.length = visibleLength trajectory.inserted config.seqLen sample := by
    have entry := congrArg (fun lengths => lengths[sampleIndex]?) projectedWidths
    simp only [List.getElem?_map, found, Option.map_some, Option.map_eq_some_iff] at entry
    exact entry
  have predictionWidths : (List.zipWith (fun sample values =>
      values ++ List.replicate (sample.tokenIds.length - values.length) 0) trajectory.samples
        projected).map List.length = trajectory.samples.map (fun sample => sample.tokenIds.length) := by
    apply lengths_ext
    · rw [List.length_zipWith, sameLength, Nat.min_self]
    · intro sampleIndex sample found
      obtain ⟨row, isRow, width⟩ := rowOf sampleIndex sample found
      have fits := visible_le trajectory.inserted config.seqLen sample
      rw [← width, ← sample.aligned.1] at fits
      refine ⟨_, List.getElem?_zipWith_eq_some.mpr ⟨sample, row, found, isRow, rfl⟩, ?_⟩
      rw [List.length_append, List.length_replicate]
      omega
  have valueCell (sampleIndex : Nat) (sample : ValueTrajectorySample)
      (found : trajectory.samples[sampleIndex]? = some sample) (position : Nat)
      (seen : position < visibleLength trajectory.inserted config.seqLen sample) :
      cell (List.zipWith (fun sample values =>
        values ++ List.replicate (sample.tokenIds.length - values.length) 0) trajectory.samples
          projected) sampleIndex position = cell projected sampleIndex position := by
    obtain ⟨row, isRow, width⟩ := rowOf sampleIndex sample found
    rw [padded_cell trajectory.samples projected sampleIndex position sample row found isRow
      (width ▸ seen), cell_of_row projected sampleIndex position row isRow]
  cases layout with
  | none =>
    obtain ⟨⟨someAdvantages, someReturns⟩, credited, made⟩ := Fallible.bind_ok computed
    cases made
    obtain ⟨otherAdvantages, otherReturns, sameCredit, advantageRows, -, each⟩ :=
      branch_credit_each trajectory.reward config trajectory.samples projected sameLength
        (fun sampleIndex sample values found isRow => by
          obtain ⟨row, alsoRow, width⟩ := rowOf sampleIndex sample found
          obtain rfl := Option.some.inj (isRow.symm.trans alsoRow)
          exact width ▸ visible_le _ _ _)
    obtain ⟨rfl, rfl⟩ := Prod.mk.inj (Except.ok.inj (credited.symm.trans sameCredit))
    refine ⟨predictionWidths, lengths_ext _ _ advantageRows ?_, ?_⟩
    · intro sampleIndex sample found
      obtain ⟨row, isRow, width⟩ := rowOf sampleIndex sample found
      obtain ⟨state, processed, isAdvantage, -⟩ := each sampleIndex sample row found isRow
      refine ⟨_, isAdvantage, ?_⟩
      have fits := visible_le trajectory.inserted config.seqLen sample
      have aligned := sample.aligned.1
      rw [List.length_append, processed.advantageWidth, List.length_take, List.length_replicate]
      omega
    · intro sampleIndex sample found position trained seen
      obtain ⟨row, isRow, width⟩ := rowOf sampleIndex sample found
      obtain ⟨state, processed, isAdvantage, isReturn⟩ := each sampleIndex sample row found isRow
      have fits := visible_le trajectory.inserted config.seqLen sample
      rw [← width] at seen fits
      have masked : (sample.mask.take row.length)[position]? = some true := by
        rw [List.getElem?_take, if_pos seen]
        exact trained
      obtain ⟨place, listed⟩ := List.mem_iff_getElem?.mp ((mem_action_indices_iff _ _).mpr masked)
      have advantage := processed.advantages place position listed (Nat.zero_le _)
      have target := processed.returns place position listed (Nat.zero_le _)
      have ownCell : cell (List.zipWith (fun sample values =>
          values ++ List.replicate (sample.tokenIds.length - values.length) 0) trajectory.samples
            projected) sampleIndex position = row.getD position 0 := by
        rw [valueCell sampleIndex sample found position (width ▸ seen),
          cell_of_row projected sampleIndex position row isRow]
      have values : ((tokenOrder none trajectory.inserted config.seqLen sampleIndex sample).drop
          place).map (fun token => cell (List.zipWith (fun sample values =>
            values ++ List.replicate (sample.tokenIds.length - values.length) 0) trajectory.samples
              projected) token.1 token.2) =
          (actionValues row (sample.mask.take row.length)).drop place := by
        rw [tokenOrder, ← width, ← List.map_drop, List.map_map, actionValues, ← List.map_drop]
        apply List.map_congr_left
        intro later inOrder
        have inMask := (mem_action_indices_iff _ _).mp (List.mem_of_mem_drop inOrder)
        have inside := (List.getElem?_eq_some_iff.mp inMask).1
        rw [List.length_take] at inside
        rw [Function.comp_apply, valueCell sampleIndex sample found later (by omega),
          cell_of_row projected sampleIndex later row isRow]
      refine ⟨place, ?_, ?_, ?_⟩
      · rw [tokenOrder, ← width, List.getElem?_map, listed]
        rfl
      · rw [cell_of_row _ _ _ _ isAdvantage, values, List.getD_eq_getElem?_getD,
          List.getElem?_append_left (List.getElem?_eq_some_iff.mp advantage).1, advantage]
        rfl
      · rw [cell_of_row _ _ _ _ isReturn, values, ownCell, List.getD_eq_getElem?_getD,
          List.getElem?_append_left (List.getElem?_eq_some_iff.mp target).1, target]
        rfl
  | some stitched =>
    obtain ⟨⟨someAdvantages, someReturns⟩, credited, made⟩ := Fallible.bind_ok computed
    cases made
    obtain ⟨partition, visible⟩ := stitches stitched rfl
    obtain ⟨state, otherAdvantages, otherReturns, sameCredit, each, advantageRows, returnRows⟩ :=
      stitched_streams trajectory config stitched partition visible projected sameLength rowOf
    obtain ⟨rfl, rfl⟩ := Prod.mk.inj (Except.ok.inj (credited.symm.trans sameCredit))
    refine ⟨predictionWidths, lengths_ext _ _ advantageRows.length ?_, ?_⟩
    · intro sampleIndex sample found
      obtain ⟨row, isRow, width, -⟩ := advantageRows.each sampleIndex sample found
      exact ⟨row, isRow, width⟩
    · intro sampleIndex sample found position trained seen
      have inside := (List.getElem?_eq_some_iff.mp trained).1
      rw [← sample.aligned.1] at inside
      have member := (partition.exact sampleIndex position).mpr ⟨sample, found, trained⟩
      obtain ⟨place, listed⟩ := List.mem_iff_getElem?.mp member
      obtain ⟨row, isRow, -, tokens, -⟩ := advantageRows.each sampleIndex sample found
      obtain ⟨returnRow, isReturn, -, returnTokens, -⟩ := returnRows.each sampleIndex sample found
      obtain ⟨advantage, target⟩ := each place _ listed
      have values : ((tokenOrder (some stitched) trajectory.inserted config.seqLen sampleIndex
          sample).drop place).map (fun token => cell (List.zipWith (fun sample values =>
            values ++ List.replicate (sample.tokenIds.length - values.length) 0) trajectory.samples
              projected) token.1 token.2) =
          ((stitched.trainableSpans.flatMap sampleTokens).drop place).map
            (fun token => cell projected token.1 token.2) := by
        apply List.map_congr_left
        intro token later
        obtain ⟨other, alsoFound, otherTrained⟩ :=
          (partition.exact token.1 token.2).mp (List.mem_of_mem_drop later)
        exact valueCell token.1 other alsoFound token.2
          (visible other (List.mem_of_getElem? alsoFound) token.2 otherTrained)
      refine ⟨place, listed, ?_, ?_⟩
      · rw [cell_of_row _ _ _ _ isRow, values, ← advantage, List.getD_eq_getElem?_getD,
          tokens place position listed inside]
        rfl
      · rw [cell_of_row _ _ _ _ isReturn, values, valueCell sampleIndex sample found position seen,
          ← target, List.getD_eq_getElem?_getD, returnTokens place position listed inside]
        rfl

end PrimeRl.Value.TokenStreams
