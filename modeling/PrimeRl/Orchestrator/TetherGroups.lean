import PrimeRl.Orchestrator.TetherBranches

/-!
# What a scored group receives

A rollout with attached streams is refused for a hidden token only, or for
advantages that do not fit its samples; otherwise it receives its credit and its
statistics. Controllers then accept every statistic a scorer gathers.
-/

namespace PrimeRl.Orchestrator.Tether

open Regression
open PrimeRl.Value.Credit PrimeRl.Value.Trajectory

universe u v
variable {Scalar : Type u} [Field Scalar] [LinearOrder Scalar] [IsStrictOrderedRing Scalar]

/-! ## One rollout -/

section
variable {rollout : Rollout Scalar} {trajectory : ValueTrajectory Scalar}
  {predictions rawAdvantages : List (List Scalar)}

omit [Field Scalar] [LinearOrder Scalar] [IsStrictOrderedRing Scalar] in
theorem Attached.lengths (attached : Attached rollout trajectory predictions rawAdvantages) :
    predictions.length = trajectory.samples.length ∧
      rawAdvantages.length = trajectory.samples.length := by
  have predictionLengths := congrArg List.length attached.predictionWidths
  have advantageLengths := congrArg List.length attached.advantageWidths
  rw [List.length_map, List.length_map] at predictionLengths advantageLengths
  exact ⟨predictionLengths, advantageLengths⟩

omit [Field Scalar] [LinearOrder Scalar] [IsStrictOrderedRing Scalar] in
/-- Every sample has its streams. -/
theorem Attached.samples (attached : Attached rollout trajectory predictions rawAdvantages) :
    (streamsOf trajectory predictions rawAdvantages).map (fun item => item.1.1) =
      trajectory.samples := by
  obtain ⟨predictionLengths, advantageLengths⟩ := attached.lengths
  rw [streamsOf, show (fun item : Streams Scalar => item.1.1) = Prod.fst ∘ Prod.fst from rfl,
    ← List.map_map, List.map_fst_zip, List.map_fst_zip predictionLengths.ge]
  rw [List.length_zip, predictionLengths, advantageLengths, Nat.min_self]

/-- A rollout scored with one coefficient. -/
theorem score_rollout_eq (attached : Attached rollout trajectory predictions rawAdvantages)
    (runtime : TetherRuntime Scalar) (rho anchor : Scalar) :
    runtime.scoreRollout rho (rollout, anchor) =
      if (streamsOf trajectory predictions rawAdvantages).any
          (fun item => hides runtime trajectory.inserted item.1.1) then
        .error hiddenMessage
      else (rollout.assignAdvantages (rolloutCredits runtime trajectory.inserted anchor
          (fun _ _ => rho) (streamsOf trajectory predictions rawAdvantages))).map
        (fun assigned => (assigned, if runtime.adaptive.isSome then
          [TetherRegressionStats.ofRows (rolloutRows runtime trajectory.inserted anchor
            (streamsOf trajectory predictions rawAdvantages))] else [])) := by
  obtain ⟨predictionLengths, advantageLengths⟩ := attached.lengths
  have samples : rollout.scoredSamples =
      trajectory.samples.map (fun sample => ⟨sample.tokenIds, sample.mask⟩) := by
    rw [Rollout.scoredSamples, attached.valueTrajectory]
  have streams : (rollout.scoredSamples.zip predictions).zip rawAdvantages =
      (streamsOf trajectory predictions rawAdvantages).map (fun item =>
        (((⟨item.1.1.tokenIds, item.1.1.mask⟩ : ScoredSample), item.1.2), item.2)) := by
    rw [samples, List.zip_map_left, List.zip_map_left, streamsOf]
    rfl
  have fits : ¬(predictions.length ≠ rollout.scoredSamples.length ∨
      rawAdvantages.length ≠ rollout.scoredSamples.length) := by
    rw [samples, List.length_map, predictionLengths, advantageLengths]
    exact not_or.mpr ⟨not_not_intro rfl, not_not_intro rfl⟩
  rw [TetherRuntime.scoreRollout, attached.valuePredictions, attached.valueAdvantages]
  dsimp only
  rw [if_neg fits, streams, score_branches attached.valueTrajectory runtime anchor rho _
    attached.widths]
  by_cases hidden : (streamsOf trajectory predictions rawAdvantages).any
      (fun item => hides runtime trajectory.inserted item.1.1) = true
  · rw [if_pos hidden, if_pos hidden]
    rfl
  · rw [if_neg hidden, if_neg hidden]
    dsimp only [bind, Except.bind]
    rw [List.nil_append]
    cases rollout.assignAdvantages (rolloutCredits runtime trajectory.inserted anchor
      (fun _ _ => rho) (streamsOf trajectory predictions rawAdvantages)) with
    | error message => rfl
    | ok assigned =>
      cases runtime.adaptive.isSome with
      | false => rfl
      | true =>
        simp only [if_true, StatsAccumulator.freeze_add_rows]
        rfl

/-- The statistics of a rollout by bin. -/
def rolloutStats (runtime : TetherRuntime Scalar) (coefficients : TetherCoefficientTable Scalar)
    (trajectory : ValueTrajectory Scalar) (anchor : Scalar) (streams : List (Streams Scalar)) :
    TetherRolloutStats Scalar :=
  ⟨(List.range coefficients.numBins).map (fun bin => TetherRegressionStats.ofRows
      (rolloutBinRows runtime trajectory.inserted coefficients anchor streams bin)), by
    rw [List.length_map, List.length_range]
    exact coefficients.valid.1⟩

/-- A rollout scored with bins. -/
theorem score_positioned_rollout_eq
    (attached : Attached rollout trajectory predictions rawAdvantages)
    (runtime : TetherRuntime Scalar) (coefficients : TetherCoefficientTable Scalar)
    (anchor : Scalar) :
    runtime.scorePositionedRollout coefficients (rollout, anchor) =
      if (streamsOf trajectory predictions rawAdvantages).any
          (fun item => hides runtime trajectory.inserted item.1.1) then
        .error hiddenMessage
      else (rollout.assignAdvantages (rolloutCredits runtime trajectory.inserted anchor
          (fun sample => rhoOf coefficients sample.sampledMask)
          (streamsOf trajectory predictions rawAdvantages))).map
        (fun assigned => (assigned, rolloutStats runtime coefficients trajectory anchor
          (streamsOf trajectory predictions rawAdvantages))) := by
  obtain ⟨predictionLengths, advantageLengths⟩ := attached.lengths
  have samples : rollout.scoredSamples =
      trajectory.samples.map (fun sample => ⟨sample.tokenIds, sample.mask⟩) := by
    rw [Rollout.scoredSamples, attached.valueTrajectory]
  have views : rollout.branchViews = trajectory.samples.map (fun sample =>
      (sample.tokenIds, sample.sampledMask, sample.mask)) := by
    rw [Rollout.branchViews, attached.valueTrajectory]
  have streams : ((rollout.branchViews.zip rollout.scoredSamples).zip predictions).zip rawAdvantages =
      (streamsOf trajectory predictions rawAdvantages).map (fun item =>
        ((((item.1.1.tokenIds, item.1.1.sampledMask, item.1.1.mask),
          (⟨item.1.1.tokenIds, item.1.1.mask⟩ : ScoredSample)), item.1.2), item.2)) := by
    rw [samples, views, List.zip_map', List.zip_map_left, List.zip_map_left, streamsOf]
    rfl
  have fits : ¬(rollout.branchViews.length ≠ rollout.scoredSamples.length ∨
      predictions.length ≠ rollout.scoredSamples.length ∨
      rawAdvantages.length ≠ rollout.scoredSamples.length) := by
    rw [samples, views, List.length_map, List.length_map, predictionLengths, advantageLengths]
    exact not_or.mpr ⟨not_not_intro rfl, not_or.mpr ⟨not_not_intro rfl, not_not_intro rfl⟩⟩
  have started : List.replicate coefficients.numBins (0 : TetherRegressionStats Scalar) =
      (List.range coefficients.numBins).map (fun _ => TetherRegressionStats.ofRows []) := by
    rw [List.map_const', List.length_range]
    rfl
  rw [TetherRuntime.scorePositionedRollout, attached.valuePredictions, attached.valueAdvantages]
  dsimp only
  rw [if_neg fits, streams, started, score_positioned_branches attached.valueTrajectory runtime anchor
    coefficients _ attached.widths]
  by_cases hidden : (streamsOf trajectory predictions rawAdvantages).any
      (fun item => hides runtime trajectory.inserted item.1.1) = true
  · rw [if_pos hidden, if_pos hidden]
    rfl
  · rw [if_neg hidden, if_neg hidden]
    dsimp only [bind, Except.bind]
    rw [List.nil_append]
    cases rollout.assignAdvantages (rolloutCredits runtime trajectory.inserted anchor
      (fun sample => rhoOf coefficients sample.sampledMask)
      (streamsOf trajectory predictions rawAdvantages)) with
    | error message => rfl
    | ok assigned =>
      have several : ¬((List.range coefficients.numBins).map (fun bin =>
          TetherRegressionStats.ofRows (rolloutBinRows runtime trajectory.inserted coefficients anchor
            (streamsOf trajectory predictions rawAdvantages) bin))).length < 2 := by
        rw [List.length_map, List.length_range]
        exact Nat.not_lt.mpr coefficients.valid.1
      simp only [List.nil_append, TetherRolloutStats.create, dif_neg several]
      rfl

end

/-! ## Queued statistics -/

/-- A fit never refuses statistics with rows. -/
theorem fit_tether_accepts (stats : TetherRegressionStats Scalar) (ridge : Scalar)
    (weighed : stats.weight ≠ 0) (ridgeNonneg : 0 ≤ ridge) :
    ∃ fitted, fitTether stats ridge = .ok fitted := by
  rcases fit_tether_cases stats ridge weighed ridgeNonneg with ⟨_, missing⟩ | ⟨_, found⟩
  · exact ⟨_, missing⟩
  · exact ⟨_, found⟩

/-- Rollouts that are all accepted from the states a property holds of leave no
error. -/
theorem observe_each_accepts {Controller : Type u} {Stats : Type v}
    (observe : Controller → Stats → Except String Controller) (Ready : Controller → Prop)
    (Valid : Stats → Prop)
    (accepts : ∀ controller stats, Ready controller → Valid stats →
      ∃ next, observe controller stats = .ok next ∧ Ready next)
    (group : List Stats) (valid : ∀ stats ∈ group, Valid stats) (controller : Controller)
    (ready : Ready controller) :
    ∃ next, observeEach observe controller group = (next, none) ∧ Ready next := by
  induction group generalizing controller with
  | nil => exact ⟨controller, rfl, ready⟩
  | cons stats rest inductionHypothesis =>
    obtain ⟨here, later⟩ := List.forall_mem_cons.mp valid
    obtain ⟨next, observed, isReady⟩ := accepts controller stats ready here
    rw [observeEach, observed]
    exact inductionHypothesis later next isReady

/-- One coefficient accepts all statistics. -/
theorem AdaptiveTetherCoefficient.observe_group_accepts
    (controller : AdaptiveTetherCoefficient Scalar) (stats : List (TetherRegressionStats Scalar)) :
    ∃ next, controller.observeGroup stats = (next, none) := by
  have accepts (controller : AdaptiveTetherCoefficient Scalar) (stats : TetherRegressionStats Scalar) :
      ∃ next, controller.observeRollout stats = .ok next := by
    rw [observeRollout]
    split_ifs
    · rw [update]
      dsimp only
      split_ifs with unweighed
      · exact ⟨_, rfl⟩
      · obtain ⟨fitted, accepted⟩ := fit_tether_accepts _ (controller.enqueue stats).config.ridge
          unweighed (controller.enqueue stats).config.ridgeNonneg
        rw [accepted]
        cases fitted with
        | none => exact ⟨_, rfl⟩
        | some fitRho => exact ⟨_, rfl⟩
    · exact ⟨_, rfl⟩
  obtain ⟨next, observed, -⟩ := observe_each_accepts observeRollout (fun _ => True) (fun _ => True)
    (fun controller stats _ _ =>
      (accepts controller stats).imp (fun next observed => ⟨observed, trivial⟩))
    stats (fun _ _ => trivial) controller trivial
  exact ⟨next, observed⟩

/-- Everything a controller with bins keeps has one entry for each bin. -/
structure AdaptivePositionTetherCoefficients.Shaped
    (controller : AdaptivePositionTetherCoefficients Scalar) : Prop where
  several : 2 ≤ controller.numBins
  wide : 1 ≤ controller.binSize
  rho : controller.rho.length = controller.numBins
  pendingBins : controller.pendingBins.length = controller.numBins
  pendingContributors : controller.pendingContributors.length = controller.numBins

namespace AdaptivePositionTetherCoefficients

omit [IsStrictOrderedRing Scalar] in
theorem create_shaped {config : AdaptiveTetherConfig Scalar} {batchSize : Nat}
    {gamma gaeLambda : Scalar} {numBins binSize minBinRollouts : Nat}
    {controller : AdaptivePositionTetherCoefficients Scalar}
    (created : create config batchSize gamma gaeLambda numBins binSize minBinRollouts =
      .ok controller) : controller.Shaped := by
  rw [create] at created
  split_ifs at created with _ _ _ invalid
  cases created
  have valid := not_or.mp invalid
  exact ⟨Nat.not_lt.mp valid.1, Nat.not_lt.mp valid.2, List.length_replicate, List.length_replicate,
    List.length_replicate⟩

/-- The loop over the bins accepts every window and keeps the number of bins. -/
theorem fit_bins_accepts (config : AdaptiveTetherConfig Scalar) (minBinRollouts : Nat)
    (items : List ((TetherRegressionStats Scalar × Nat) × Nat)) (fits : BinFits Scalar) :
    ∃ next, items.foldlM (fitBin config minBinRollouts) fits = .ok next ∧
      next.rho.length = fits.rho.length := by
  induction items generalizing fits with
  | nil => exact ⟨fits, rfl, rfl⟩
  | cons item items inductionHypothesis =>
    have step : ∃ middle, fitBin config minBinRollouts fits item = .ok middle ∧
        middle.rho.length = fits.rho.length := by
      obtain ⟨⟨binStats, support⟩, index⟩ := item
      rw [fitBin]
      split_ifs with idle
      · exact ⟨fits, rfl, rfl⟩
      · obtain ⟨fitted, accepted⟩ := fit_tether_accepts binStats config.ridge
          (fun unweighed => idle (Or.inl unweighed)) config.ridgeNonneg
        rw [accepted]
        cases fitted with
        | none => exact ⟨fits, rfl, rfl⟩
        | some fitRho => exact ⟨_, rfl, List.length_modify _ _ _⟩
    obtain ⟨middle, first, sameLength⟩ := step
    obtain ⟨next, others, length⟩ := inductionHypothesis middle
    refine ⟨next, ?_, length.trans sameLength⟩
    rw [List.foldlM_cons, first]
    exact others

/-- A shaped controller accepts a rollout with as many bins. -/
theorem observe_rollout_accepts (controller : AdaptivePositionTetherCoefficients Scalar)
    (stats : TetherRolloutStats Scalar) (shaped : controller.Shaped)
    (sameBins : stats.bins.length = controller.numBins) :
    ∃ next, controller.observeRollout stats = .ok next ∧
      next.Shaped ∧ next.numBins = controller.numBins := by
  have queued : (controller.enqueue stats).Shaped := by
    refine ⟨shaped.several, shaped.wide, shaped.rho, ?_, ?_⟩
    · rw [enqueue, List.length_zipWith, shaped.pendingBins, sameBins, Nat.min_self]
    · rw [enqueue, List.length_zipWith, shaped.pendingContributors, sameBins, Nat.min_self]
  rw [observeRollout, if_neg (not_not_intro sameBins)]
  dsimp only
  split_ifs
  · have updated : ∃ fitted, (controller.enqueue stats).update (controller.enqueue stats).pendingBins
        (controller.enqueue stats).pendingContributors = .ok fitted ∧
        fitted.numBins = controller.numBins ∧ fitted.binSize = controller.binSize ∧
        fitted.rho.length = controller.numBins := by
      obtain ⟨fits, fitted, length⟩ := fit_bins_accepts (controller.enqueue stats).config
        (controller.enqueue stats).minBinRollouts
        ((controller.enqueue stats).pendingBins.zip (controller.enqueue stats).pendingContributors).zipIdx
        ⟨(controller.enqueue stats).rho, List.replicate (controller.enqueue stats).numBins false,
          (controller.enqueue stats).binUpdates, 0, 0⟩
      have rhoLength : fits.rho.length = controller.numBins := length.trans shaped.rho
      rw [update]
      dsimp only
      split_ifs with unweighed mismatched
      · exact ⟨_, rfl, rfl, rfl, shaped.rho⟩
      · exact absurd (queued.pendingBins.trans queued.pendingContributors.symm) mismatched
      · rw [fitted]
        have sameLength : ¬(controller.enqueue stats).pendingBins.length ≠ fits.rho.length :=
          not_not_intro (queued.pendingBins.trans rhoLength.symm)
        dsimp only
        rw [if_neg sameLength]
        exact ⟨_, rfl, rfl, rfl, rhoLength⟩
    obtain ⟨fitted, accepted, bins, width, length⟩ := updated
    rw [accepted]
    refine ⟨_, rfl, ⟨?_, ?_, ?_, List.length_replicate, List.length_replicate⟩, bins⟩
    · exact bins.symm ▸ shaped.several
    · exact width.symm ▸ shaped.wide
    · exact length.trans bins.symm
  · exact ⟨_, rfl, queued, rfl⟩

/-- A shaped controller accepts the statistics of a group and stays shaped. -/
theorem observe_group_accepts (controller : AdaptivePositionTetherCoefficients Scalar)
    (stats : List (TetherRolloutStats Scalar)) (shaped : controller.Shaped)
    (sameBins : ∀ item ∈ stats, item.bins.length = controller.numBins) :
    ∃ next, controller.observeGroup stats = (next, none) ∧ next.Shaped := by
  obtain ⟨next, observed, ready, -⟩ := observe_each_accepts observeRollout
    (fun next => next.Shaped ∧ next.numBins = controller.numBins)
    (fun item => item.bins.length = controller.numBins)
    (fun middle item ready same => by
      obtain ⟨next, observed, isShaped, bins⟩ :=
        observe_rollout_accepts middle item ready.1 (same.trans ready.2.symm)
      exact ⟨next, observed, isShaped, bins.trans ready.2⟩)
    stats sameBins controller ⟨shaped, rfl⟩
  exact ⟨next, observed, ready⟩

/-- The table of a shaped controller. -/
def table (controller : AdaptivePositionTetherCoefficients Scalar) (shaped : controller.Shaped) :
    TetherCoefficientTable Scalar :=
  ⟨controller.rho, controller.binSize, shaped.rho.symm ▸ shaped.several, shaped.wide⟩

omit [IsStrictOrderedRing Scalar] in
theorem coefficient_table_eq (controller : AdaptivePositionTetherCoefficients Scalar)
    (shaped : controller.Shaped) : controller.coefficientTable = .ok (controller.table shaped) := by
  have valid := (controller.table shaped).valid
  exact dif_neg (not_or.mpr ⟨Nat.not_lt.mpr valid.1, Nat.not_lt.mpr valid.2⟩)

end AdaptivePositionTetherCoefficients

end PrimeRl.Orchestrator.Tether
