import PrimeRl.Orchestrator.TetherWindows
import PrimeRl.Support.Argsort

/-!
# Windows by position

Each bin of a positioned controller is averaged over the windows in which enough
rollouts reached it with a fit. With the windows of the other controller, both
depend on the stream of rollouts alone.
-/

namespace PrimeRl.Orchestrator.Tether

open Regression Fallible

variable {Scalar : Type} [Field Scalar] [LinearOrder Scalar] [IsStrictOrderedRing Scalar]

/-! ## The loop over the bins -/

/-- The fit of a bin, if enough rollouts reached it. -/
def supportedFit (config : AdaptiveTetherConfig Scalar) (minBinRollouts : Nat)
    (item : TetherRegressionStats Scalar × Nat) : Option Scalar :=
  if item.2 < minBinRollouts then none else windowFit config item.1

/-- Rows of the bins that are fitted. -/
def fittedWeight (config : AdaptiveTetherConfig Scalar) (minBinRollouts : Nat)
    (items : List (TetherRegressionStats Scalar × Nat)) : Nat :=
  (items.map (fun item =>
    if (supportedFit config minBinRollouts item).isSome then item.1.weight else 0)).sum

/-- A bin is fitted or left as it is. -/
theorem fit_bin_eq (config : AdaptiveTetherConfig Scalar) (minBinRollouts : Nat)
    (fits : BinFits Scalar) (item : TetherRegressionStats Scalar × Nat) (index : Nat) :
    fitBin config minBinRollouts fits (item, index) =
      .ok ((supportedFit config minBinRollouts item).elim fits (fun fitRho =>
        { rho := fits.rho.modify index (fun rho =>
            config.emaDecay * rho + (1 - config.emaDecay) * fitRho)
          lastFitValid := fits.lastFitValid.set index true
          binUpdates := fits.binUpdates.modify index (· + 1)
          fitWeight := fits.fitWeight + item.1.weight
          fitResidual := fits.fitResidual + residualSum item.1 fitRho })) := by
  obtain ⟨stats, support⟩ := item
  rw [fitBin, supportedFit, windowFit]
  by_cases unweighed : stats.weight = 0
  · rw [if_pos (Or.inl unweighed), if_pos unweighed, ite_self]
    rfl
  by_cases unsupported : support < minBinRollouts
  · rw [if_pos (Or.inr unsupported), if_pos unsupported]
    rfl
  · rw [if_neg (not_or.mpr ⟨unweighed, unsupported⟩), if_neg unsupported, if_neg unweighed]
    obtain ⟨fit, accepted⟩ := fit_tether_accepts stats config.ridge unweighed config.ridgeNonneg
    rw [accepted]
    cases fit with
    | none => rfl
    | some fitRho => rfl

omit [Field Scalar] [LinearOrder Scalar] [IsStrictOrderedRing Scalar] in
/-- Changing the entry behind a prefix. -/
theorem modify_behind {Item : Type} (done : List Item) (item : Item) (rest : List Item)
    (change : Item → Item) :
    (done ++ item :: rest).modify done.length change = done ++ change item :: rest := by
  induction done with
  | nil => rfl
  | cons first done inductionHypothesis =>
    rw [List.cons_append, List.length_cons, List.modify_succ_cons, inductionHypothesis,
      List.cons_append]

omit [Field Scalar] [LinearOrder Scalar] [IsStrictOrderedRing Scalar] in
theorem zip_with_constant {Item Other : Type} (change : Item → Other → Item) (other : Other)
    (unchanged : ∀ item, change item other = item) (items : List Item) :
    List.zipWith change items (List.replicate items.length other) = items := by
  induction items with
  | nil => rfl
  | cons item items inductionHypothesis =>
    rw [List.length_cons, List.replicate_succ, List.zipWith_cons_cons, unchanged,
      inductionHypothesis]

omit [Field Scalar] [LinearOrder Scalar] [IsStrictOrderedRing Scalar] in
theorem zip_constant_with {Item Other Result : Type} (change : Item → Other → Result) (item : Item)
    (others : List Other) :
    List.zipWith change (List.replicate others.length item) others = others.map (change item) := by
  induction others with
  | nil => rfl
  | cons other others inductionHypothesis =>
    rw [List.length_cons, List.replicate_succ, List.zipWith_cons_cons, inductionHypothesis,
      List.map_cons]

/-- What the loop over the bins behind some bins does to them. -/
structure Looped (config : AdaptiveTetherConfig Scalar) (minBinRollouts : Nat)
    (items : List (TetherRegressionStats Scalar × Nat)) (rho : List Scalar) (valid : List Bool)
    (updates : List Nat) (fits next : BinFits Scalar) : Prop where
  rho : next.rho = fits.rho ++ List.zipWith (fun rho item =>
    averaged config rho (supportedFit config minBinRollouts item)) rho items
  valid : next.lastFitValid = fits.lastFitValid ++ List.zipWith (fun valid item =>
    valid || (supportedFit config minBinRollouts item).isSome) valid items
  updates : next.binUpdates = fits.binUpdates ++ List.zipWith (fun updates item =>
    updates + if (supportedFit config minBinRollouts item).isSome then 1 else 0) updates items
  weight : next.fitWeight = fits.fitWeight + fittedWeight config minBinRollouts items
  residual : 0 ≤ fits.fitResidual → 0 ≤ next.fitResidual

theorem fit_bins_looped (config : AdaptiveTetherConfig Scalar) (minBinRollouts : Nat)
    (items : List (TetherRegressionStats Scalar × Nat)) (rho : List Scalar) (valid : List Bool)
    (updates : List Nat) (rhoLength : rho.length = items.length)
    (validLength : valid.length = items.length) (updatesLength : updates.length = items.length)
    (fits : BinFits Scalar) (place : Nat) (rhoPlace : fits.rho.length = place)
    (validPlace : fits.lastFitValid.length = place)
    (updatesPlace : fits.binUpdates.length = place) :
    ∃ next, (items.zipIdx place).foldlM (fitBin config minBinRollouts)
        { fits with
          rho := fits.rho ++ rho
          lastFitValid := fits.lastFitValid ++ valid
          binUpdates := fits.binUpdates ++ updates } = .ok next ∧
      Looped config minBinRollouts items rho valid updates fits next := by
  induction items generalizing rho valid updates fits place with
  | nil =>
    refine ⟨_, rfl, ?_, ?_, ?_, rfl, fun nonnegative => nonnegative⟩
    · rw [List.zipWith_nil_right, List.length_eq_zero_iff.mp rhoLength]
    · rw [List.zipWith_nil_right, List.length_eq_zero_iff.mp validLength]
    · rw [List.zipWith_nil_right, List.length_eq_zero_iff.mp updatesLength]
  | cons item items inductionHypothesis =>
    cases rho with
    | nil => cases rhoLength
    | cons rho rhos =>
    cases valid with
    | nil => cases validLength
    | cons flag flags =>
    cases updates with
    | nil => cases updatesLength
    | cons count counts =>
    -- the bins so far with this one
    let here : BinFits Scalar :=
      { rho := fits.rho ++ [averaged config rho (supportedFit config minBinRollouts item)]
        lastFitValid :=
          fits.lastFitValid ++ [flag || (supportedFit config minBinRollouts item).isSome]
        binUpdates := fits.binUpdates ++
          [count + if (supportedFit config minBinRollouts item).isSome then 1 else 0]
        fitWeight := fits.fitWeight +
          if (supportedFit config minBinRollouts item).isSome then item.1.weight else 0
        fitResidual := fits.fitResidual +
          ((supportedFit config minBinRollouts item).elim 0 (residualSum item.1)) }
    have step : fitBin config minBinRollouts
        { fits with
          rho := fits.rho ++ rho :: rhos
          lastFitValid := fits.lastFitValid ++ flag :: flags
          binUpdates := fits.binUpdates ++ count :: counts } (item, place) =
        .ok { here with
          rho := here.rho ++ rhos
          lastFitValid := here.lastFitValid ++ flags
          binUpdates := here.binUpdates ++ counts } := by
      rw [fit_bin_eq]
      cases fit : supportedFit config minBinRollouts item with
      | none => simp [here, fit, averaged]
      | some fitRho =>
        have isRho := modify_behind fits.rho rho rhos (fun rho =>
          config.emaDecay * rho + (1 - config.emaDecay) * fitRho)
        have isCount := modify_behind fits.binUpdates count counts (· + 1)
        have isFlag : (fits.lastFitValid ++ flag :: flags).set place true =
            fits.lastFitValid ++ true :: flags := by
          rw [← validPlace, List.set_append_right _ _ le_rfl, Nat.sub_self, List.set_cons_zero]
        rw [rhoPlace] at isRho
        rw [updatesPlace] at isCount
        simp [here, fit, averaged, isRho, isCount, isFlag]
    obtain ⟨next, looped, others⟩ := inductionHypothesis rhos flags counts
      (Nat.succ.inj rhoLength) (Nat.succ.inj validLength) (Nat.succ.inj updatesLength) here (place + 1)
      (by rw [List.length_append, rhoPlace, List.length_singleton])
      (by rw [List.length_append, validPlace, List.length_singleton])
      (by rw [List.length_append, updatesPlace, List.length_singleton])
    refine ⟨next, ?_, ?_, ?_, ?_, ?_, ?_⟩
    · rw [List.zipIdx_cons, List.foldlM_cons, step]
      exact looped
    · rw [others.rho, List.append_assoc, List.zipWith_cons_cons, List.singleton_append]
    · rw [others.valid, List.append_assoc, List.zipWith_cons_cons, List.singleton_append]
    · rw [others.updates, List.append_assoc, List.zipWith_cons_cons, List.singleton_append]
    · rw [others.weight, fittedWeight, fittedWeight, List.map_cons, List.sum_cons, ← Nat.add_assoc]
    · intro nonnegative
      apply others.residual
      apply add_nonneg nonnegative
      cases supportedFit config minBinRollouts item with
      | none => exact le_rfl
      | some fitRho => exact residual_sum_nonneg item.1 fitRho

omit [IsStrictOrderedRing Scalar] in
/-- The fitted rows are among all rows. -/
theorem fitted_weight_le (config : AdaptiveTetherConfig Scalar) (minBinRollouts : Nat)
    (stats : List (TetherRegressionStats Scalar)) (contributors : List Nat) :
    fittedWeight config minBinRollouts (stats.zip contributors) ≤
      (stats.map TetherRegressionStats.weight).sum := by
  induction stats generalizing contributors with
  | nil => exact Nat.zero_le _
  | cons first stats inductionHypothesis =>
    cases contributors with
    | nil => exact Nat.zero_le _
    | cons count contributors =>
      have others := inductionHypothesis contributors
      rw [fittedWeight] at others ⊢
      rw [List.zip_cons_cons, List.map_cons, List.sum_cons, List.map_cons, List.sum_cons]
      split_ifs
      · exact Nat.add_le_add le_rfl others
      · exact Nat.add_le_add (Nat.zero_le _) others

namespace AdaptivePositionTetherCoefficients

/-! ## Fits of windows -/

/-- The measures of the last window are in their ranges. -/
structure Measured (controller : AdaptivePositionTetherCoefficients Scalar) : Prop where
  lastFitValid : controller.lastFitValid.length = controller.numBins
  lastContributors : controller.lastContributors.length = controller.numBins
  mseGroup : 0 ≤ controller.lastMseGroup
  mseFit : 0 ≤ controller.lastMseFit
  mseEma : 0 ≤ controller.lastMseEma
  featurePower : 0 ≤ controller.lastFeaturePower
  fitTokenFraction : 0 ≤ controller.lastFitTokenFraction ∧ controller.lastFitTokenFraction ≤ 1

/-- What the fits of a window do. -/
structure Fitted (controller : AdaptivePositionTetherCoefficients Scalar)
    (fits : List (Option Scalar)) (next : AdaptivePositionTetherCoefficients Scalar) : Prop where
  same : SameConfig controller next
  rho : next.rho = List.zipWith (averaged controller.config) controller.rho fits
  binUpdates : next.binUpdates = List.zipWith (fun updates fit =>
    updates + if fit.isSome then 1 else 0) controller.binUpdates fits
  updates : next.updates = controller.updates + if fits.any Option.isSome then 1 else 0
  skipped : next.skippedUpdates =
    controller.skippedUpdates + if fits.any Option.isSome then 0 else 1
  measured : next.Measured

omit [IsStrictOrderedRing Scalar] in
/-- Without rows no bin has a fit. -/
theorem fits_unweighed (config : AdaptiveTetherConfig Scalar) (minBinRollouts : Nat)
    (stats : List (TetherRegressionStats Scalar)) (contributors : List Nat)
    (sameLength : stats.length = contributors.length)
    (unweighed : (stats.map TetherRegressionStats.weight).sum = 0) :
    (stats.zip contributors).map (supportedFit config minBinRollouts) =
      List.replicate stats.length none := by
  rw [List.eq_replicate_iff]
  constructor
  · rw [List.length_map, List.length_zip, ← sameLength, Nat.min_self]
  · intro fit listed
    obtain ⟨item, member, rfl⟩ := List.mem_map.mp listed
    have empty : item.1.weight = 0 :=
      List.sum_eq_zero_iff.mp unweighed item.1.weight
        (List.mem_map_of_mem (List.of_mem_zip member).1)
    rw [supportedFit, windowFit, if_pos empty, ite_self]

theorem update_fitted (controller : AdaptivePositionTetherCoefficients Scalar)
    (stats : List (TetherRegressionStats Scalar)) (contributors : List Nat)
    (rhoLength : controller.rho.length = controller.numBins)
    (updatesLength : controller.binUpdates.length = controller.numBins)
    (statsLength : stats.length = controller.numBins)
    (contributorsLength : contributors.length = controller.numBins) :
    ∃ next, controller.update stats contributors = .ok next ∧ Fitted controller
      ((stats.zip contributors).map (supportedFit controller.config controller.minBinRollouts))
      next := by
  have sameLength : stats.length = contributors.length := statsLength.trans contributorsLength.symm
  have itemsLength : (stats.zip contributors).length = controller.numBins := by
    rw [List.length_zip, ← sameLength, Nat.min_self, statsLength]
  rw [update]
  dsimp only
  by_cases unweighed : (stats.map TetherRegressionStats.weight).sum = 0
  · rw [if_pos unweighed, fits_unweighed _ _ _ _ sameLength unweighed, statsLength]
    have missing : (List.replicate controller.numBins (none : Option Scalar)).any Option.isSome =
        false := by
      simp
    refine ⟨_, rfl, ⟨rfl, rfl, rfl, rfl, rfl, rfl, rfl⟩, ?_, ?_, ?_, ?_,
      ⟨List.length_replicate, contributorsLength, le_rfl, le_rfl, le_rfl, le_rfl, le_rfl,
        zero_le_one⟩⟩
    · rw [← rhoLength]
      exact (zip_with_constant _ none (fun _ => rfl) controller.rho).symm
    · rw [← updatesLength]
      exact (zip_with_constant _ none (fun _ => rfl) controller.binUpdates).symm
    · rw [missing]
      rfl
    · rw [missing]
      rfl
  · obtain ⟨fits, looped, isRho, isValid, isUpdates, isWeight, residual⟩ :=
      fit_bins_looped controller.config controller.minBinRollouts (stats.zip contributors)
        controller.rho (List.replicate controller.numBins false) controller.binUpdates
        (rhoLength.trans itemsLength.symm) (List.length_replicate.trans itemsLength.symm)
        (updatesLength.trans itemsLength.symm) ⟨[], [], [], 0, 0⟩ 0 rfl rfl rfl
    have loop : (stats.zip contributors).zipIdx.foldlM
        (fitBin controller.config controller.minBinRollouts)
        ⟨controller.rho, List.replicate controller.numBins false, controller.binUpdates, 0, 0⟩ =
          .ok fits := looped
    have widths : ¬stats.length ≠ fits.rho.length := by
      rw [isRho, List.nil_append, List.length_zipWith, rhoLength, itemsLength, Nat.min_self]
      exact not_not_intro statsLength
    have total : 0 < (((stats.map TetherRegressionStats.weight).sum : Nat) : Scalar) :=
      Nat.cast_pos.mpr (Nat.pos_of_ne_zero unweighed)
    have flags : fits.lastFitValid = (stats.zip contributors).map (fun item =>
        (supportedFit controller.config controller.minBinRollouts item).isSome) := by
      rw [isValid, List.nil_append, ← itemsLength, zip_constant_with]
      rfl
    have fraction : (fits.fitWeight : Scalar) ≤
        (((stats.map TetherRegressionStats.weight).sum : Nat) : Scalar) := by
      rw [isWeight, Nat.zero_add]
      exact Nat.cast_le.mpr (fitted_weight_le controller.config controller.minBinRollouts stats
        contributors)
    have anyFitted : fits.lastFitValid.any id = ((stats.zip contributors).map
        (supportedFit controller.config controller.minBinRollouts)).any Option.isSome := by
      rw [flags, List.any_map, List.any_map]
      rfl
    rw [if_neg unweighed, if_neg (not_not_intro sameLength), loop]
    dsimp only
    rw [if_neg widths, anyFitted]
    refine ⟨_, rfl, ⟨rfl, rfl, rfl, rfl, rfl, rfl, rfl⟩, ?_, ?_, ?_, ?_, ⟨?_, contributorsLength, ?_, ?_, ?_, ?_, ?_, ?_⟩⟩
    · rw [List.zipWith_map_right]
      exact isRho
    · rw [List.zipWith_map_right]
      exact isUpdates
    · dsimp only
      split_ifs
      · rfl
      · rfl
    · dsimp only
      split_ifs
      · rfl
      · rfl
    · rw [flags, List.length_map, itemsLength]
    · apply div_nonneg _ total.le
      apply List.sum_nonneg
      intro target listed
      obtain ⟨item, _, rfl⟩ := List.mem_map.mp listed
      exact item.targetsNonneg
    · dsimp only
      split_ifs
      · exact div_nonneg (residual le_rfl) (Nat.cast_nonneg _)
      · exact le_rfl
    · apply div_nonneg _ total.le
      apply List.sum_nonneg
      intro residual listed
      rw [← List.map_uncurry_zip_eq_zipWith] at listed
      obtain ⟨item, _, rfl⟩ := List.mem_map.mp listed
      exact residual_sum_nonneg item.1 item.2
    · apply div_nonneg _ total.le
      apply List.sum_nonneg
      intro power listed
      obtain ⟨item, _, rfl⟩ := List.mem_map.mp listed
      exact item.featuresNonneg
    · exact div_nonneg (Nat.cast_nonneg _) total.le
    · exact (div_le_one total).mpr fraction

/-! ## Bins of a stream -/

/-- The statistics of a rollout in a bin. -/
def binOf (index : Nat) (stats : TetherRolloutStats Scalar) : TetherRegressionStats Scalar :=
  stats.bins.getD index 0

/-- The statistics that some rollouts have in a bin. -/
def binStats (index : Nat) (rollouts : List (TetherRolloutStats Scalar)) :
    TetherRegressionStats Scalar :=
  (rollouts.map (binOf index)).sum

/-- The rollouts with rows in a bin. -/
def support (index : Nat) (rollouts : List (TetherRolloutStats Scalar)) : Nat :=
  rollouts.countP (fun stats => decide (0 < (binOf index stats).weight))

/-- The fit of a bin over a window. -/
def binFit (config : AdaptiveTetherConfig Scalar) (minBinRollouts : Nat) (index : Nat)
    (window : List (TetherRolloutStats Scalar)) : Option Scalar :=
  supportedFit config minBinRollouts (binStats index window, support index window)

omit [IsStrictOrderedRing Scalar] in
theorem bins_eq (stats : TetherRolloutStats Scalar) (numBins : Nat)
    (length : stats.bins.length = numBins) :
    stats.bins = (List.range numBins).map (fun index => binOf index stats) := by
  rw [← length]
  exact (Argsort.range_getD stats.bins 0).symm

theorem bin_stats_snoc (index : Nat) (rollouts : List (TetherRolloutStats Scalar))
    (stats : TetherRolloutStats Scalar) :
    binStats index (rollouts ++ [stats]) = binStats index rollouts + binOf index stats := by
  rw [binStats, List.map_append, List.map_singleton, List.sum_append, List.sum_singleton, binStats]

omit [IsStrictOrderedRing Scalar] in
theorem support_snoc (index : Nat) (rollouts : List (TetherRolloutStats Scalar))
    (stats : TetherRolloutStats Scalar) :
    support index (rollouts ++ [stats]) =
      support index rollouts + if 0 < (binOf index stats).weight then 1 else 0 := by
  rw [support, List.countP_append, List.countP_singleton, support]
  simp

/-- Every rollout that reached a bin has a row there. -/
theorem support_le_weight (index : Nat) (rollouts : List (TetherRolloutStats Scalar)) :
    support index rollouts ≤ (binStats index rollouts).weight ∧
      (support index rollouts = 0 → (binStats index rollouts).weight = 0) := by
  induction rollouts with
  | nil => exact ⟨le_rfl, fun _ => rfl⟩
  | cons stats rollouts inductionHypothesis =>
    obtain ⟨most, empty⟩ := inductionHypothesis
    have weight : (binStats index (stats :: rollouts)).weight =
        (binOf index stats).weight + (binStats index rollouts).weight := by
      rw [binStats, List.map_cons, List.sum_cons]
      rfl
    rw [weight, support, List.countP_cons, ← support]
    by_cases reached : 0 < (binOf index stats).weight
    · simp only [reached, decide_true, if_true]
      omega
    · simp only [reached, decide_false, Bool.false_eq_true, if_false]
      omega

/-- Statistics of as many bins as are kept, each of some rows. -/
structure Scored (numBins : Nat) (stats : TetherRolloutStats Scalar) : Prop where
  length : stats.bins.length = numBins
  realized : ∀ item ∈ stats.bins, ∃ rows, item.Accumulated rows

theorem bin_stats_realized {numBins : Nat} (index : Nat)
    (rollouts : List (TetherRolloutStats Scalar))
    (scored : ∀ stats ∈ rollouts, Scored numBins stats) :
    (binStats index rollouts).moments.Realized := by
  induction rollouts with
  | nil => exact Moments.realized_zero
  | cons stats rollouts inductionHypothesis =>
    obtain ⟨here, later⟩ := List.forall_mem_cons.mp scored
    have first : (binOf index stats).moments.Realized := by
      by_cases inside : index < stats.bins.length
      · rw [binOf, List.getD_eq_getElem _ _ inside]
        exact here.realized _ (List.getElem_mem inside)
      · rw [binOf, List.getD_eq_default _ _ (Nat.not_lt.mp inside)]
        exact Moments.realized_zero
    rw [binStats, List.map_cons, List.sum_cons, TetherRegressionStats.moments_add]
    exact first.add (inductionHypothesis later)

/-- The bins of scored rollouts pass the check of a checkpoint. -/
theorem bin_consistent {numBins : Nat} (index : Nat) (rollouts : List (TetherRolloutStats Scalar))
    (scored : ∀ stats ∈ rollouts, Scored numBins stats) :
    inconsistentBin (binStats index rollouts, support index rollouts) = false := by
  obtain ⟨most, empty⟩ := support_le_weight index rollouts
  obtain ⟨rows, realized⟩ := bin_stats_realized index rollouts scored
  have sameZero : (binStats index rollouts).weight = 0 ↔ support index rollouts = 0 := by
    omega
  have enough : ¬(binStats index rollouts).weight < support index rollouts := Nat.not_lt.mpr most
  by_cases reached : support index rollouts = 0
  · have count := accumulated_weight realized
    rw [sameZero.mpr reached] at count
    have zeros : (binStats index rollouts).moments = 0 := by
      rw [realized, List.length_eq_zero_iff.mp count.symm]
      rfl
    have features : (binStats index rollouts).featureFeature = 0 := congrArg Moments.features zeros
    have products : (binStats index rollouts).featureTarget = 0 := congrArg Moments.products zeros
    have targets : (binStats index rollouts).targetTarget = 0 := congrArg Moments.targets zeros
    simp [inconsistentBin, sameZero, reached, features, products, targets]
  · simp [inconsistentBin, sameZero, reached, enough]

/-! ## Streams -/

/-- What a controller holds after the full windows of a stream and the rollouts behind them. -/
structure Windowed (config : AdaptiveTetherConfig Scalar) (batchSize numBins minBinRollouts : Nat)
    (stream : List (TetherRolloutStats Scalar))
    (controller : AdaptivePositionTetherCoefficients Scalar)
    (windows : List (List (TetherRolloutStats Scalar))) (rest : List (TetherRolloutStats Scalar)) :
    Prop where
  cut : Blocks.Cut batchSize stream windows rest
  short : rest.length < batchSize
  rho : controller.rho = (List.range numBins).map (fun index =>
    averageOf config (windows.map (binFit config minBinRollouts index)))
  binUpdates : controller.binUpdates = (List.range numBins).map (fun index =>
    windows.countP (fun window => (binFit config minBinRollouts index window).isSome))
  updates : controller.updates = windows.countP (fun window =>
    (List.range numBins).any (fun index => (binFit config minBinRollouts index window).isSome))
  skipped : controller.skippedUpdates = windows.countP (fun window =>
    ! (List.range numBins).any (fun index => (binFit config minBinRollouts index window).isSome))
  pendingRollouts : controller.pendingRollouts = rest.length
  pendingBins : controller.pendingBins = (List.range numBins).map (fun index => binStats index rest)
  pendingContributors : controller.pendingContributors =
    (List.range numBins).map (fun index => support index rest)

/-- A controller of this configuration that has seen this stream. -/
structure Seen (fresh : AdaptivePositionTetherCoefficients Scalar)
    (stream : List (TetherRolloutStats Scalar))
    (controller : AdaptivePositionTetherCoefficients Scalar) : Prop where
  same : SameConfig fresh controller
  bins : 2 ≤ fresh.numBins ∧ 1 ≤ fresh.binSize ∧ 1 ≤ fresh.minBinRollouts
  measured : controller.Measured
  scored : ∀ stats ∈ stream, Scored fresh.numBins stats
  windowed : ∃ windows rest, Windowed fresh.config fresh.batchSize fresh.numBins
    fresh.minBinRollouts stream controller windows rest

theorem create_seen {config : AdaptiveTetherConfig Scalar} {batchSize : Nat}
    {gamma gaeLambda : Scalar} {numBins binSize minBinRollouts : Nat}
    {fresh : AdaptivePositionTetherCoefficients Scalar}
    (created : create config batchSize gamma gaeLambda numBins binSize minBinRollouts =
      .ok fresh) : Seen fresh [] fresh := by
  rw [create] at created
  split_ifs at created with empty _ _ few support
  cases created
  have positive : 0 < batchSize := by omega
  have several : 2 ≤ numBins ∧ 1 ≤ binSize ∧ 1 ≤ minBinRollouts := by omega
  have constant {Item : Type} (item : Item) :
      List.replicate numBins item = (List.range numBins).map (fun _ => item) := by
    rw [List.map_const', List.length_range]
  refine ⟨⟨rfl, rfl, rfl, rfl, rfl, rfl, rfl⟩, several,
    ⟨List.length_replicate, List.length_replicate, le_rfl, le_rfl, le_rfl, le_rfl, le_rfl,
      zero_le_one⟩, fun stats impossible => absurd impossible List.not_mem_nil, [], [],
    ⟨Blocks.cut_nil batchSize, positive, ?_, ?_, rfl, rfl, rfl, ?_, ?_⟩⟩
  · exact constant config.initialRho
  · exact constant 0
  · exact constant 0
  · exact constant 0

omit [IsStrictOrderedRing Scalar] in
theorem create_config {config : AdaptiveTetherConfig Scalar} {batchSize : Nat}
    {gamma gaeLambda : Scalar} {numBins binSize minBinRollouts : Nat}
    {fresh : AdaptivePositionTetherCoefficients Scalar}
    (created : create config batchSize gamma gaeLambda numBins binSize minBinRollouts =
      .ok fresh) :
    fresh.config = config ∧ fresh.batchSize = batchSize ∧ fresh.numBins = numBins ∧
      fresh.minBinRollouts = minBinRollouts := by
  rw [create] at created
  split_ifs at created
  cases created
  exact ⟨rfl, rfl, rfl, rfl⟩

omit [Field Scalar] [LinearOrder Scalar] [IsStrictOrderedRing Scalar] in
theorem zip_range {First Second Result : Type} (change : First → Second → Result)
    (first : Nat → First) (second : Nat → Second) (count : Nat) :
    List.zipWith change ((List.range count).map first) ((List.range count).map second) =
      (List.range count).map (fun index => change (first index) (second index)) := by
  rw [List.zipWith_map, List.zipWith_self]

/-- Entry by entry, a rollout goes to the window. -/
theorem enqueue_bins (controller : AdaptivePositionTetherCoefficients Scalar)
    (stats : TetherRolloutStats Scalar) (numBins : Nat) (length : stats.bins.length = numBins)
    (rest : List (TetherRolloutStats Scalar))
    (bins : controller.pendingBins = (List.range numBins).map (fun index => binStats index rest))
    (contributors : controller.pendingContributors =
      (List.range numBins).map (fun index => support index rest)) :
    (controller.enqueue stats).pendingBins =
        (List.range numBins).map (fun index => binStats index (rest ++ [stats])) ∧
      (controller.enqueue stats).pendingContributors =
        (List.range numBins).map (fun index => support index (rest ++ [stats])) := by
  rw [enqueue]
  dsimp only
  rw [bins, contributors, bins_eq stats numBins length, zip_range, zip_range]
  constructor
  · exact List.map_congr_left (fun index _ => (bin_stats_snoc index rest stats).symm)
  · exact List.map_congr_left (fun index _ => (support_snoc index rest stats).symm)

/-- One rollout is accepted and goes behind the stream. -/
theorem observe_rollout_seen (fresh : AdaptivePositionTetherCoefficients Scalar)
    (stream : List (TetherRolloutStats Scalar))
    (controller : AdaptivePositionTetherCoefficients Scalar) (stats : TetherRolloutStats Scalar)
    (seen : Seen fresh stream controller) (isScored : Scored fresh.numBins stats) :
    ∃ next, controller.observeRollout stats = .ok next ∧ Seen fresh (stream ++ [stats]) next := by
  obtain ⟨⟨config, batchSize, gamma, gaeLambda, numBins, binSize, minBinRollouts⟩, several,
    measured, scored, windows, rest, windowed⟩ := seen
  have allScored : ∀ item ∈ stream ++ [stats], Scored fresh.numBins item :=
    List.forall_mem_append.mpr ⟨scored, List.forall_mem_singleton.mpr isScored⟩
  have sameBins : ¬stats.bins.length ≠ controller.numBins :=
    not_not_intro (isScored.length.trans numBins)
  obtain ⟨bins, contributors⟩ := enqueue_bins controller stats fresh.numBins isScored.length rest
    windowed.pendingBins windowed.pendingContributors
  have counted : controller.pendingRollouts + 1 = (rest ++ [stats]).length := by
    rw [windowed.pendingRollouts, List.length_append, List.length_singleton]
  have extended := windowed.cut.extend [stats]
  by_cases full : controller.pendingRollouts + 1 = controller.batchSize
  · have ranged {Item : Type} (item : Nat → Item) :
        ((List.range fresh.numBins).map item).length = controller.numBins := by
      rw [List.length_map, List.length_range, numBins]
    obtain ⟨fitted, updated, isFitted⟩ := update_fitted (controller.enqueue stats)
      (controller.enqueue stats).pendingBins (controller.enqueue stats).pendingContributors
      (windowed.rho ▸ ranged _) (windowed.binUpdates ▸ ranged _) (bins ▸ ranged _)
      (contributors ▸ ranged _)
    have fits : ((controller.enqueue stats).pendingBins.zip
        (controller.enqueue stats).pendingContributors).map
          (supportedFit (controller.enqueue stats).config (controller.enqueue stats).minBinRollouts) =
        (List.range fresh.numBins).map (fun index =>
          binFit fresh.config fresh.minBinRollouts index (rest ++ [stats])) := by
      rw [bins, contributors, List.zip_map', List.map_map, config, minBinRollouts]
      rfl
    rw [fits] at isFitted
    obtain ⟨⟨config', batchSize', gamma', gaeLambda', numBins', binSize', minBinRollouts'⟩, rho,
      binUpdates, updates, skipped, measures⟩ := isFitted
    have whole : (rest ++ [stats]).length = fresh.batchSize := by
      rw [← counted, full, batchSize]
    have sameConfig : (controller.enqueue stats).config = fresh.config := config.symm
    have rhoBefore : (controller.enqueue stats).rho = _ := windowed.rho
    have updatesBefore : (controller.enqueue stats).binUpdates = _ := windowed.binUpdates
    rw [List.any_map] at updates skipped
    rw [rhoBefore, sameConfig, zip_range] at rho
    rw [updatesBefore, zip_range] at binUpdates
    have constant {Item : Type} (item : Item) : List.replicate fitted.numBins item =
        (List.range fresh.numBins).map (fun _ => item) := by
      rw [List.map_const', List.length_range, numBins.trans numBins']
    refine ⟨{ fitted with
        pendingRollouts := 0
        pendingBins := List.replicate fitted.numBins 0
        pendingContributors := List.replicate fitted.numBins 0 }, ?_,
      ⟨config.trans config', batchSize.trans batchSize', gamma.trans gamma',
        gaeLambda.trans gaeLambda', numBins.trans numBins', binSize.trans binSize',
        minBinRollouts.trans minBinRollouts'⟩, several,
      ⟨measures.lastFitValid, measures.lastContributors, measures.mseGroup, measures.mseFit,
        measures.mseEma, measures.featurePower, measures.fitTokenFraction⟩, allScored,
      windows ++ [rest ++ [stats]], [], extended.close whole, Nat.zero_lt_of_lt windowed.short,
      ?_, ?_, ?_, ?_, rfl, constant 0, constant 0⟩
    · rw [observeRollout, if_neg sameBins]
      change (if controller.pendingRollouts + 1 = controller.batchSize then _ else _) = _
      rw [if_pos full, updated]
      rfl
    · refine rho.trans (List.map_congr_left (fun index _ => ?_))
      rw [List.map_append, List.map_singleton, averageOf, averageOf, List.foldl_append]
      rfl
    · refine binUpdates.trans (List.map_congr_left (fun index _ => ?_))
      rw [List.countP_append, List.countP_singleton]
    · rw [List.countP_append, List.countP_singleton, ← windowed.updates]
      exact updates
    · rw [List.countP_append, List.countP_singleton, ← windowed.skipped]
      have flipped (flag : Bool) : (if flag then 0 else 1) = if ! flag then 1 else 0 := by
        cases flag
        · rfl
        · rfl
      exact skipped.trans (congrArg (controller.skippedUpdates + ·) (flipped _))
  · refine ⟨controller.enqueue stats, ?_,
      ⟨config, batchSize, gamma, gaeLambda, numBins, binSize, minBinRollouts⟩, several,
      ⟨measured.lastFitValid, measured.lastContributors, measured.mseGroup, measured.mseFit,
        measured.mseEma, measured.featurePower, measured.fitTokenFraction⟩, allScored, windows,
      rest ++ [stats], extended, ?_, windowed.rho, windowed.binUpdates, windowed.updates,
      windowed.skipped, counted, bins, contributors⟩
    · rw [observeRollout, if_neg sameBins]
      exact if_neg full
    · have short := windowed.short
      rw [windowed.pendingRollouts, ← batchSize] at full
      rw [List.length_append, List.length_singleton]
      omega

/-- Everything that a checkpoint of the controller is checked for holds. -/
theorem Seen.sound {fresh controller : AdaptivePositionTetherCoefficients Scalar}
    {stream : List (TetherRolloutStats Scalar)} (seen : Seen fresh stream controller) :
    controller.Sound := by
  obtain ⟨⟨_, batchSize, _, _, numBins, binSize, minBinRollouts⟩, ⟨several, wide, supported⟩,
    measured, scored, windows, rest, windowed⟩ := seen
  have among : ∀ stats ∈ rest, Scored fresh.numBins stats := by
    intro stats member
    apply scored
    rw [windowed.cut.assembled]
    exact List.mem_append_right _ member
  have ranged {Item : Type} (item : Nat → Item) :
      ((List.range fresh.numBins).map item).length = controller.numBins := by
    rw [List.length_map, List.length_range, numBins]
  refine ⟨numBins ▸ several, binSize ▸ wide, minBinRollouts ▸ supported, ?_, ?_, ?_, ?_,
    measured.lastFitValid, measured.lastContributors, ?_, ?_, ?_, measured.mseGroup,
    measured.mseFit, measured.mseEma, measured.featurePower, measured.fitTokenFraction⟩
  · rw [windowed.rho]
    exact ranged _
  · rw [windowed.pendingBins]
    exact ranged _
  · rw [windowed.pendingContributors]
    exact ranged _
  · rw [windowed.binUpdates]
    exact ranged _
  · rw [windowed.pendingRollouts, ← batchSize]
    exact windowed.short
  · rw [windowed.pendingContributors, windowed.pendingRollouts]
    intro count listed
    obtain ⟨index, _, rfl⟩ := List.mem_map.mp listed
    exact List.countP_le_length
  · rw [windowed.pendingBins, windowed.pendingContributors, List.zip_map']
    intro item listed
    obtain ⟨index, _, rfl⟩ := List.mem_map.mp listed
    exact bin_consistent index rest among

end AdaptivePositionTetherCoefficients

/-! ## Both controllers -/

theorem AdaptivePositionTetherCoefficients.Windowed.counts {config : AdaptiveTetherConfig Scalar}
    {batchSize numBins minBinRollouts : Nat} {stream rest : List (TetherRolloutStats Scalar)}
    {controller : AdaptivePositionTetherCoefficients Scalar}
    {windows : List (List (TetherRolloutStats Scalar))}
    (windowed : Windowed config batchSize numBins minBinRollouts stream controller windows rest) :
    WindowCounts batchSize stream.length controller.updates controller.skippedUpdates
      controller.pendingRollouts windows.length := by
  obtain ⟨full, behind⟩ := windowed.cut.counts windowed.short
  refine ⟨full, ?_, windowed.pendingRollouts.trans behind⟩
  rw [windowed.updates, windowed.skipped, List.length_eq_countP_add_countP (fun window =>
    (List.range numBins).any (fun index => (binFit config minBinRollouts index window).isSome))]
  congr 1
  apply List.countP_congr
  intro window _
  rw [Bool.not_eq_true', decide_eq_true_eq, Bool.not_eq_true]

/-- Adaptive controllers depend on the stream of rollouts alone. Whatever groups it is cut into and
wherever the controller is replaced by a fresh one that reads its checkpoint, every checkpoint is
accepted and the end is that of the stream as one group: the full windows of the stream are
fitted, each coefficient is averaged over the fits, and the rest of the stream is pending. -/
theorem adaptive_controllers_follow_stream (config : AdaptiveTetherConfig Scalar) (batchSize : Nat)
    (gamma gaeLambda : Scalar) :
    (∀ fresh, AdaptiveTetherCoefficient.create config batchSize gamma gaeLambda = .ok fresh →
      ∀ events, ∃ final windows rest,
        follow AdaptiveTetherCoefficient.observeGroup
            (fun controller => fresh.loadStateDict controller.stateDict) fresh events = .ok final ∧
          fresh.observeGroup (streamOf events) = (final, none) ∧
          AdaptiveTetherCoefficient.Windowed config batchSize (streamOf events) final windows rest ∧
          WindowCounts batchSize (streamOf events).length final.updates final.skippedUpdates
            final.pendingRollouts windows.length) ∧
      ∀ numBins binSize minBinRollouts fresh,
        AdaptivePositionTetherCoefficients.create config batchSize gamma gaeLambda numBins binSize
          minBinRollouts = .ok fresh →
        ∀ events, (∀ stats ∈ streamOf events,
            AdaptivePositionTetherCoefficients.Scored numBins stats) →
          ∃ final windows rest,
            follow AdaptivePositionTetherCoefficients.observeGroup
                (fun controller => fresh.loadStateDict controller.stateDict) fresh events =
                  .ok final ∧
              fresh.observeGroup (streamOf events) = (final, none) ∧
              AdaptivePositionTetherCoefficients.Windowed config batchSize numBins minBinRollouts
                (streamOf events) final windows rest ∧
              WindowCounts batchSize (streamOf events).length final.updates final.skippedUpdates
                final.pendingRollouts windows.length := by
  constructor
  · intro fresh created events
    have seen := AdaptiveTetherCoefficient.create_seen created
    obtain ⟨rfl, rfl⟩ := AdaptiveTetherCoefficient.create_config created
    obtain ⟨final, followed, observed, -, -, windows, rest, windowed⟩ := follow_holds
      (fun stream controller stats seen (_ : True) =>
        AdaptiveTetherCoefficient.observe_rollout_seen fresh stream controller stats seen)
      (fun stream controller seen =>
        AdaptiveTetherCoefficient.load_state_dict_eq fresh controller seen.same seen.sound)
      events (fun _ _ => trivial) [] fresh seen
    exact ⟨final, windows, rest, followed, observed, windowed, windowed.counts⟩
  · intro numBins binSize minBinRollouts fresh created events scored
    have seen := AdaptivePositionTetherCoefficients.create_seen created
    obtain ⟨rfl, rfl, rfl, rfl⟩ := AdaptivePositionTetherCoefficients.create_config created
    obtain ⟨final, followed, observed, -, -, -, -, windows, rest, windowed⟩ := follow_holds
      (fun stream controller stats seen isScored =>
        AdaptivePositionTetherCoefficients.observe_rollout_seen fresh stream controller stats seen
          isScored)
      (fun stream controller seen =>
        AdaptivePositionTetherCoefficients.load_state_dict_eq fresh controller seen.same seen.sound)
      events scored [] fresh seen
    exact ⟨final, windows, rest, followed, observed, windowed, windowed.counts⟩

/-- Averages that follow each fit. -/
def steadyConfig : AdaptiveTetherConfig Rat :=
  { initialRho := 0
    position := none
    ridge := 1
    emaDecay := 0
    ridgeNonneg := zero_le_one
    emaDecayRange := ⟨le_rfl, zero_lt_one⟩ }

/-- A rollout with one row, in the first of two bins. -/
def earlyRollout : TetherRolloutStats Rat := ⟨[TetherRegressionStats.ofRows [(1, 1)], 0], le_rfl⟩

/-- Windows of two rollouts, with a replacement inside the first one. -/
theorem adaptive_controllers_follow_three_rollouts :
    (∃ fresh final, AdaptiveTetherCoefficient.create steadyConfig 2 1 1 = .ok fresh ∧
      follow AdaptiveTetherCoefficient.observeGroup
          (fun controller => fresh.loadStateDict controller.stateDict) fresh
          [.observe [TetherRegressionStats.ofRows [(1, 1)]], .replace, .observe [0, 0]] =
        .ok final ∧ final.pendingRollouts = 1) ∧
      ∃ fresh final,
        AdaptivePositionTetherCoefficients.create steadyConfig 2 1 1 2 1 1 = .ok fresh ∧
        follow AdaptivePositionTetherCoefficients.observeGroup
            (fun controller => fresh.loadStateDict controller.stateDict) fresh
            [.observe [earlyRollout], .replace, .observe [earlyRollout, earlyRollout]] =
          .ok final ∧ final.pendingRollouts = 1 := by
  obtain ⟨single, positioned⟩ := adaptive_controllers_follow_stream steadyConfig 2 1 1
  constructor
  · obtain ⟨final, _, _, followed, _, _, counts⟩ := single _ rfl
      [.observe [TetherRegressionStats.ofRows [(1, 1)]], .replace, .observe [0, 0]]
    exact ⟨_, final, rfl, followed, counts.pending⟩
  · have isScored : AdaptivePositionTetherCoefficients.Scored 2 earlyRollout := by
      refine ⟨rfl, ?_⟩
      intro item listed
      rcases List.mem_cons.mp listed with rfl | later
      · exact ⟨_, of_rows_accumulated [(1, 1)]⟩
      · rw [List.mem_singleton] at later
        subst later
        exact ⟨[], rfl⟩
    have scored : ∀ stats ∈ streamOf
        [.observe [earlyRollout], .replace, .observe [earlyRollout, earlyRollout]],
        AdaptivePositionTetherCoefficients.Scored 2 stats := by
      intro stats listed
      have same : stats = earlyRollout := by
        simpa [streamOf] using listed
      exact same ▸ isScored
    obtain ⟨final, _, _, followed, _, _, counts⟩ := positioned 2 1 1 _ rfl
      [.observe [earlyRollout], .replace, .observe [earlyRollout, earlyRollout]] scored
    exact ⟨_, final, rfl, followed, counts.pending⟩

end PrimeRl.Orchestrator.Tether
