import PrimeRl.Orchestrator.Tether
import PrimeRl.Support.Fallible

/-!
# Bounds on adaptive coefficients

A fit over accumulated rows exists exactly when some row has a feature. Its square
is bounded by the ridge, because the ridge is relative to the larger of the two
powers, and its residual is never above that of the anchor alone. Averaging keeps
the bound, so both controllers keep it over every sequence of windows.
-/

namespace PrimeRl.Orchestrator.Tether

open Regression

universe u v
variable {Scalar : Type u} [Field Scalar] [LinearOrder Scalar] [IsStrictOrderedRing Scalar]

/-! ## One fit -/

/-- The weight cancels: without features there is no fit, and otherwise the fit is
that of the moments. -/
theorem fit_tether_cases (stats : TetherRegressionStats Scalar) (ridge : Scalar)
    (weighed : stats.weight ≠ 0) (ridgeNonneg : 0 ≤ ridge) :
    (stats.featureFeature = 0 ∧ fitTether stats ridge = .ok none) ∨
      (0 < stats.featureFeature ∧ fitTether stats ridge = .ok (some (stats.featureTarget /
        (stats.featureFeature + ridge * max stats.featureFeature stats.targetTarget)))) := by
  have weightPositive : (0 : Scalar) < stats.weight := Nat.cast_pos.mpr (Nat.pos_of_ne_zero weighed)
  have inversePositive : 0 < 1 / (stats.weight : Scalar) := one_div_pos.mpr weightPositive
  have enough : ¬stats.weight < 1 := by omega
  rw [fitTether, if_neg enough]
  dsimp only
  rcases stats.featuresNonneg.eq_or_lt with absent | present
  · refine Or.inl ⟨absent.symm, if_pos (Or.inl ?_)⟩
    rw [← absent, zero_mul]
  · refine Or.inr ⟨present, ?_⟩
    rw [← max_mul_of_nonneg _ _ inversePositive.le, ← mul_assoc, ← add_mul]
    have larger : 0 < max stats.featureFeature stats.targetTarget := lt_max_of_lt_left present
    have denominator : 0 < stats.featureFeature +
        ridge * max stats.featureFeature stats.targetTarget :=
      add_pos_of_pos_of_nonneg present (mul_nonneg ridgeNonneg larger.le)
    have accepted : ¬(stats.featureFeature * (1 / (stats.weight : Scalar)) ≤ 0 ∨
        max stats.featureFeature stats.targetTarget * (1 / (stats.weight : Scalar)) ≤ 0 ∨
        (stats.featureFeature + ridge * max stats.featureFeature stats.targetTarget) *
          (1 / (stats.weight : Scalar)) ≤ 0) := by
      rintro (impossible | impossible | impossible)
      · exact absurd impossible (not_le.mpr (mul_pos present inversePositive))
      · exact absurd impossible (not_le.mpr (mul_pos larger inversePositive))
      · exact absurd impossible (not_le.mpr (mul_pos denominator inversePositive))
    rw [if_neg accepted, mul_div_mul_right _ _ inversePositive.ne']

omit [IsStrictOrderedRing Scalar] in
/-- Without rows the fit is refused. -/
theorem fit_tether_unweighed (stats : TetherRegressionStats Scalar) (ridge : Scalar)
    (unweighed : stats.weight = 0) :
    fitTether stats ridge = .error "adaptive TETHER fit needs at least one row" := by
  rw [fitTether, if_pos]
  rw [unweighed]
  exact Nat.zero_lt_one

omit [IsStrictOrderedRing Scalar] in
theorem accumulated_weight {stats : TetherRegressionStats Scalar} {rows : List (Scalar × Scalar)}
    (accumulated : stats.Accumulated rows) : stats.weight = rows.length := by
  rw [← Moments.of_rows_count rows, ← accumulated]
  rfl

/-- Over some rows the fit is missing exactly when all features are zero. -/
theorem fit_tether_missing_iff {stats : TetherRegressionStats Scalar}
    {rows : List (Scalar × Scalar)} (accumulated : stats.Accumulated rows) (ridge : Scalar)
    (ridgeNonneg : 0 ≤ ridge) (filled : rows ≠ []) :
    ∃ fitted, fitTether stats ridge = .ok fitted ∧ (fitted = none ↔ ∀ row ∈ rows, row.1 = 0) := by
  have weighed : stats.weight ≠ 0 := by
    rw [accumulated_weight accumulated]
    exact mt List.length_eq_zero_iff.mp filled
  have powers : stats.featureFeature = 0 ↔ ∀ row ∈ rows, row.1 = 0 := by
    rw [← Moments.features_eq_zero_iff rows, ← accumulated]
    rfl
  rcases fit_tether_cases stats ridge weighed ridgeNonneg with ⟨absent, missing⟩ | ⟨present, fitted⟩
  · exact ⟨none, missing, iff_of_true rfl (powers.mp absent)⟩
  · exact ⟨_, fitted, iff_of_false nofun (mt powers.mpr present.ne')⟩

omit [IsStrictOrderedRing Scalar] in
theorem residual_sum_eq (stats : TetherRegressionStats Scalar) (rho : Scalar) :
    residualSum stats rho = max (stats.moments.residual rho) 0 := by
  rw [residualSum, Moments.residual_eq]
  rfl

/-- A fit over accumulated rows is bounded by the ridge and improves on the anchor
alone. -/
theorem fit_tether_bounded {stats : TetherRegressionStats Scalar} {rows : List (Scalar × Scalar)}
    (accumulated : stats.Accumulated rows) (ridge rho : Scalar) (penalized : 0 < ridge)
    (fitted : fitTether stats ridge = .ok (some rho)) :
    4 * ridge * rho ^ 2 ≤ 1 ∧ residualSum stats rho ≤ residualSum stats 0 := by
  have weighed : stats.weight ≠ 0 := by
    intro unweighed
    rw [fit_tether_unweighed stats ridge unweighed] at fitted
    cases fitted
  rcases fit_tether_cases stats ridge weighed penalized.le with ⟨_, missing⟩ | ⟨present, found⟩
  · rw [missing] at fitted
    cases fitted
  · rw [found] at fitted
    cases fitted
    have cauchy : stats.featureTarget ^ 2 ≤ stats.featureFeature * stats.targetTarget := by
      have bounded := Moments.products_bounded rows
      rwa [← accumulated] at bounded
    have larger : 0 < max stats.featureFeature stats.targetTarget := lt_max_of_lt_left present
    refine ⟨relative_ridge_bounded _ _ _ ridge present penalized cauchy, ?_⟩
    rw [residual_sum_eq, residual_sum_eq]
    apply max_le_max_right
    exact penalized_fit_improves stats.moments _ present
      (le_add_of_nonneg_right (mul_nonneg penalized.le larger.le))

/-- Rows added one by one freeze to their statistics. -/
theorem accumulator_freezes (rows : List (Scalar × Scalar)) :
    ∃ stats, (rows.foldl (fun accumulator row => accumulator.addRow row.1 row.2)
        StatsAccumulator.empty).freeze = .ok stats ∧ stats.Accumulated rows := by
  apply StatsAccumulator.freeze_of_rows
  have added (accumulator : StatsAccumulator Scalar) :
      (rows.foldl (fun accumulator row => accumulator.addRow row.1 row.2) accumulator).moments =
        accumulator.moments + Moments.ofRows rows := by
    induction rows generalizing accumulator with
    | nil => exact (add_zero accumulator.moments).symm
    | cons row rows inductionHypothesis =>
      rw [List.foldl_cons, inductionHypothesis, StatsAccumulator.moments_add_row,
        Moments.of_rows_cons, add_assoc]
  rw [added StatsAccumulator.empty]
  exact zero_add (Moments.ofRows rows)

/-! ## Windows -/

/-- The bound that the ridge and the initial coefficient set. -/
def coefficientBound (config : AdaptiveTetherConfig Scalar) : Scalar :=
  max 1 (4 * config.ridge * config.initialRho ^ 2)

/-- A coefficient within the bound. -/
def Within (config : AdaptiveTetherConfig Scalar) (rho : Scalar) : Prop :=
  4 * config.ridge * rho ^ 2 ≤ coefficientBound config

omit [IsStrictOrderedRing Scalar] in
theorem initial_within (config : AdaptiveTetherConfig Scalar) : Within config config.initialRho :=
  le_max_right _ _

theorem fit_within {stats : TetherRegressionStats Scalar} (realized : stats.moments.Realized)
    (config : AdaptiveTetherConfig Scalar) (penalized : 0 < config.ridge) {rho : Scalar}
    (fitted : fitTether stats config.ridge = .ok (some rho)) : Within config rho := by
  obtain ⟨rows, accumulated⟩ := realized
  exact (fit_tether_bounded accumulated config.ridge rho penalized fitted).1.trans (le_max_left _ _)

theorem average_within (config : AdaptiveTetherConfig Scalar) {previous fitted : Scalar}
    (isPrevious : Within config previous) (isFitted : Within config fitted) :
    Within config (config.emaDecay * previous + (1 - config.emaDecay) * fitted) :=
  moving_average_bounded config.emaDecay _ _ previous fitted config.emaDecayRange.1
    config.emaDecayRange.2.le (mul_nonneg zero_le_four config.ridgeNonneg) isPrevious isFitted

/-- What every accepted rollout keeps is kept by a group, accepted or not. -/
theorem observe_each_keeps {Controller : Type u} {Stats : Type v}
    (observe : Controller → Stats → Except String Controller) (Kept : Controller → Prop)
    (Valid : Stats → Prop)
    (keeps : ∀ controller stats next, Kept controller → Valid stats →
      observe controller stats = .ok next → Kept next)
    (group : List Stats) (valid : ∀ stats ∈ group, Valid stats) (controller : Controller)
    (kept : Kept controller) : Kept (observeEach observe controller group).1 := by
  induction group generalizing controller with
  | nil => exact kept
  | cons stats rest inductionHypothesis =>
    obtain ⟨here, later⟩ := List.forall_mem_cons.mp valid
    rw [observeEach]
    cases observed : observe controller stats with
    | error message => exact kept
    | ok next => exact inductionHypothesis later next (keeps controller stats next kept here observed)

/-- The same over a sequence of groups. -/
theorem observe_groups_keep {Controller : Type u} {Stats : Type v}
    (observe : Controller → Stats → Except String Controller) (Kept : Controller → Prop)
    (Valid : Stats → Prop)
    (keeps : ∀ controller stats next, Kept controller → Valid stats →
      observe controller stats = .ok next → Kept next)
    (groups : List (List Stats)) (valid : ∀ group ∈ groups, ∀ stats ∈ group, Valid stats)
    (controller : Controller) (kept : Kept controller) :
    Kept (groups.foldl (fun controller group => (observeEach observe controller group).1)
      controller) := by
  induction groups generalizing controller with
  | nil => exact kept
  | cons group rest inductionHypothesis =>
    obtain ⟨here, later⟩ := List.forall_mem_cons.mp valid
    exact inductionHypothesis later _
      (observe_each_keeps observe Kept Valid keeps group here controller kept)

/-! ## One coefficient -/

/-- What windows of accumulated rows keep. -/
structure AdaptiveTetherCoefficient.Bounded (config : AdaptiveTetherConfig Scalar)
    (controller : AdaptiveTetherCoefficient Scalar) : Prop where
  configured : controller.config = config
  pending : controller.pending.moments.Realized
  rho : Within config controller.rho
  lastFitRho : Within config controller.lastFitRho

namespace AdaptiveTetherCoefficient

omit [IsStrictOrderedRing Scalar] in
theorem create_bounded {config : AdaptiveTetherConfig Scalar} {batchSize : Nat}
    {gamma gaeLambda : Scalar} {controller : AdaptiveTetherCoefficient Scalar}
    (created : create config batchSize gamma gaeLambda = .ok controller) :
    controller.Bounded config := by
  rw [create] at created
  split_ifs at created
  cases created
  exact ⟨rfl, Moments.realized_zero, initial_within config, initial_within config⟩

/-- A fit or a skip keeps the bounds. -/
theorem update_bounded {config : AdaptiveTetherConfig Scalar} (penalized : 0 < config.ridge)
    {controller next : AdaptiveTetherCoefficient Scalar} {stats : TetherRegressionStats Scalar}
    (bounded : controller.Bounded config) (realized : stats.moments.Realized)
    (updated : controller.update stats = .ok next) :
    next.Bounded config := by
  rw [update] at updated
  dsimp only at updated
  by_cases unweighed : stats.weight = 0
  · rw [if_pos unweighed] at updated
    cases updated
    exact ⟨bounded.configured, bounded.pending, bounded.rho, bounded.rho⟩
  · rw [if_neg unweighed] at updated
    cases fitted : fitTether stats controller.config.ridge with
    | error message =>
      rw [fitted] at updated
      cases updated
    | ok fit =>
      rw [fitted] at updated
      cases fit with
      | none =>
        cases updated
        exact ⟨bounded.configured, bounded.pending, bounded.rho, bounded.rho⟩
      | some fitRho =>
        cases updated
        rw [bounded.configured] at fitted
        have within := fit_within realized config penalized fitted
        have averaged := average_within config bounded.rho within
        rw [← bounded.configured] at averaged
        exact ⟨bounded.configured, bounded.pending, bounded.configured ▸ averaged, within⟩

/-- One scored rollout keeps the bounds. -/
theorem observe_rollout_bounded {config : AdaptiveTetherConfig Scalar} (penalized : 0 < config.ridge)
    (controller : AdaptiveTetherCoefficient Scalar) (stats : TetherRegressionStats Scalar)
    (next : AdaptiveTetherCoefficient Scalar) (bounded : controller.Bounded config)
    (realized : stats.moments.Realized) (observed : controller.observeRollout stats = .ok next) :
    next.Bounded config := by
  have queued : (controller.enqueue stats).Bounded config :=
    ⟨bounded.configured, bounded.pending.add realized, bounded.rho, bounded.lastFitRho⟩
  rw [observeRollout] at observed
  split_ifs at observed
  · obtain ⟨fitted, updated, rfl⟩ := Fallible.map_ok observed
    have kept := update_bounded penalized queued queued.pending updated
    exact ⟨kept.configured, Moments.realized_zero, kept.rho, kept.lastFitRho⟩
  · cases observed
    exact queued

end AdaptiveTetherCoefficient

/-! ## One coefficient for each bin -/

/-- What windows of accumulated rows keep. -/
structure AdaptivePositionTetherCoefficients.Bounded (config : AdaptiveTetherConfig Scalar)
    (controller : AdaptivePositionTetherCoefficients Scalar) : Prop where
  configured : controller.config = config
  pending : ∀ stats ∈ controller.pendingBins, stats.moments.Realized
  rho : ∀ rho ∈ controller.rho, Within config rho

/-- The fit of a bin keeps the bounds of all bins. -/
theorem fit_bin_within {config : AdaptiveTetherConfig Scalar} (penalized : 0 < config.ridge)
    {minBinRollouts : Nat} {fits next : BinFits Scalar}
    {item : (TetherRegressionStats Scalar × Nat) × Nat} (realized : item.1.1.moments.Realized)
    (within : ∀ rho ∈ fits.rho, Within config rho)
    (fitted : fitBin config minBinRollouts fits item = .ok next) :
    ∀ rho ∈ next.rho, Within config rho := by
  obtain ⟨⟨binStats, support⟩, index⟩ := item
  rw [fitBin] at fitted
  split_ifs at fitted
  · cases fitted
    exact within
  · cases found : fitTether binStats config.ridge with
    | error message =>
      rw [found] at fitted
      cases fitted
    | ok fit =>
      rw [found] at fitted
      cases fit with
      | none =>
        cases fitted
        exact within
      | some fitRho =>
        cases fitted
        intro rho member
        obtain ⟨place, isRho⟩ := List.getElem?_of_mem member
        rw [List.getElem?_modify] at isRho
        cases before : fits.rho[place]? with
        | none =>
          rw [before] at isRho
          cases isRho
        | some previous =>
          rw [before] at isRho
          have isPrevious := within previous (List.mem_of_getElem? before)
          by_cases here : index = place
          · simp only [here, if_true, Option.map_eq_map, Option.map_some, Option.some.injEq] at isRho
            rw [← isRho]
            exact average_within config isPrevious (fit_within realized config penalized found)
          · simp only [here, if_false, Option.map_eq_map, Option.map_some,
              Option.some.injEq] at isRho
            rw [← isRho]
            exact isPrevious

/-- The loop over the bins keeps the bounds. -/
theorem fit_bins_within {config : AdaptiveTetherConfig Scalar} (penalized : 0 < config.ridge)
    (minBinRollouts : Nat) (items : List ((TetherRegressionStats Scalar × Nat) × Nat))
    (realized : ∀ item ∈ items, item.1.1.moments.Realized) (fits next : BinFits Scalar)
    (within : ∀ rho ∈ fits.rho, Within config rho)
    (fitted : items.foldlM (fitBin config minBinRollouts) fits = .ok next) :
    ∀ rho ∈ next.rho, Within config rho := by
  induction items generalizing fits with
  | nil =>
    cases fitted
    exact within
  | cons item rest inductionHypothesis =>
    obtain ⟨here, later⟩ := List.forall_mem_cons.mp realized
    rw [List.foldlM_cons] at fitted
    cases first : fitBin config minBinRollouts fits item with
    | error message =>
      rw [first] at fitted
      cases fitted
    | ok middle =>
      rw [first] at fitted
      exact inductionHypothesis later middle (fit_bin_within penalized here within first) fitted

namespace AdaptivePositionTetherCoefficients

omit [IsStrictOrderedRing Scalar] in
theorem create_bounded {config : AdaptiveTetherConfig Scalar} {batchSize : Nat}
    {gamma gaeLambda : Scalar} {numBins binSize minBinRollouts : Nat}
    {controller : AdaptivePositionTetherCoefficients Scalar}
    (created : create config batchSize gamma gaeLambda numBins binSize minBinRollouts =
      .ok controller) : controller.Bounded config := by
  rw [create] at created
  split_ifs at created
  cases created
  refine ⟨rfl, ?_, ?_⟩
  · intro stats member
    rw [List.eq_of_mem_replicate member]
    exact Moments.realized_zero
  · intro rho member
    rw [List.eq_of_mem_replicate member]
    exact initial_within config

/-- The fits of a window keep the bounds. -/
theorem update_bounded {config : AdaptiveTetherConfig Scalar} (penalized : 0 < config.ridge)
    {controller next : AdaptivePositionTetherCoefficients Scalar}
    {stats : List (TetherRegressionStats Scalar)} {contributors : List Nat}
    (bounded : controller.Bounded config) (realized : ∀ item ∈ stats, item.moments.Realized)
    (updated : controller.update stats contributors = .ok next) :
    next.config = config ∧ ∀ rho ∈ next.rho, Within config rho := by
  rw [update] at updated
  dsimp only at updated
  by_cases unweighed : (stats.map TetherRegressionStats.weight).sum = 0
  · rw [if_pos unweighed] at updated
    cases updated
    exact ⟨bounded.configured, bounded.rho⟩
  rw [if_neg unweighed] at updated
  by_cases mismatched : stats.length ≠ contributors.length
  · rw [if_pos mismatched] at updated
    cases updated
  rw [if_neg mismatched] at updated
  split at updated
  · cases updated
  · next fits fitted =>
    by_cases shortened : stats.length ≠ fits.rho.length
    · rw [if_pos shortened] at updated
      cases updated
    · rw [if_neg shortened] at updated
      cases updated
      refine ⟨bounded.configured, ?_⟩
      rw [bounded.configured] at fitted
      apply fit_bins_within penalized _ _ _ _ _ bounded.rho fitted
      intro item member
      have inside : item.1 ∈ stats.zip contributors := by
        obtain ⟨place, listed⟩ := List.getElem?_of_mem member
        rw [List.getElem?_zipIdx] at listed
        obtain ⟨entry, isEntry, rfl⟩ := Option.map_eq_some_iff.mp listed
        exact List.mem_of_getElem? isEntry
      exact realized item.1.1 (List.of_mem_zip inside).1

/-- One scored rollout keeps the bounds. -/
theorem observe_rollout_bounded {config : AdaptiveTetherConfig Scalar} (penalized : 0 < config.ridge)
    (controller : AdaptivePositionTetherCoefficients Scalar) (stats : TetherRolloutStats Scalar)
    (next : AdaptivePositionTetherCoefficients Scalar) (bounded : controller.Bounded config)
    (realized : ∀ binStats ∈ stats.bins, binStats.moments.Realized)
    (observed : controller.observeRollout stats = .ok next) :
    next.Bounded config := by
  have queued : (controller.enqueue stats).Bounded config := by
    refine ⟨bounded.configured, ?_, bounded.rho⟩
    intro item member
    obtain ⟨place, listed⟩ := List.getElem?_of_mem member
    obtain ⟨before, added, isBefore, isAdded, rfl⟩ := List.getElem?_zipWith_eq_some.mp listed
    exact (bounded.pending before (List.mem_of_getElem? isBefore)).add
      (realized added (List.mem_of_getElem? isAdded))
  rw [observeRollout] at observed
  dsimp only at observed
  split_ifs at observed
  · obtain ⟨fitted, updated, rfl⟩ := Fallible.map_ok observed
    obtain ⟨configured, within⟩ :=
      update_bounded penalized queued queued.pending updated
    refine ⟨configured, ?_, within⟩
    intro item member
    rw [List.eq_of_mem_replicate member]
    exact Moments.realized_zero
  · cases observed
    exact queued

end AdaptivePositionTetherCoefficients

/-! ## Bounded coefficients -/

/-- A fit without rows is refused, so it is not missing although no row has a
feature. -/
theorem fit_refused_without_rows :
    ¬∀ (stats : TetherRegressionStats Rat) (rows : List (Rat × Rat)) (ridge : Rat), 0 < ridge →
      stats.Accumulated rows →
      (fitTether stats ridge = .ok none ↔ ∀ row ∈ rows, row.1 = 0) := by
  intro always
  have missing := (always 0 [] 1 one_pos rfl).mpr (fun row member => nomatch member)
  rw [fit_tether_unweighed 0 1 rfl] at missing
  cases missing

/-- The bounds of a ridge: rows accumulate in any number of parts; a fit over rows
is missing exactly when no row has a feature, and otherwise its square is bounded
and its residual at most that of the anchor alone; and after every sequence of
groups the coefficients of both controllers are within the bound of the ridge and
the initial value. -/
structure FitsBounded (ridge : Scalar) : Prop where
  freezes : ∀ rows : List (Scalar × Scalar), ∃ stats : TetherRegressionStats Scalar,
    (rows.foldl (fun accumulator row => accumulator.addRow row.1 row.2)
      StatsAccumulator.empty).freeze = .ok stats ∧ stats.Accumulated rows
  adds : ∀ (stats other : TetherRegressionStats Scalar) (rows others : List (Scalar × Scalar)),
    stats.Accumulated rows → other.Accumulated others →
      (stats + other).Accumulated (rows ++ others)
  bounded : ∀ (stats : TetherRegressionStats Scalar) (rows : List (Scalar × Scalar)) (rho : Scalar),
    stats.Accumulated rows → fitTether stats ridge = .ok (some rho) →
      4 * ridge * rho ^ 2 ≤ 1 ∧ residualSum stats rho ≤ residualSum stats 0
  missing : ∀ (stats : TetherRegressionStats Scalar) (rows : List (Scalar × Scalar)),
    stats.Accumulated rows → rows ≠ [] → ∃ fitted, fitTether stats ridge = .ok fitted ∧
      (fitted = none ↔ ∀ row ∈ rows, row.1 = 0)
  refused : ∀ stats : TetherRegressionStats Scalar, stats.Accumulated [] →
    fitTether stats ridge = .error "adaptive TETHER fit needs at least one row"
  coefficient : ∀ (config : AdaptiveTetherConfig Scalar) (batchSize : Nat) (gamma gaeLambda : Scalar)
    (controller : AdaptiveTetherCoefficient Scalar)
    (groups : List (List (TetherRegressionStats Scalar))), config.ridge = ridge →
    AdaptiveTetherCoefficient.create config batchSize gamma gaeLambda = .ok controller →
    (∀ group ∈ groups, ∀ stats ∈ group, ∃ rows, stats.Accumulated rows) →
    4 * ridge * (groups.foldl (fun controller group => (controller.observeGroup group).1)
      controller).rho ^ 2 ≤ max 1 (4 * ridge * config.initialRho ^ 2)
  coefficients : ∀ (config : AdaptiveTetherConfig Scalar) (batchSize : Nat)
    (gamma gaeLambda : Scalar) (numBins binSize minBinRollouts : Nat)
    (controller : AdaptivePositionTetherCoefficients Scalar)
    (groups : List (List (TetherRolloutStats Scalar))), config.ridge = ridge →
    AdaptivePositionTetherCoefficients.create config batchSize gamma gaeLambda numBins binSize
      minBinRollouts = .ok controller →
    (∀ group ∈ groups, ∀ stats ∈ group, ∀ binStats ∈ stats.bins,
      ∃ rows, binStats.Accumulated rows) →
    ∀ rho ∈ (groups.foldl (fun controller group => (controller.observeGroup group).1)
      controller).rho, 4 * ridge * rho ^ 2 ≤ max 1 (4 * ridge * config.initialRho ^ 2)

/-- Every positive ridge bounds the coefficients, whatever rows were scored. -/
theorem adaptive_coefficients_bounded (ridge : Scalar) (penalized : 0 < ridge) :
    FitsBounded ridge := by
  constructor
  case freezes => exact accumulator_freezes
  case adds =>
    intro stats other rows others isStats isOther
    rw [TetherRegressionStats.Accumulated, TetherRegressionStats.moments_add, isStats, isOther,
      Moments.of_rows_append]
  case bounded =>
    intro stats rows rho accumulated
    exact fit_tether_bounded accumulated ridge rho penalized
  case missing =>
    intro stats rows accumulated
    exact fit_tether_missing_iff accumulated ridge penalized.le
  case refused =>
    intro stats accumulated
    exact fit_tether_unweighed stats ridge (accumulated_weight accumulated)
  case coefficient =>
    rintro config batchSize gamma gaeLambda controller groups rfl created accumulated
    exact (observe_groups_keep AdaptiveTetherCoefficient.observeRollout
      (AdaptiveTetherCoefficient.Bounded config) (fun stats => stats.moments.Realized)
      (AdaptiveTetherCoefficient.observe_rollout_bounded penalized) groups accumulated controller
      (AdaptiveTetherCoefficient.create_bounded created)).rho
  case coefficients =>
    rintro config batchSize gamma gaeLambda numBins binSize minBinRollouts controller groups rfl
      created accumulated
    exact (observe_groups_keep AdaptivePositionTetherCoefficients.observeRollout
      (AdaptivePositionTetherCoefficients.Bounded config)
      (fun stats => ∀ binStats ∈ stats.bins, binStats.moments.Realized)
      (AdaptivePositionTetherCoefficients.observe_rollout_bounded penalized) groups accumulated
      controller (AdaptivePositionTetherCoefficients.create_bounded created)).rho

/-- A ridge of one tenth bounds every coefficient. -/
theorem adaptive_coefficients_bounded_tenth : FitsBounded (1 / 10 : Rat) :=
  adaptive_coefficients_bounded (1 / 10) (by norm_num)

end PrimeRl.Orchestrator.Tether
