import Mathlib.Algebra.Ring.Int.Defs
import Mathlib.Algebra.Ring.Nat
import PrimeRl.Support.Regression

/-!
# Adaptive mixed baselines

The coefficient of a mixed group and critic baseline is fitted to the moments of
the scored tokens, window after window, and averaged. One controller keeps one
coefficient, the other one for each bin of action positions. Arithmetic is exact,
so the finiteness checks of the source have no counterpart.
-/

namespace PrimeRl.Orchestrator.Tether

open Regression

universe u v
variable {Scalar : Type u} [Field Scalar] [LinearOrder Scalar] [IsStrictOrderedRing Scalar]

/-- The most bins a configuration may create. -/
def maxBaselinePositionBins : Nat := 128

/-- Fixed causal action-position bins. -/
structure TetherPositionConfig where
  binSize : Nat
  maxActionTokens : Option Nat
  minBinRollouts : Option Nat
  binSizePositive : 1 ≤ binSize
  maxActionTokensPositive : ∀ tokens ∈ maxActionTokens, 1 ≤ tokens
  minBinRolloutsPositive : ∀ rollouts ∈ minBinRollouts, 1 ≤ rollouts

/-- Number of bins, their size and the rollouts a bin needs. -/
def TetherPositionConfig.resolve (config : TetherPositionConfig) (policySeqLen batchSize : Nat) :
    Except String (Nat × Nat × Nat) :=
  let horizon := config.maxActionTokens.getD policySeqLen
  if policySeqLen < horizon then
    .error "tether position max_action_tokens cannot exceed policy sequence length"
  else
    let numBins := (horizon + config.binSize - 1) / config.binSize
    if numBins < 2 then .error "tether position conditioning needs at least two bins"
    else if maxBaselinePositionBins < numBins then
      .error s!"tether position config creates {numBins} bins; maximum is {maxBaselinePositionBins}"
    else
      let minBinRollouts := config.minBinRollouts.getD (min batchSize (max 1 ((batchSize + 7) / 8)))
      if batchSize < minBinRollouts then
        .error "tether position min_bin_rollouts cannot exceed adaptive batch_size"
      else .ok (numBins, config.binSize, minBinRollouts)

/-- Online regression and averaging controls with their validated ranges. -/
structure AdaptiveTetherConfig (Scalar : Type u) [Field Scalar] [LinearOrder Scalar] where
  initialRho : Scalar
  position : Option TetherPositionConfig
  ridge : Scalar
  emaDecay : Scalar
  ridgeNonneg : 0 ≤ ridge
  emaDecayRange : 0 ≤ emaDecay ∧ emaDecay < 1

/-! ## Statistics -/

/-- Token-weighted sufficient statistics for `Q_lambda - B ~= rho * (V - B)`. -/
structure TetherRegressionStats (Scalar : Type u) [Field Scalar] [LinearOrder Scalar] where
  weight : Nat
  featureFeature : Scalar
  featureTarget : Scalar
  targetTarget : Scalar
  featuresNonneg : 0 ≤ featureFeature
  targetsNonneg : 0 ≤ targetTarget

namespace TetherRegressionStats

/-- The moments without their sign facts. -/
def moments (stats : TetherRegressionStats Scalar) : Moments Scalar :=
  ⟨stats.weight, stats.featureFeature, stats.featureTarget, stats.targetTarget⟩

omit [IsStrictOrderedRing Scalar] in
theorem moments_injective :
    Function.Injective (moments : TetherRegressionStats Scalar → Moments Scalar) := by
  rintro ⟨weight, features, products, targets, _, _⟩ ⟨_, _, _, _, _, _⟩ same
  cases same
  rfl

/-- Checked construction. -/
def create (weight : Nat) (featureFeature featureTarget targetTarget : Scalar) :
    Except String (TetherRegressionStats Scalar) :=
  if negative : featureFeature < 0 ∨ targetTarget < 0 then
    .error "adaptive TETHER diagonal moments must be non-negative"
  else
    .ok ⟨weight, featureFeature, featureTarget, targetTarget,
      not_lt.mp (fun below => negative (Or.inl below)),
      not_lt.mp (fun below => negative (Or.inr below))⟩

instance : Zero (TetherRegressionStats Scalar) := ⟨⟨0, 0, 0, 0, le_rfl, le_rfl⟩⟩

instance : Add (TetherRegressionStats Scalar) :=
  ⟨fun stats other =>
    ⟨stats.weight + other.weight, stats.featureFeature + other.featureFeature,
      stats.featureTarget + other.featureTarget, stats.targetTarget + other.targetTarget,
      add_nonneg stats.featuresNonneg other.featuresNonneg,
      add_nonneg stats.targetsNonneg other.targetsNonneg⟩⟩

omit [IsStrictOrderedRing Scalar] in
@[simp] theorem moments_zero : (0 : TetherRegressionStats Scalar).moments = 0 := rfl

@[simp] theorem moments_add (stats other : TetherRegressionStats Scalar) :
    (stats + other).moments = stats.moments + other.moments := rfl

instance : AddCommMonoid (TetherRegressionStats Scalar) where
  nsmul := nsmulRec
  add_assoc first second third := moments_injective (by simp only [moments_add, add_assoc])
  zero_add stats := moments_injective (by simp only [moments_add, moments_zero, zero_add])
  add_zero stats := moments_injective (by simp only [moments_add, moments_zero, add_zero])
  add_comm first second := moments_injective (by simp only [moments_add, add_comm])

theorem moments_sum (items : List (TetherRegressionStats Scalar)) :
    items.sum.moments = (items.map moments).sum := by
  induction items with
  | nil => rfl
  | cons stats items inductionHypothesis =>
    rw [List.sum_cons, moments_add, inductionHypothesis, List.map_cons, List.sum_cons]

theorem weight_sum (items : List (TetherRegressionStats Scalar)) :
    items.sum.weight = (items.map weight).sum := by
  induction items with
  | nil => rfl
  | cons stats items inductionHypothesis =>
    rw [List.sum_cons, List.map_cons, List.sum_cons, ← inductionHypothesis]
    rfl

/-- Statistics of the rows of a list, in whatever order and parts they were
summed. -/
def Accumulated (stats : TetherRegressionStats Scalar) (rows : List (Scalar × Scalar)) : Prop :=
  stats.moments = Moments.ofRows rows

end TetherRegressionStats

/-- One rollout's statistics partitioned by position bin. -/
structure TetherRolloutStats (Scalar : Type u) [Field Scalar] [LinearOrder Scalar] where
  bins : List (TetherRegressionStats Scalar)
  several : 2 ≤ bins.length

/-- Checked construction. -/
def TetherRolloutStats.create (bins : List (TetherRegressionStats Scalar)) :
    Except String (TetherRolloutStats Scalar) :=
  if few : bins.length < 2 then
    .error "positioned TETHER rollout stats need at least two bins"
  else .ok ⟨bins, Nat.not_lt.mp few⟩

/-- Statistics under construction. -/
structure StatsAccumulator (Scalar : Type u) where
  weight : Nat
  featureFeature : Scalar
  featureTarget : Scalar
  targetTarget : Scalar

namespace StatsAccumulator

def empty : StatsAccumulator Scalar := ⟨0, 0, 0, 0⟩

def addRow (accumulator : StatsAccumulator Scalar) (feature target : Scalar) :
    StatsAccumulator Scalar :=
  { weight := accumulator.weight + 1
    featureFeature := accumulator.featureFeature + feature * feature
    featureTarget := accumulator.featureTarget + feature * target
    targetTarget := accumulator.targetTarget + target * target }

def freeze (accumulator : StatsAccumulator Scalar) : Except String (TetherRegressionStats Scalar) :=
  TetherRegressionStats.create accumulator.weight accumulator.featureFeature
    accumulator.featureTarget accumulator.targetTarget

def moments (accumulator : StatsAccumulator Scalar) : Moments Scalar :=
  ⟨accumulator.weight, accumulator.featureFeature, accumulator.featureTarget,
    accumulator.targetTarget⟩

omit [LinearOrder Scalar] [IsStrictOrderedRing Scalar] in
theorem moments_add_row (accumulator : StatsAccumulator Scalar) (feature target : Scalar) :
    (accumulator.addRow feature target).moments =
      accumulator.moments + Moments.ofRow (feature, target) := rfl

/-- An accumulator that holds rows freezes without an error. -/
theorem freeze_of_rows (accumulator : StatsAccumulator Scalar) (rows : List (Scalar × Scalar))
    (holds : accumulator.moments = Moments.ofRows rows) :
    ∃ stats, accumulator.freeze = .ok stats ∧ stats.Accumulated rows := by
  have features : 0 ≤ accumulator.featureFeature := by
    rw [show accumulator.featureFeature = accumulator.moments.features from rfl, holds]
    exact Moments.features_nonneg rows
  have targets : 0 ≤ accumulator.targetTarget := by
    rw [show accumulator.targetTarget = accumulator.moments.targets from rfl, holds]
    exact Moments.targets_nonneg rows
  have valid : ¬(accumulator.featureFeature < 0 ∨ accumulator.targetTarget < 0) :=
    fun negative => negative.elim (not_lt.mpr features) (not_lt.mpr targets)
  refine ⟨_, dif_neg valid, ?_⟩
  rw [TetherRegressionStats.Accumulated, ← holds]
  rfl

end StatsAccumulator

/-! ## Fits -/

/-- Solve the token-normalized, relative-ridge scalar regression. -/
def fitTether (stats : TetherRegressionStats Scalar) (ridge : Scalar) :
    Except String (Option Scalar) :=
  if stats.weight < 1 then .error "adaptive TETHER fit needs at least one row"
  else
    let invWeight := 1 / (stats.weight : Scalar)
    let featurePower := stats.featureFeature * invWeight
    let targetPower := stats.targetTarget * invWeight
    let scale := max featurePower targetPower
    let denominator := featurePower + ridge * scale
    if featurePower ≤ 0 ∨ scale ≤ 0 ∨ denominator ≤ 0 then .ok none
    else .ok (some (stats.featureTarget * invWeight / denominator))

def residualSum (stats : TetherRegressionStats Scalar) (rho : Scalar) : Scalar :=
  max (stats.targetTarget - 2 * rho * stats.featureTarget + rho * rho * stats.featureFeature) 0

/-- Piecewise-constant coefficients over branch-local action positions. -/
structure TetherCoefficientTable (Scalar : Type u) where
  rho : List Scalar
  binSize : Nat
  valid : 2 ≤ rho.length ∧ 1 ≤ binSize

namespace TetherCoefficientTable

def create (rho : List Scalar) (binSize : Nat) : Except String (TetherCoefficientTable Scalar) :=
  if invalid : rho.length < 2 ∨ binSize < 1 then
    .error "positioned TETHER needs at least two positive-width bins"
  else
    .ok ⟨rho, binSize, Nat.not_lt.mp (fun few => invalid (Or.inl few)),
      Nat.not_lt.mp (fun narrow => invalid (Or.inr narrow))⟩

def numBins (table : TetherCoefficientTable Scalar) : Nat := table.rho.length

def binIndex (table : TetherCoefficientTable Scalar) (actionPosition : Nat) : Nat :=
  min (actionPosition / table.binSize) (table.numBins - 1)

omit [Field Scalar] [LinearOrder Scalar] [IsStrictOrderedRing Scalar] in
theorem bin_index_lt (table : TetherCoefficientTable Scalar) (actionPosition : Nat) :
    table.binIndex actionPosition < table.numBins := by
  have several := table.valid.1
  rw [binIndex, numBins]
  omega

end TetherCoefficientTable

/-! ## Controllers -/

/-- A group is consumed rollout by rollout; a refused rollout leaves what the ones
before it did. -/
def observeEach {Controller : Type u} {Stats : Type v}
    (observe : Controller → Stats → Except String Controller) :
    Controller → List Stats → Controller × Option String
  | controller, [] => (controller, none)
  | controller, stats :: rest =>
      match observe controller stats with
      | .error message => (controller, some message)
      | .ok next => observeEach observe next rest

/-- Lagged ridge fits over windows of an exact number of rollouts. -/
structure AdaptiveTetherCoefficient (Scalar : Type u) [Field Scalar] [LinearOrder Scalar] where
  config : AdaptiveTetherConfig Scalar
  batchSize : Nat
  gamma : Scalar
  gaeLambda : Scalar
  rho : Scalar
  pendingRollouts : Nat
  pending : TetherRegressionStats Scalar
  updates : Nat
  skippedUpdates : Nat
  lastFitRho : Scalar
  lastFitValid : Bool
  lastMseGroup : Scalar
  lastMseFit : Scalar
  lastMseEma : Scalar
  lastFeaturePower : Scalar

namespace AdaptiveTetherCoefficient

def create (config : AdaptiveTetherConfig Scalar) (batchSize : Nat) (gamma gaeLambda : Scalar) :
    Except String (AdaptiveTetherCoefficient Scalar) :=
  if batchSize < 1 then .error "adaptive TETHER batch_size must be positive"
  else if ¬(0 ≤ gamma ∧ gamma ≤ 1) then .error "adaptive TETHER gamma must be in [0, 1]"
  else if ¬(0 ≤ gaeLambda ∧ gaeLambda ≤ 1) then
    .error "adaptive TETHER gae_lambda must be in [0, 1]"
  else
    .ok
      { config := config
        batchSize := batchSize
        gamma := gamma
        gaeLambda := gaeLambda
        rho := config.initialRho
        pendingRollouts := 0
        pending := 0
        updates := 0
        skippedUpdates := 0
        lastFitRho := config.initialRho
        lastFitValid := false
        lastMseGroup := 0
        lastMseFit := 0
        lastMseEma := 0
        lastFeaturePower := 0 }

/-- The fit of a full window. -/
def update (controller : AdaptiveTetherCoefficient Scalar) (stats : TetherRegressionStats Scalar) :
    Except String (AdaptiveTetherCoefficient Scalar) :=
  let started := { controller with lastFitValid := false, lastFitRho := controller.rho }
  if stats.weight = 0 then
    .ok
      { started with
        lastMseGroup := 0
        lastMseFit := 0
        lastMseEma := 0
        lastFeaturePower := 0
        skippedUpdates := started.skippedUpdates + 1 }
  else
    let invWeight := 1 / (stats.weight : Scalar)
    let measured :=
      { started with
        lastMseGroup := stats.targetTarget * invWeight
        lastFeaturePower := stats.featureFeature * invWeight
        lastMseFit := residualSum stats started.rho * invWeight
        lastMseEma := residualSum stats started.rho * invWeight }
    match fitTether stats controller.config.ridge with
    | .error message => .error message
    | .ok none => .ok { measured with skippedUpdates := measured.skippedUpdates + 1 }
    | .ok (some fitRho) =>
        let decay := controller.config.emaDecay
        let rho := decay * measured.rho + (1 - decay) * fitRho
        .ok
          { measured with
            rho := rho
            updates := measured.updates + 1
            lastFitRho := fitRho
            lastFitValid := true
            lastMseFit := residualSum stats fitRho * invWeight
            lastMseEma := residualSum stats rho * invWeight }

/-- Add the statistics of one rollout to the window. -/
def enqueue (controller : AdaptiveTetherCoefficient Scalar) (stats : TetherRegressionStats Scalar) :
    AdaptiveTetherCoefficient Scalar :=
  { controller with
    pending := controller.pending + stats
    pendingRollouts := controller.pendingRollouts + 1 }

/-- Queue one scored rollout; a full window is fitted and emptied. -/
def observeRollout (controller : AdaptiveTetherCoefficient Scalar)
    (stats : TetherRegressionStats Scalar) : Except String (AdaptiveTetherCoefficient Scalar) :=
  let queued := controller.enqueue stats
  if queued.pendingRollouts = queued.batchSize then
    (queued.update queued.pending).map (fun fitted =>
      { fitted with pendingRollouts := 0, pending := 0 })
  else .ok queued

def observeGroup (controller : AdaptiveTetherCoefficient Scalar)
    (stats : List (TetherRegressionStats Scalar)) :
    AdaptiveTetherCoefficient Scalar × Option String :=
  observeEach observeRollout controller stats

end AdaptiveTetherCoefficient

/-- Lagged independent fits over fixed bins of action positions. -/
structure AdaptivePositionTetherCoefficients (Scalar : Type u) [Field Scalar]
    [LinearOrder Scalar] where
  config : AdaptiveTetherConfig Scalar
  batchSize : Nat
  gamma : Scalar
  gaeLambda : Scalar
  numBins : Nat
  binSize : Nat
  minBinRollouts : Nat
  rho : List Scalar
  pendingRollouts : Nat
  pendingBins : List (TetherRegressionStats Scalar)
  pendingContributors : List Nat
  updates : Nat
  skippedUpdates : Nat
  binUpdates : List Nat
  lastFitValid : List Bool
  lastContributors : List Nat
  lastMseGroup : Scalar
  lastMseFit : Scalar
  lastMseEma : Scalar
  lastFeaturePower : Scalar
  lastFitTokenFraction : Scalar

/-- What the loop over the bins of a window changes. -/
structure BinFits (Scalar : Type u) where
  rho : List Scalar
  lastFitValid : List Bool
  binUpdates : List Nat
  fitWeight : Nat
  fitResidual : Scalar

/-- The fit of one bin, for bins with rows of enough rollouts. -/
def fitBin (config : AdaptiveTetherConfig Scalar) (minBinRollouts : Nat) (fits : BinFits Scalar)
    (item : (TetherRegressionStats Scalar × Nat) × Nat) : Except String (BinFits Scalar) :=
  match item with
  | ((binStats, support), index) =>
      if binStats.weight = 0 ∨ support < minBinRollouts then .ok fits
      else
        match fitTether binStats config.ridge with
        | .error message => .error message
        | .ok none => .ok fits
        | .ok (some fitRho) =>
            .ok
              { rho := fits.rho.modify index (fun rho =>
                  config.emaDecay * rho + (1 - config.emaDecay) * fitRho)
                lastFitValid := fits.lastFitValid.set index true
                binUpdates := fits.binUpdates.modify index (· + 1)
                fitWeight := fits.fitWeight + binStats.weight
                fitResidual := fits.fitResidual + residualSum binStats fitRho }

namespace AdaptivePositionTetherCoefficients

def create (config : AdaptiveTetherConfig Scalar) (batchSize : Nat) (gamma gaeLambda : Scalar)
    (numBins binSize minBinRollouts : Nat) :
    Except String (AdaptivePositionTetherCoefficients Scalar) :=
  if batchSize < 1 then .error "adaptive positioned TETHER batch_size must be positive"
  else if ¬(0 ≤ gamma ∧ gamma ≤ 1) then
    .error "adaptive positioned TETHER gamma must be in [0, 1]"
  else if ¬(0 ≤ gaeLambda ∧ gaeLambda ≤ 1) then
    .error "adaptive positioned TETHER gae_lambda must be in [0, 1]"
  else if numBins < 2 ∨ binSize < 1 then
    .error "adaptive positioned TETHER needs at least two positive-width bins"
  else if ¬(1 ≤ minBinRollouts ∧ minBinRollouts ≤ batchSize) then
    .error "adaptive positioned TETHER has invalid minimum bin support"
  else
    .ok
      { config := config
        batchSize := batchSize
        gamma := gamma
        gaeLambda := gaeLambda
        numBins := numBins
        binSize := binSize
        minBinRollouts := minBinRollouts
        rho := List.replicate numBins config.initialRho
        pendingRollouts := 0
        pendingBins := List.replicate numBins 0
        pendingContributors := List.replicate numBins 0
        updates := 0
        skippedUpdates := 0
        binUpdates := List.replicate numBins 0
        lastFitValid := List.replicate numBins false
        lastContributors := List.replicate numBins 0
        lastMseGroup := 0
        lastMseFit := 0
        lastMseEma := 0
        lastFeaturePower := 0
        lastFitTokenFraction := 0 }

def coefficientTable (controller : AdaptivePositionTetherCoefficients Scalar) :
    Except String (TetherCoefficientTable Scalar) :=
  TetherCoefficientTable.create controller.rho controller.binSize

/-- The fit of a full window, bin after bin. -/
def update (controller : AdaptivePositionTetherCoefficients Scalar)
    (stats : List (TetherRegressionStats Scalar)) (contributors : List Nat) :
    Except String (AdaptivePositionTetherCoefficients Scalar) :=
  let totalWeight := (stats.map TetherRegressionStats.weight).sum
  let started :=
    { controller with
      lastFitValid := List.replicate controller.numBins false
      lastContributors := contributors }
  if totalWeight = 0 then
    .ok
      { started with
        skippedUpdates := started.skippedUpdates + 1
        lastMseGroup := 0
        lastMseFit := 0
        lastMseEma := 0
        lastFeaturePower := 0
        lastFitTokenFraction := 0 }
  else if stats.length ≠ contributors.length then
    .error "zip() arguments have different lengths"
  else
    match (stats.zip contributors).zipIdx.foldlM
        (fitBin controller.config controller.minBinRollouts)
        ⟨started.rho, started.lastFitValid, started.binUpdates, 0, 0⟩ with
    | .error message => .error message
    | .ok fits =>
        if stats.length ≠ fits.rho.length then .error "zip() arguments have different lengths"
        else
          .ok
            { started with
              rho := fits.rho
              lastFitValid := fits.lastFitValid
              binUpdates := fits.binUpdates
              updates := if fits.lastFitValid.any id then started.updates + 1 else started.updates
              skippedUpdates :=
                if fits.lastFitValid.any id then started.skippedUpdates
                else started.skippedUpdates + 1
              lastMseGroup :=
                (stats.map TetherRegressionStats.targetTarget).sum / (totalWeight : Scalar)
              lastMseFit :=
                if fits.fitWeight ≠ 0 then fits.fitResidual / (fits.fitWeight : Scalar) else 0
              lastMseEma := (List.zipWith residualSum stats fits.rho).sum / (totalWeight : Scalar)
              lastFeaturePower :=
                (stats.map TetherRegressionStats.featureFeature).sum / (totalWeight : Scalar)
              lastFitTokenFraction := (fits.fitWeight : Scalar) / (totalWeight : Scalar) }

/-- Add the statistics of one rollout to the window, bin by bin. -/
def enqueue (controller : AdaptivePositionTetherCoefficients Scalar)
    (stats : TetherRolloutStats Scalar) : AdaptivePositionTetherCoefficients Scalar :=
  { controller with
    pendingBins := List.zipWith (· + ·) controller.pendingBins stats.bins
    pendingContributors := List.zipWith (fun contributors binStats =>
      contributors + (if 0 < binStats.weight then 1 else 0)) controller.pendingContributors stats.bins
    pendingRollouts := controller.pendingRollouts + 1 }

/-- Queue one scored rollout; a full window is fitted and emptied. -/
def observeRollout (controller : AdaptivePositionTetherCoefficients Scalar)
    (stats : TetherRolloutStats Scalar) :
    Except String (AdaptivePositionTetherCoefficients Scalar) :=
  if stats.bins.length ≠ controller.numBins then
    .error "positioned TETHER rollout bin count mismatch"
  else
    let queued := controller.enqueue stats
    if queued.pendingRollouts = queued.batchSize then
      (queued.update queued.pendingBins queued.pendingContributors).map (fun fitted =>
        { fitted with
          pendingRollouts := 0
          pendingBins := List.replicate fitted.numBins 0
          pendingContributors := List.replicate fitted.numBins 0 })
    else .ok queued

def observeGroup (controller : AdaptivePositionTetherCoefficients Scalar)
    (stats : List (TetherRolloutStats Scalar)) :
    AdaptivePositionTetherCoefficients Scalar × Option String :=
  observeEach observeRollout controller stats

end AdaptivePositionTetherCoefficients

end PrimeRl.Orchestrator.Tether
