import PrimeRl.Orchestrator.TetherFit
import PrimeRl.Orchestrator.TetherState

/-!
# Controllers read back what they wrote

A checkpoint of a controller whose counters and measures are in their ranges is
accepted by every controller with the same contract, which then has the same
state.
-/

namespace PrimeRl.Orchestrator.Tether

open Regression Fallible

variable {Scalar : Type} [Field Scalar] [LinearOrder Scalar]

/-! ## Entries -/

section
variable (name : String)

omit [Field Scalar] [LinearOrder Scalar] in
theorem strict_int_nat (number minimum : Nat) (enough : minimum ≤ number) :
    strictInt (.int number : StateValue Scalar) name minimum = .ok number := by
  have inside : ¬(number : Int) < minimum := by omega
  rw [strictInt, if_neg inside, Int.toNat_natCast]

omit [LinearOrder Scalar] in
theorem finite_float_ok (number : Scalar) :
    finiteFloat (.float number : StateValue Scalar) name = .ok number := rfl

theorem nonnegative_float_ok (number : Scalar) (nonnegative : 0 ≤ number) :
    nonnegativeFloat (.float number) name = .ok number := by
  simp [nonnegativeFloat, finite_float_ok, not_lt.mpr nonnegative]

theorem unit_float_ok (number : Scalar) (inside : 0 ≤ number ∧ number ≤ 1) :
    unitFloat (.float number) name = .ok number := by
  simp [unitFloat, finite_float_ok, inside]

omit [Field Scalar] [LinearOrder Scalar] in
/-- A list that was written item by item is read back. -/
theorem strict_vector_ok {Item : Type} (write : Item → StateValue Scalar)
    (item : StateValue Scalar → Except (StateError Scalar) Item) (items : List Item) (length : Nat)
    (counted : items.length = length) (reads : ∀ given ∈ items, item (write given) = .ok given) :
    strictVector (.list (items.map write)) name item length = .ok items := by
  have whole : ¬(items.map write).length ≠ length := by
    simp [counted]
  rw [strictVector, if_neg whole, collect_ok_iff, List.forall₂_map_left_iff]
  exact List.forall₂_same.mpr reads

end

/-- Statistics are read back. -/
theorem strict_stats_ok (stats : TetherRegressionStats Scalar) (name : String) :
    strictStats (.dict stats.asDict) name = .ok stats := by
  have valid : ¬(stats.featureFeature < 0 ∨ stats.targetTarget < 0) :=
    fun negative => negative.elim (not_lt.mpr stats.featuresNonneg) (not_lt.mpr stats.targetsNonneg)
  simp [strictStats, strictDict, TetherRegressionStats.ofDict, TetherRegressionStats.asDict,
    List.lookup_cons, strict_int_nat, finite_float_ok, TetherRegressionStats.create, valid, bind,
    Except.bind]

/-! ## One coefficient -/

namespace AdaptiveTetherCoefficient

/-- What holds of a controller whenever a checkpoint can be taken. -/
structure Sound (controller : AdaptiveTetherCoefficient Scalar) : Prop where
  pending : controller.pendingRollouts < controller.batchSize
  mseGroup : 0 ≤ controller.lastMseGroup
  mseFit : 0 ≤ controller.lastMseFit
  mseEma : 0 ≤ controller.lastMseEma
  featurePower : 0 ≤ controller.lastFeaturePower

/-- Controllers of one configuration. -/
def SameConfig (first second : AdaptiveTetherCoefficient Scalar) : Prop :=
  first.config = second.config ∧ first.batchSize = second.batchSize ∧
    first.gamma = second.gamma ∧ first.gaeLambda = second.gaeLambda

theorem load_state_dict_eq (fresh controller : AdaptiveTetherCoefficient Scalar)
    (same : SameConfig fresh controller) (sound : controller.Sound) :
    fresh.loadStateDict controller.stateDict = .ok controller := by
  obtain ⟨config, batchSize, gamma, gaeLambda⟩ := same
  have positive : 1 ≤ controller.batchSize := Nat.one_le_of_lt sound.pending
  have version : strictInt (.int 2 : StateValue Scalar) "schema_version" 1 = .ok 2 :=
    strict_int_nat _ 2 1 (by decide)
  simp [loadStateDict, version, stateEntry, stateDict, List.lookup_cons, strict_int_nat, finite_float_ok,
    nonnegative_float_ok, strictBool, strict_stats_ok, kindText, contract, sound.mseGroup,
    sound.mseFit, sound.mseEma, sound.featurePower, positive, config, batchSize, gamma, gaeLambda,
    Nat.not_le.mpr sound.pending, bind, Except.bind, pure, Except.pure]

end AdaptiveTetherCoefficient

/-! ## Coefficients by position -/

namespace AdaptivePositionTetherCoefficients

/-- What holds of a controller with bins whenever a checkpoint can be taken. -/
structure Sound (controller : AdaptivePositionTetherCoefficients Scalar) : Prop where
  several : 2 ≤ controller.numBins
  wide : 1 ≤ controller.binSize
  support : 1 ≤ controller.minBinRollouts
  rho : controller.rho.length = controller.numBins
  pendingBins : controller.pendingBins.length = controller.numBins
  pendingContributors : controller.pendingContributors.length = controller.numBins
  binUpdates : controller.binUpdates.length = controller.numBins
  lastFitValid : controller.lastFitValid.length = controller.numBins
  lastContributors : controller.lastContributors.length = controller.numBins
  pending : controller.pendingRollouts < controller.batchSize
  contributors : ∀ count ∈ controller.pendingContributors, count ≤ controller.pendingRollouts
  bins : ∀ item ∈ controller.pendingBins.zip controller.pendingContributors,
    inconsistentBin item = false
  mseGroup : 0 ≤ controller.lastMseGroup
  mseFit : 0 ≤ controller.lastMseFit
  mseEma : 0 ≤ controller.lastMseEma
  featurePower : 0 ≤ controller.lastFeaturePower
  fitTokenFraction : 0 ≤ controller.lastFitTokenFraction ∧ controller.lastFitTokenFraction ≤ 1

/-- Controllers of one configuration. -/
def SameConfig (first second : AdaptivePositionTetherCoefficients Scalar) : Prop :=
  first.config = second.config ∧ first.batchSize = second.batchSize ∧
    first.gamma = second.gamma ∧ first.gaeLambda = second.gaeLambda ∧
    first.numBins = second.numBins ∧ first.binSize = second.binSize ∧
    first.minBinRollouts = second.minBinRollouts

theorem load_state_dict_eq (fresh controller : AdaptivePositionTetherCoefficients Scalar)
    (same : SameConfig fresh controller) (sound : controller.Sound) :
    fresh.loadStateDict controller.stateDict = .ok controller := by
  obtain ⟨config, batchSize, gamma, gaeLambda, numBins, binSize, minBinRollouts⟩ := same
  have positive : 1 ≤ controller.batchSize := Nat.one_le_of_lt sound.pending
  have version : strictInt (.int 1 : StateValue Scalar) "schema_version" 1 = .ok 1 :=
    strict_int_nat _ 1 1 (by decide)
  have counts (name : String) (items : List Nat) (counted : items.length = controller.numBins) :
      strictVector (.list (items.map (fun count : Nat => (.int count : StateValue Scalar)))) name
        (fun item => strictInt item name 0) controller.numBins = .ok items :=
    strict_vector_ok name _ _ items _ counted
      (fun count _ => strict_int_nat name count 0 (Nat.zero_le count))
  have rho : strictVector (.list (controller.rho.map .float)) "rho"
      (fun item => finiteFloat item "rho") controller.numBins = .ok controller.rho :=
    strict_vector_ok _ _ _ _ _ sound.rho (fun number _ => finite_float_ok "rho" number)
  have flags : strictVector (.list (controller.lastFitValid.map .bool) : StateValue Scalar)
      "last_fit_valid" (fun item => strictBool item "last_fit_valid") controller.numBins =
        .ok controller.lastFitValid :=
    strict_vector_ok _ _ _ _ _ sound.lastFitValid (fun flag _ => rfl)
  have bins : strictVector (.list (controller.pendingBins.map (fun stats => .dict stats.asDict)))
      "pending_bins" (fun item => strictStats item "pending_bins") controller.numBins =
        .ok controller.pendingBins :=
    strict_vector_ok _ _ _ _ _ sound.pendingBins (fun stats _ => strict_stats_ok stats _)
  have supported : ¬∃ count ∈ controller.pendingContributors, controller.pendingRollouts < count := by
    rintro ⟨count, listed, above⟩
    exact Nat.not_lt.mpr (sound.contributors count listed) above
  have consistent : (controller.pendingBins.zip controller.pendingContributors).any
      inconsistentBin = false := by
    rw [List.any_eq_false]
    exact fun item listed => Bool.not_eq_true _ ▸ sound.bins item listed
  simp [loadStateDict, version, stateEntry, stateDict, List.lookup_cons, strict_int_nat,
    finite_float_ok, nonnegative_float_ok, unit_float_ok, kindText, contract, sound.mseGroup,
    sound.mseFit, sound.mseEma, sound.featurePower, sound.fitTokenFraction, sound.several,
    sound.wide, sound.support, positive, config, batchSize, gamma, gaeLambda, numBins, binSize,
    minBinRollouts, counts _ _ sound.pendingContributors, counts _ _ sound.binUpdates,
    counts _ _ sound.lastContributors, rho, flags, bins, supported, consistent,
    Nat.not_le.mpr sound.pending, bind, Except.bind, pure, Except.pure]

end AdaptivePositionTetherCoefficients

end PrimeRl.Orchestrator.Tether
