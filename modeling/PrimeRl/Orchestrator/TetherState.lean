import PrimeRl.Orchestrator.Tether
import PrimeRl.Support.Fallible

/-!
# Checkpoints of the adaptive coefficients

A controller writes its contract with the configuration and everything it has
gathered into one dictionary. A fresh controller reads it back entry by entry:
each entry is checked for its kind and its range before it is taken over, and
the contract has to be its own.
-/

namespace PrimeRl.Orchestrator.Tether

open Regression Fallible

variable {Scalar : Type} [Field Scalar] [LinearOrder Scalar] [IsStrictOrderedRing Scalar]

/-! ## Entries -/

/-- What a checkpoint holds under a key. An absent key reads as `none`. -/
inductive StateValue (Scalar : Type) where
  | none
  | int (number : Int)
  | float (number : Scalar)
  | bool (flag : Bool)
  | str (text : String)
  | list (items : List (StateValue Scalar))
  | dict (entries : List (String × StateValue Scalar))

/-- The contract of a controller with its configuration; a kind that is no text is absent. -/
structure StateContract (Scalar : Type) where
  kind : Option String
  batchSize : Nat
  gamma : Scalar
  gaeLambda : Scalar
  ridge : Scalar
  emaDecay : Scalar
  bins : Option (Nat × Nat × Nat)
deriving DecidableEq

inductive StateError (Scalar : Type) where
  /-- An entry is missing, of another kind or out of its range. -/
  | invalid (name : String)
  | schema (version : Nat)
  | contract (saved expected : StateContract Scalar)
  | pendingRollouts
  | binSupport
  | binState
  /-- The statistics of the checkpoint are refused. -/
  | stats (message : String)

def stateEntry (state : List (String × StateValue Scalar)) (key : String) : StateValue Scalar :=
  (state.lookup key).getD .none

section
variable (value : StateValue Scalar) (name : String)

def strictInt (minimum : Nat) : Except (StateError Scalar) Nat :=
  match value with
  | .int number => if number < minimum then .error (.invalid name) else .ok number.toNat
  | _ => .error (.invalid name)

def finiteFloat : Except (StateError Scalar) Scalar :=
  match value with
  | .int number => .ok number
  | .float number => .ok number
  | _ => .error (.invalid name)

def nonnegativeFloat : Except (StateError Scalar) Scalar :=
  match finiteFloat value name with
  | .error problem => .error problem
  | .ok parsed => if parsed < 0 then .error (.invalid name) else .ok parsed

def unitFloat : Except (StateError Scalar) Scalar :=
  match finiteFloat value name with
  | .error problem => .error problem
  | .ok parsed => if ¬(0 ≤ parsed ∧ parsed ≤ 1) then .error (.invalid name) else .ok parsed

def strictBool : Except (StateError Scalar) Bool :=
  match value with
  | .bool flag => .ok flag
  | _ => .error (.invalid name)

/-- A list of one length whose items are all accepted. -/
def strictVector {Item : Type} (item : StateValue Scalar → Except (StateError Scalar) Item)
    (length : Nat) : Except (StateError Scalar) (List Item) :=
  match value with
  | .list items => if items.length ≠ length then .error (.invalid name) else collect item items
  | _ => .error (.invalid name)

def strictDict : Except (StateError Scalar) (List (String × StateValue Scalar)) :=
  match value with
  | .dict entries => .ok entries
  | _ => .error (.invalid name)

def kindText : Option String :=
  match value with
  | .str text => some text
  | _ => Option.none

end

/-! ## Statistics -/

def TetherRegressionStats.asDict (stats : TetherRegressionStats Scalar) :
    List (String × StateValue Scalar) :=
  [("weight", .int stats.weight), ("feature_feature", .float stats.featureFeature),
    ("feature_target", .float stats.featureTarget), ("target_target", .float stats.targetTarget)]

/-- Statistics from keyword arguments. An argument of another name or kind is refused, and an
absent one is zero. -/
def TetherRegressionStats.ofDict (entries : List (String × StateValue Scalar)) :
    Except (StateError Scalar) (TetherRegressionStats Scalar) :=
  if entries.any (fun entry =>
      ! ["weight", "feature_feature", "feature_target", "target_target"].contains entry.1) then
    .error (.stats "got an unexpected keyword argument")
  else do
    let weight ← match entries.lookup "weight" with
      | Option.none => .ok 0
      | some value => strictInt value "weight" 0
    let moment (key : String) : Except (StateError Scalar) Scalar :=
      match entries.lookup key with
      | Option.none => .ok 0
      | some value => finiteFloat value key
    let featureFeature ← moment "feature_feature"
    let featureTarget ← moment "feature_target"
    let targetTarget ← moment "target_target"
    match TetherRegressionStats.create weight featureFeature featureTarget targetTarget with
    | .error message => .error (.stats message)
    | .ok stats => .ok stats

def strictStats (value : StateValue Scalar) (name : String) :
    Except (StateError Scalar) (TetherRegressionStats Scalar) := do
  TetherRegressionStats.ofDict (← strictDict value name)

/-! ## One coefficient -/

namespace AdaptiveTetherCoefficient

def stateDict (controller : AdaptiveTetherCoefficient Scalar) :
    List (String × StateValue Scalar) :=
  [("schema_version", .int 2), ("kind", .str "adaptive_tether"),
    ("batch_size", .int controller.batchSize), ("gamma", .float controller.gamma),
    ("gae_lambda", .float controller.gaeLambda), ("ridge", .float controller.config.ridge),
    ("ema_decay", .float controller.config.emaDecay), ("rho", .float controller.rho),
    ("pending_rollouts", .int controller.pendingRollouts),
    ("pending", .dict controller.pending.asDict), ("updates", .int controller.updates),
    ("skipped_updates", .int controller.skippedUpdates),
    ("last_fit_rho", .float controller.lastFitRho),
    ("last_fit_valid", .bool controller.lastFitValid),
    ("last_mse_group", .float controller.lastMseGroup),
    ("last_mse_fit", .float controller.lastMseFit),
    ("last_mse_ema", .float controller.lastMseEma),
    ("last_feature_power", .float controller.lastFeaturePower)]

def contract (controller : AdaptiveTetherCoefficient Scalar) : StateContract Scalar :=
  ⟨some "adaptive_tether", controller.batchSize, controller.gamma, controller.gaeLambda,
    controller.config.ridge, controller.config.emaDecay, none⟩

/-- Read a checkpoint. What is read before an error is not kept here. -/
def loadStateDict (controller : AdaptiveTetherCoefficient Scalar)
    (state : List (String × StateValue Scalar)) :
    Except (StateError Scalar) (AdaptiveTetherCoefficient Scalar) := do
  let entry := stateEntry state
  let schemaVersion ← strictInt (entry "schema_version") "schema_version" 1
  if schemaVersion ≠ 2 then throw (.schema schemaVersion)
  let saved : StateContract Scalar :=
    { kind := kindText (entry "kind")
      batchSize := ← strictInt (entry "batch_size") "batch_size" 1
      gamma := ← finiteFloat (entry "gamma") "gamma"
      gaeLambda := ← finiteFloat (entry "gae_lambda") "gae_lambda"
      ridge := ← finiteFloat (entry "ridge") "ridge"
      emaDecay := ← finiteFloat (entry "ema_decay") "ema_decay"
      bins := none }
  if saved ≠ controller.contract then throw (.contract saved controller.contract)
  let rho ← finiteFloat (entry "rho") "rho"
  let pendingRollouts ← strictInt (entry "pending_rollouts") "pending_rollouts" 0
  let pending ← strictStats (entry "pending") "pending"
  let updates ← strictInt (entry "updates") "updates" 0
  let skippedUpdates ← strictInt (entry "skipped_updates") "skipped_updates" 0
  let lastFitRho ← finiteFloat (entry "last_fit_rho") "last_fit_rho"
  let lastFitValid ← strictBool (entry "last_fit_valid") "last_fit_valid"
  let lastMseGroup ← nonnegativeFloat (entry "last_mse_group") "last_mse_group"
  let lastMseFit ← nonnegativeFloat (entry "last_mse_fit") "last_mse_fit"
  let lastMseEma ← nonnegativeFloat (entry "last_mse_ema") "last_mse_ema"
  let lastFeaturePower ← nonnegativeFloat (entry "last_feature_power") "last_feature_power"
  if controller.batchSize ≤ pendingRollouts then throw .pendingRollouts
  return { controller with
    rho := rho
    pendingRollouts := pendingRollouts
    pending := pending
    updates := updates
    skippedUpdates := skippedUpdates
    lastFitRho := lastFitRho
    lastFitValid := lastFitValid
    lastMseGroup := lastMseGroup
    lastMseFit := lastMseFit
    lastMseEma := lastMseEma
    lastFeaturePower := lastFeaturePower }

end AdaptiveTetherCoefficient

/-! ## Coefficients by position -/

namespace AdaptivePositionTetherCoefficients

def stateDict (controller : AdaptivePositionTetherCoefficients Scalar) :
    List (String × StateValue Scalar) :=
  [("schema_version", .int 1), ("kind", .str "adaptive_tether_position"),
    ("batch_size", .int controller.batchSize), ("gamma", .float controller.gamma),
    ("gae_lambda", .float controller.gaeLambda), ("ridge", .float controller.config.ridge),
    ("ema_decay", .float controller.config.emaDecay), ("num_bins", .int controller.numBins),
    ("bin_size", .int controller.binSize), ("min_bin_rollouts", .int controller.minBinRollouts),
    ("rho", .list (controller.rho.map .float)),
    ("pending_rollouts", .int controller.pendingRollouts),
    ("pending_bins", .list (controller.pendingBins.map (fun stats => .dict stats.asDict))),
    ("pending_contributors",
      .list (controller.pendingContributors.map (fun count : Nat => .int count))),
    ("updates", .int controller.updates), ("skipped_updates", .int controller.skippedUpdates),
    ("bin_updates", .list (controller.binUpdates.map (fun count : Nat => .int count))),
    ("last_fit_valid", .list (controller.lastFitValid.map .bool)),
    ("last_contributors", .list (controller.lastContributors.map (fun count : Nat => .int count))),
    ("last_mse_group", .float controller.lastMseGroup),
    ("last_mse_fit", .float controller.lastMseFit),
    ("last_mse_ema", .float controller.lastMseEma),
    ("last_feature_power", .float controller.lastFeaturePower),
    ("last_fit_token_fraction", .float controller.lastFitTokenFraction)]

def contract (controller : AdaptivePositionTetherCoefficients Scalar) : StateContract Scalar :=
  ⟨some "adaptive_tether_position", controller.batchSize, controller.gamma, controller.gaeLambda,
    controller.config.ridge, controller.config.emaDecay,
    some (controller.numBins, controller.binSize, controller.minBinRollouts)⟩

/-- A bin has rows exactly when rollouts contributed to it, at least one each, and no moments
without rows. -/
def inconsistentBin (item : TetherRegressionStats Scalar × Nat) : Bool :=
  decide (item.1.weight = 0) != decide (item.2 = 0) || decide (item.1.weight < item.2) ||
    decide (item.1.weight = 0) && (decide (item.1.featureFeature ≠ 0) ||
      decide (item.1.featureTarget ≠ 0) || decide (item.1.targetTarget ≠ 0))

/-- Read a checkpoint. What is read before an error is not kept here. -/
def loadStateDict (controller : AdaptivePositionTetherCoefficients Scalar)
    (state : List (String × StateValue Scalar)) :
    Except (StateError Scalar) (AdaptivePositionTetherCoefficients Scalar) := do
  let entry := stateEntry state
  let schemaVersion ← strictInt (entry "schema_version") "schema_version" 1
  let kind := kindText (entry "kind")
  if schemaVersion ≠ 1 ∨ kind ≠ some "adaptive_tether_position" then throw (.schema schemaVersion)
  let saved : StateContract Scalar :=
    { kind := kind
      batchSize := ← strictInt (entry "batch_size") "batch_size" 1
      gamma := ← finiteFloat (entry "gamma") "gamma"
      gaeLambda := ← finiteFloat (entry "gae_lambda") "gae_lambda"
      ridge := ← finiteFloat (entry "ridge") "ridge"
      emaDecay := ← finiteFloat (entry "ema_decay") "ema_decay"
      bins := some
        (← strictInt (entry "num_bins") "num_bins" 2, ← strictInt (entry "bin_size") "bin_size" 1,
          ← strictInt (entry "min_bin_rollouts") "min_bin_rollouts" 1) }
  if saved ≠ controller.contract then throw (.contract saved controller.contract)
  let counts (name : String) : Except (StateError Scalar) (List Nat) :=
    strictVector (entry name) name (fun item => strictInt item name 0) controller.numBins
  let rho ← strictVector (entry "rho") "rho" (fun item => finiteFloat item "rho") controller.numBins
  let pendingRollouts ← strictInt (entry "pending_rollouts") "pending_rollouts" 0
  let pendingBins ← strictVector (entry "pending_bins") "pending_bins"
    (fun item => strictStats item "pending_bins") controller.numBins
  let pendingContributors ← counts "pending_contributors"
  let updates ← strictInt (entry "updates") "updates" 0
  let skippedUpdates ← strictInt (entry "skipped_updates") "skipped_updates" 0
  let binUpdates ← counts "bin_updates"
  let lastFitValid ← strictVector (entry "last_fit_valid") "last_fit_valid"
    (fun item => strictBool item "last_fit_valid") controller.numBins
  let lastContributors ← counts "last_contributors"
  let lastMseGroup ← nonnegativeFloat (entry "last_mse_group") "last_mse_group"
  let lastMseFit ← nonnegativeFloat (entry "last_mse_fit") "last_mse_fit"
  let lastMseEma ← nonnegativeFloat (entry "last_mse_ema") "last_mse_ema"
  let lastFeaturePower ← nonnegativeFloat (entry "last_feature_power") "last_feature_power"
  let lastFitTokenFraction ←
    unitFloat (entry "last_fit_token_fraction") "last_fit_token_fraction"
  if controller.batchSize ≤ pendingRollouts then throw .pendingRollouts
  if pendingContributors.any (fun count => decide (pendingRollouts < count)) then throw .binSupport
  if (pendingBins.zip pendingContributors).any inconsistentBin then throw .binState
  return { controller with
    rho := rho
    pendingRollouts := pendingRollouts
    pendingBins := pendingBins
    pendingContributors := pendingContributors
    updates := updates
    skippedUpdates := skippedUpdates
    binUpdates := binUpdates
    lastFitValid := lastFitValid
    lastContributors := lastContributors
    lastMseGroup := lastMseGroup
    lastMseFit := lastMseFit
    lastMseEma := lastMseEma
    lastFeaturePower := lastFeaturePower
    lastFitTokenFraction := lastFitTokenFraction }

end AdaptivePositionTetherCoefficients

end PrimeRl.Orchestrator.Tether
