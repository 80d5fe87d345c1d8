import Mathlib.Data.Rat.Init

/-!
# Messages of the value plane

The records that the orchestrator, the value trainer and the value evaluator
exchange. Floating-point streams are lists over an arbitrary scalar type, so a
result about them can be read in exact arithmetic.
-/

namespace PrimeRl.Value

universe u

/-- One critic training sequence with its token, mask and target streams. -/
structure ValueTrainingSample (Scalar : Type u) where
  tokenIds : List Nat
  mask : List Bool
  targets : List Scalar
deriving DecidableEq, Repr

/-- All critic sequences of one policy rollout. -/
structure ValueTrainingRollout (Scalar : Type u) where
  samples : List (ValueTrainingSample Scalar)
  rolloutId : Int
  policyVersion : Int
  valueVersion : Int
deriving DecidableEq, Repr

/-- One optimizer batch with the provenance ranges of its rollouts. -/
structure ValueTrainingBatch (Scalar : Type u) where
  samples : List (ValueTrainingSample Scalar)
  numRollouts : Nat
  rolloutIdMin : Int
  rolloutIdMax : Int
  policyVersionMin : Int
  policyVersionMax : Int
  valueVersionMin : Int
  valueVersionMax : Int
  replayAttemptMin : Nat
  replayAttemptMax : Nat
  replayAttemptMean : Rat
deriving DecidableEq, Repr

structure ValueEvaluationRequest where
  tokenIds : List (List Nat)
deriving DecidableEq, Repr

structure ValueEvaluationResponse (Scalar : Type u) where
  values : List (List Scalar)
  version : Int
deriving DecidableEq, Repr

end PrimeRl.Value
