import Mathlib.Init

/-!
# Training samples and micro batches

The records that carry policy training data: one branch of a rollout, shipped by
the orchestrator, and one packed row of samples, shipped to a trainer rank.
Streams that are absent are none.
-/

namespace PrimeRl.Transport

universe u

/-- An array as raw bytes with its element type and shape. -/
structure EncodedTensor where
  dtype : String
  shape : List Nat
  data : List UInt8
deriving DecidableEq, Repr

/-- The experts each token was routed to, as they are sent: raw bytes with their shape and
the name of their element type. -/
structure RoutedExperts where
  data : List UInt8
  shape : List Int
  dtype : String
deriving DecidableEq, Repr

inductive ExpertsDtype where
  | uint8
  | int16
  | int32
deriving DecidableEq, Repr

/-- Routed experts that were found to have a row for each token. The shape is listed as the
number of rows and the dimensions of a row, of which the inner ones are never read. -/
structure ExpertRows where
  data : List UInt8
  seqLen : Nat
  layers : Int
  topk : Int
  inner : List Int
  dtype : ExpertsDtype
deriving DecidableEq, Repr

/-- Multimodal keyword arguments in insertion order. -/
abbrev MmKwargs := List (String × EncodedTensor)

/-- One branch of a rollout as a flat token sequence. -/
structure TrainingSample (Scalar : Type u) where
  tokenIds : List Nat
  mask : List Bool
  logprobs : List Scalar
  temperatures : List Scalar
  envName : String
  refLogprobs : Option (List Scalar)
  mmKwargs : Option MmKwargs := none
  routedExperts : Option RoutedExperts := none
  mmTokenTypeIds : Option (List Nat) := none
  rlWeights : Option (List Scalar)
  ceWeights : Option (List Scalar)
  refKlWeights : Option (List Scalar)
  advantages : Option (List Scalar)
  tokenPolicyVersions : Option EncodedTensor
deriving DecidableEq, Repr

/-- One packed row of samples. -/
structure MicroBatch (Scalar : Type u) where
  inputIds : List Nat
  lossMask : List Bool
  advantages : List Scalar
  inferenceLogprobs : List Scalar
  positionIds : List Nat
  sequenceLengths : List Nat
  temperatures : List Scalar
  envNames : List String
  refLogprobs : Option (List Scalar) := none
  loraNumTokens : Option (List Nat) := none
  routedExperts : Option ExpertRows := none
  mmKwargs : Option MmKwargs := none
  mmTokenTypeIds : Option (List Nat) := none
  rlWeights : Option (List Scalar) := none
  ceWeights : Option (List Scalar) := none
  refKlWeights : Option (List Scalar) := none
  runId : Option String := none
  runStep : Option Int := none
  tokenPolicyVersions : Option EncodedTensor := none
deriving DecidableEq, Repr

/-- One step of a run's samples, as its orchestrator sends them. The receiver
stamps the slot. -/
structure TrainingBatch (Scalar : Type u) where
  examples : List (TrainingSample Scalar)
  step : Int
  runIdx : Option Nat := none
deriving DecidableEq, Repr

/-- The assertions of a micro batch sender on the grid it is given: one list of
micro batches for each data rank, all of one length. -/
def assertGrid {Scalar : Type u} (dataWorldSize : Nat) (grid : List (List (MicroBatch Scalar))) :
    Except String Unit :=
  if grid.length ≠ dataWorldSize then
    .error "Number of micro batch lists must match data world size"
  else if grid.any (fun list => decide (list.length ≠ (grid.headD []).length)) then
    .error "All micro batch lists must have the same length"
  else .ok ()

end PrimeRl.Transport
