import Mathlib.Algebra.Ring.Int.Defs
import Mathlib.Algebra.Ring.Nat
import PrimeRl.Value.Batch

/-!
# The trainer runtime

What one optimizer update needs from its loop: a batch is packed and prepared
first, and an update consumes the prepared batch and advances the version. A
batch without trainable tokens prepares nothing. The forward and backward passes
enter only through whether the update raised.
-/

namespace PrimeRl.Value

universe u
variable {Scalar : Type u}

structure PreparedBatch (Scalar : Type u) where
  batch : ValueTrainingBatch Scalar
  microBatches : List (Batch.ValueMicroBatch Scalar)
  scale : Nat
deriving DecidableEq, Repr

structure ValueTrainerRuntime (Scalar : Type u) where
  seqLen : Nat
  dataWorldSize : Nat
  dataRank : Nat
  packSequences : Bool
  maxSteps : Option Int
  version : Nat
  active : Option (PreparedBatch Scalar) := none
deriving DecidableEq, Repr

namespace ValueTrainerRuntime

def maxStepsReached (runtime : ValueTrainerRuntime Scalar) : Bool :=
  runtime.maxSteps.any (fun maxSteps => decide (maxSteps ≤ (runtime.version : Int)))

def canStep (runtime : ValueTrainerRuntime Scalar) : Bool :=
  runtime.active.isSome && !runtime.maxStepsReached

/-- Trainable tokens of one rank's rows. -/
def localScale (microBatches : List (Batch.ValueMicroBatch Scalar)) : Nat :=
  (microBatches.map (fun microBatch => microBatch.mask.count true)).sum

/-- Pack one optimizer batch on every rank and sum the trainable tokens of all
of them. Without any, nothing is prepared. -/
def prepareBatch [Zero Scalar] (runtime : ValueTrainerRuntime Scalar)
    (batch : ValueTrainingBatch Scalar) : Except String (Bool × ValueTrainerRuntime Scalar) :=
  if runtime.active.isSome then .error "cannot replace a prepared value batch"
  else
    match Batch.packValueSamples batch.samples runtime.seqLen runtime.dataWorldSize 0
        runtime.packSequences with
    | .error message => .error message
    | .ok grid =>
      let scale := (grid.map localScale).sum
      if scale = 0 then .ok (false, { runtime with active := none })
      else .ok (true,
        { runtime with
          active := some
            { batch := batch
              microBatches := grid.getD runtime.dataRank []
              scale := scale } })

/-- One complete value update. `update` is what the passes, the optimizer, the
publication and the checkpoint came to. -/
def step (runtime : ValueTrainerRuntime Scalar) (update : Except String Unit) :
    Except String (ValueTrainerRuntime Scalar) :=
  if runtime.canStep then
    update.map (fun _ => { runtime with version := runtime.version + 1, active := none })
  else .error "value trainer has no prepared update"

end ValueTrainerRuntime

end PrimeRl.Value
