import Mathlib.Algebra.Order.Field.Basic
import Mathlib.Algebra.Order.Group.Unbundled.Abs
import PrimeRl.Trainer.Segments

/-!
# The training loss of a micro batch

The loss of a sequence has three components, each a sum over the tokens that its
weight stream selects. Sums are over a field with an abstract exponential. The
model gives a position the log-probability of its label, labels are shifted left
over the whole row, and log-probabilities are shifted right again before the row
is split by its sequence lengths.
-/

namespace PrimeRl.Trainer.Loss

open PrimeRl.Transport PrimeRl.Trainer.Batch

variable {Scalar : Type}

/-- The exponential, and the exponential minus one. -/
structure Exponential (Scalar : Type) where
  exp : Scalar → Scalar
  expm1 : Scalar → Scalar

/-- What a component loss reads of one sequence. The mask already selects the
tokens of the component; absent weights are one. -/
structure LossInputs (Scalar : Type) where
  trainerLogprobs : List Scalar
  inferenceLogprobs : List Scalar
  refLogprobs : Option (List Scalar)
  advantages : List Scalar
  lossMask : List Bool
  lossWeights : Option (List Scalar)

abbrev LossFn (Scalar : Type) := LossInputs Scalar → Except String Scalar

/-- The values at the masked positions, in order. -/
def select {Value : Type} (mask : List Bool) (values : List Value) : List Value :=
  (mask.zip values).filterMap (fun entry => if entry.1 then some entry.2 else none)

structure DefaultLossConfig (Scalar : Type) where
  dppoMaskLow : Scalar
  dppoMaskHigh : Scalar
  advTau : Scalar
  klTau : Scalar

structure IPOLossConfig (Scalar : Type) where
  ipoThreshold : Scalar
  advTau : Scalar
  klTau : Scalar

/-- The built-in losses of the rl component. -/
inductive LossConfig (Scalar : Type) where
  | default (config : DefaultLossConfig Scalar)
  | ipo (config : IPOLossConfig Scalar)

section Components
variable [Field Scalar] [LinearOrder Scalar]

/-- The difference of two probabilities, from their logarithms. -/
def probabilityDifference (functions : Exponential Scalar) (trainer inference : Scalar) : Scalar :=
  let larger := max trainer inference
  let smaller := min trainer inference
  let magnitude := functions.exp larger * -functions.expm1 (smaller - larger)
  if inference ≤ trainer then magnitude else -magnitude

omit [LinearOrder Scalar] in
/-- The sum of the values, each times its weight when there are weights. -/
def weightedSum (values : List Scalar) (weights : Option (List Scalar)) : Scalar :=
  match weights with
  | none => values.sum
  | some weights => (List.zipWith (· * ·) values weights).sum

/-- The policy gradient over the kept tokens with a signal, and the penalty on the
squared log-ratio of all tokens. The streams hold the selected tokens only. -/
def trustRegionLoss (functions : Exponential Scalar) (advTau klTau : Scalar)
    (trainerLogprobs inferenceLogprobs signal : List Scalar) (isMasked : List Bool)
    (weights : Option (List Scalar)) : Scalar :=
  let logImportanceRatio := List.zipWith (· - ·) trainerLogprobs inferenceLogprobs
  let pgMask := List.zipWith
    (fun masked value => !masked && decide (value ≠ 0) && decide (advTau ≠ 0)) isMasked signal
  let pgLoss := List.zipWith (fun value ratio => -advTau * value * functions.exp ratio)
    (select pgMask signal) (select pgMask logImportanceRatio)
  let loss := weightedSum pgLoss (weights.map (select pgMask))
  if klTau ≠ 0 then
    loss + klTau * weightedSum (logImportanceRatio.map (fun ratio => ratio ^ 2)) weights
  else loss

/-- Whether the probability of a token left the trust region in the direction of
its advantage. -/
def dppoMasked (config : DefaultLossConfig Scalar) (advantage difference : Scalar) : Bool :=
  if 0 < advantage then decide (config.dppoMaskHigh < difference)
  else decide (difference < -config.dppoMaskLow)

def defaultLossFn (functions : Exponential Scalar) (config : DefaultLossConfig Scalar) :
    LossFn Scalar := fun inputs =>
  let trainerLogprobs := select inputs.lossMask inputs.trainerLogprobs
  let inferenceLogprobs := select inputs.lossMask inputs.inferenceLogprobs
  let advantages := select inputs.lossMask inputs.advantages
  let weights := inputs.lossWeights.map (select inputs.lossMask)
  let probsDiff := List.zipWith (probabilityDifference functions) trainerLogprobs inferenceLogprobs
  let isMasked := List.zipWith (dppoMasked config) advantages probsDiff
  .ok (trustRegionLoss functions config.advTau config.klTau trainerLogprobs inferenceLogprobs
    advantages isMasked weights)

def ipoLossFn (functions : Exponential Scalar) (config : IPOLossConfig Scalar) :
    LossFn Scalar := fun inputs =>
  let trainerLogprobs := select inputs.lossMask inputs.trainerLogprobs
  let inferenceLogprobs := select inputs.lossMask inputs.inferenceLogprobs
  let advantages := select inputs.lossMask inputs.advantages
  let weights := inputs.lossWeights.map (select inputs.lossMask)
  let probsDiff := List.zipWith (probabilityDifference functions) trainerLogprobs inferenceLogprobs
  let isMasked := probsDiff.map (fun difference => decide (config.ipoThreshold < |difference|))
  .ok (trustRegionLoss functions config.advTau config.klTau trainerLogprobs inferenceLogprobs
    advantages isMasked weights)

/-- The divergence from the reference model is the signal, with temperature one. -/
def refKlLossFn (functions : Exponential Scalar) : LossFn Scalar := fun inputs =>
  match inputs.refLogprobs with
  | none => .error "ref_kl loss type requires ref_logprobs — use the 'opd' or 'opsd' algorithm."
  | some refLogprobs =>
    let trainerLogprobs := select inputs.lossMask inputs.trainerLogprobs
    let inferenceLogprobs := select inputs.lossMask inputs.inferenceLogprobs
    let weights := inputs.lossWeights.map (select inputs.lossMask)
    let probsDiff :=
      List.zipWith (probabilityDifference functions) trainerLogprobs inferenceLogprobs
    let isMasked := probsDiff.map (fun difference => decide (difference < -(1 / 5)))
    let refKl := List.zipWith (· - ·) (select inputs.lossMask refLogprobs) trainerLogprobs
    .ok (trustRegionLoss functions 1 (1 / 1000) trainerLogprobs inferenceLogprobs refKl isMasked
      weights)

omit [LinearOrder Scalar] in
/-- Masked negative log-likelihood. -/
def ceLossFn : LossFn Scalar := fun inputs =>
  let nll := (select inputs.lossMask inputs.trainerLogprobs).map (fun logprob => -logprob)
  .ok (weightedSum nll (inputs.lossWeights.map (select inputs.lossMask)))

def setupRlLossFn (functions : Exponential Scalar) : LossConfig Scalar → LossFn Scalar
  | .default config => defaultLossFn functions config
  | .ipo config => ipoLossFn functions config

end Components

/-! ## Sequences -/

/-- The streams of one sequence, with the weight streams that its row carries. -/
structure SequenceInputs (Scalar : Type) where
  trainerLogprobs : List Scalar
  inferenceLogprobs : List Scalar
  refLogprobs : Option (List Scalar)
  advantages : List Scalar
  lossMask : List Bool
  rlWeights : Option (List Scalar)
  ceWeights : Option (List Scalar)
  refKlWeights : Option (List Scalar)

def SequenceInputs.makeInputs (sequence : SequenceInputs Scalar) (componentMask : List Bool)
    (weights : Option (List Scalar)) : LossInputs Scalar where
  trainerLogprobs := sequence.trainerLogprobs
  inferenceLogprobs := sequence.inferenceLogprobs
  refLogprobs := sequence.refLogprobs
  advantages := sequence.advantages
  lossMask := componentMask
  lossWeights := weights

/-- Zip the sequences of all streams; an absent stream is absent in each. -/
def zipSequences (trainerLogprobs inferenceLogprobs : List (List Scalar))
    (refLogprobs : Option (List (List Scalar))) (advantages : List (List Scalar))
    (lossMask : List (List Bool))
    (rlWeights ceWeights refKlWeights : Option (List (List Scalar))) :
    List (SequenceInputs Scalar) :=
  let present (stream : Option (List (List Scalar))) : List (Option (List Scalar)) :=
    match stream with
    | none => List.replicate trainerLogprobs.length none
    | some sequences => sequences.map some
  (trainerLogprobs.zip (inferenceLogprobs.zip ((present refLogprobs).zip (advantages.zip
    (lossMask.zip ((present rlWeights).zip ((present ceWeights).zip
      (present refKlWeights)))))))).map
    (fun ⟨trainer, inference, ref, advantage, mask, rl, ce, refKl⟩ =>
      ⟨trainer, inference, ref, advantage, mask, rl, ce, refKl⟩)

section Sequences
variable [Field Scalar] [LinearOrder Scalar]

/-- The rl loss of a sequence: over its mask when its row carries no rl stream. -/
def rlLoss (rlLossFn : LossFn Scalar) (sequence : SequenceInputs Scalar) : Except String Scalar :=
  match sequence.rlWeights with
  | none => rlLossFn (sequence.makeInputs sequence.lossMask none)
  | some weights =>
      let rlMask := List.zipWith (fun trained weight => trained && decide (weight ≠ 0))
        sequence.lossMask weights
      if rlMask.any id then rlLossFn (sequence.makeInputs rlMask (some weights)) else .ok 0

/-- The loss of a component whose weight stream alone selects the tokens. -/
def weighedLoss (lossFn : LossFn Scalar) (sequence : SequenceInputs Scalar)
    (stream : Option (List Scalar)) : Except String Scalar :=
  match stream with
  | none => .ok 0
  | some weights =>
      let mask := weights.map (fun weight => decide (weight ≠ 0))
      if mask.any id then lossFn (sequence.makeInputs mask (some weights)) else .ok 0

/-- The (rl, ce, ref_kl) losses of one sequence. -/
def sequenceLosses (functions : Exponential Scalar) (rlLossFn : LossFn Scalar)
    (sequence : SequenceInputs Scalar) : Except String (Scalar × Scalar × Scalar) := do
  let rl ← rlLoss rlLossFn sequence
  let ce ← weighedLoss ceLossFn sequence sequence.ceWeights
  let refKl ← weighedLoss (refKlLossFn functions) sequence sequence.refKlWeights
  .ok (rl, ce, refKl)

/-- Add up the losses of the sequences in order. -/
def accumulateLosses (functions : Exponential Scalar) (rlLossFn : LossFn Scalar) :
    Scalar × Scalar × Scalar → List (SequenceInputs Scalar) →
      Except String (Scalar × Scalar × Scalar)
  | totals, [] => .ok totals
  | totals, sequence :: rest => do
      let losses ← sequenceLosses functions rlLossFn sequence
      accumulateLosses functions rlLossFn (totals + losses) rest

omit [LinearOrder Scalar] in
/-- Each component over its own scale. -/
def scaleLosses (scales : Nat × Nat × Nat) (losses : Scalar × Scalar × Scalar) : Scalar :=
  losses.1 / (scales.1 : Scalar) + losses.2.1 / (scales.2.1 : Scalar) +
    losses.2.2 / (scales.2.2 : Scalar)

def computeLoss (functions : Exponential Scalar)
    (trainerLogprobs inferenceLogprobs : List (List Scalar))
    (refLogprobs : Option (List (List Scalar))) (advantages : List (List Scalar))
    (lossMask : List (List Bool))
    (rlWeights ceWeights refKlWeights : Option (List (List Scalar)))
    (rlLossFn : LossFn Scalar) (scales : Nat × Nat × Nat) : Except String Scalar := do
  let losses ← accumulateLosses functions rlLossFn 0
    (zipSequences trainerLogprobs inferenceLogprobs refLogprobs advantages lossMask rlWeights
      ceWeights refKlWeights)
  .ok (scaleLosses scales losses)

end Sequences

/-! ## Rows -/

/-- The log-probability of a next token, from the tokens of its sequence before
it and the temperature of the last of them. -/
abbrev Model (Scalar : Type) := List Nat → Scalar → Nat → Scalar

/-- Labels: the next token of the row, and 0 at its end. -/
def shiftTensorLeft (tokens : List Nat) : List Nat := tokens.drop 1 ++ [0]

/-- Realign with the tokens: the value of the position before, and the padding
value at the front. -/
def shiftTensorRight (values : List Scalar) (padValue : Scalar) : List Scalar :=
  padValue :: values.dropLast

/-- Cut a stream into consecutive pieces of the given sizes. -/
def splitTensor {Value : Type} : List Nat → List Value → List (List Value)
  | [], _ => []
  | count :: rest, values => values.take count :: splitTensor rest (values.drop count)

/-- The log-probabilities of the labels of one sequence. -/
def sequenceForward (model : Model Scalar) (tokens : List Nat) (temperatures : List Scalar)
    (labels : List Nat) : List Scalar :=
  List.zipWith (fun next label => next label)
    (List.zipWith model ((List.range tokens.length).map (fun position => tokens.take (position + 1)))
      temperatures) labels

/-- The log-probabilities of the labels of a row: each sequence by itself. -/
def forward (model : Model Scalar) :
    List Nat → List Nat → List Scalar → List Nat → List Scalar
  | [], _, _, _ => []
  | count :: rest, tokens, temperatures, labels =>
      sequenceForward model (tokens.take count) (temperatures.take count) (labels.take count) ++
        forward model rest (tokens.drop count) (temperatures.drop count) (labels.drop count)

/-- The log-probability of each token of a row. -/
def trainerLogprobs (model : Model Scalar) (padValue : Scalar) (row : MicroBatch Scalar) :
    List Scalar :=
  shiftTensorRight (forward model row.sequenceLengths row.inputIds row.temperatures
    (shiftTensorLeft row.inputIds)) padValue

/-- What decides the loss of a row besides the row: the model, the value shifted
in at the front, the exponential and the loss of the rl component. -/
structure Objective (Scalar : Type) where
  model : Model Scalar
  padValue : Scalar
  functions : Exponential Scalar
  lossConfig : LossConfig Scalar

section Rows
variable [Field Scalar] [LinearOrder Scalar]

def Objective.rlLossFn (objective : Objective Scalar) : LossFn Scalar :=
  setupRlLossFn objective.functions objective.lossConfig

/-- The loss of one micro batch, split by its sequence lengths. -/
def microBatchLoss (objective : Objective Scalar) (scales : Nat × Nat × Nat)
    (row : MicroBatch Scalar) : Except String Scalar :=
  let pieces {Value : Type} (values : List Value) := splitTensor row.sequenceLengths values
  computeLoss objective.functions
    (pieces (trainerLogprobs objective.model objective.padValue row))
    (pieces row.inferenceLogprobs) (row.refLogprobs.map pieces) (pieces row.advantages)
    (pieces row.lossMask) (row.rlWeights.map pieces) (row.ceWeights.map pieces)
    (row.refKlWeights.map pieces) objective.rlLossFn scales

/-- The token counts of all workers, at least one for each component. -/
def globalLossScales (grid : List (List (MicroBatch Scalar))) : Nat × Nat × Nat :=
  let counts := (grid.map countLossTokens).sum
  (max counts.1 1, max counts.2.1 1, max counts.2.2 1)

/-- Add up the losses of micro batches. -/
def sumLosses (objective : Objective Scalar) (scales : Nat × Nat × Nat) :
    List (MicroBatch Scalar) → Except String Scalar
  | [] => .ok 0
  | row :: rest => do
      let loss ← microBatchLoss objective scales row
      let others ← sumLosses objective scales rest
      .ok (loss + others)

/-- The loss over all workers and their micro batches. -/
def gridLoss (objective : Objective Scalar) (grid : List (List (MicroBatch Scalar))) :
    Except String Scalar :=
  sumLosses objective (globalLossScales grid) grid.flatten

end Rows

end PrimeRl.Trainer.Loss
