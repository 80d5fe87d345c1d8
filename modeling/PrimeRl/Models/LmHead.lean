import Mathlib.Algebra.BigOperators.Fin
import Mathlib.Algebra.Field.Defs
import Mathlib.Order.Defs.LinearOrder
import PrimeRl.Support.Tiles

/-!
# Log-probabilities over chunks of the vocabulary

The fused head never holds all logits. It walks the tokens in chunks, and for
each of them the vocabulary in chunks, where a running maximum and the sums
relative to it are updated. The backward pass recomputes the probabilities from
the normalizers that the forward pass saved.
-/

namespace PrimeRl.Models.LmHead

open Tiles

variable {Scalar : Type}

structure ExpLog (Scalar : Type) where
  exp : Scalar → Scalar
  log : Scalar → Scalar

/-- The chunk of the vocabulary that the head takes. -/
def vocabularyChunk (vocab : Nat) : Nat := min vocab 8192

/-- A running maximum, minus infinity before the first chunk. -/
inductive Extended (Scalar : Type) where
  | negInf
  | value (number : Scalar)
deriving DecidableEq, Repr

def Extended.maximum [LinearOrder Scalar] : Extended Scalar → Scalar → Extended Scalar
  | .negInf, second => .value second
  | .value first, second => .value (max first second)

/-- Maximum, normalizer, weighted sum and target logit of one token. -/
structure OnlineState (Scalar : Type) where
  m : Extended Scalar
  s : Scalar
  t : Scalar
  targetLogit : Scalar
deriving DecidableEq, Repr

structure TokenOutput (Scalar : Type) where
  logprob : Scalar
  entropy : Scalar
  logz : Scalar
deriving DecidableEq, Repr

section
variable [Field Scalar] (functions : ExpLog Scalar)

/-- The exponential of a difference. Minus infinity less itself is not a number, and a number
less minus infinity is infinite. -/
def expDifference : Extended Scalar → Extended Scalar → Option Scalar
  | .value first, .value second => some (functions.exp (first - second))
  | .negInf, .value _ => some 0
  | _, .negInf => none

variable [LinearOrder Scalar]

/-- The maximum of an empty chunk is an error. -/
def onlineLogsumexpAndWeightedUpdate (m : Extended Scalar) (s t : Scalar)
    (chunkLogits : List Scalar) : Option (Extended Scalar × Scalar × Scalar) := do
  let chunkM ← chunkLogits.max?
  let mNew := m.maximum chunkM
  let expOld ← expDifference functions m mNew
  let chunkExp ← chunkLogits.mapM (fun logit => expDifference functions (.value logit) mNew)
  some (mNew, s * expOld + chunkExp.sum,
    t * expOld + (List.zipWith (· * ·) chunkExp chunkLogits).sum)

/-- One chunk of the vocabulary for one token. -/
def visitChunk {vocab : Nat} (scaledLogits : Fin vocab → Scalar) (label : Fin vocab)
    (vocabChunkSize : Nat) (state : Option (OnlineState Scalar)) (vocabStart : Nat) :
    Option (OnlineState Scalar) := do
  let state ← state
  let vocabEnd := min (vocabStart + vocabChunkSize) vocab
  let chunk := (slice vocab vocabStart vocabEnd).map scaledLogits
  let (m, s, t) ← onlineLogsumexpAndWeightedUpdate functions state.m state.s state.t chunk
  let targetLogit ←
    if vocabStart ≤ label.val ∧ label.val < vocabEnd then chunk[label.val - vocabStart]?
    else some state.targetLogit
  some ⟨m, s, t, targetLogit⟩

/-- A logarithm or a quotient without a positive normalizer is not a number. -/
def finish (state : OnlineState Scalar) : Option (TokenOutput Scalar) :=
  match state.m with
  | .negInf => none
  | .value m =>
      if 0 < state.s then
        let logz := m + functions.log state.s
        some ⟨state.targetLogit - logz, logz - state.t / state.s, logz⟩
      else none

def tokenOutput {vocab : Nat} (scaledLogits : Fin vocab → Scalar) (label : Fin vocab)
    (vocabChunkSize : Nat) : Option (TokenOutput Scalar) :=
  ((starts vocab vocabChunkSize).foldl
    (visitChunk functions scaledLogits label vocabChunkSize)
    (some ⟨.negInf, 0, 0, 0⟩)).bind (finish functions)

end

section
variable [Field Scalar] {n features vocab : Nat} (hidden : Fin n → Fin features → Scalar)
  (weight : Fin vocab → Fin features → Scalar)

/-- A logit over the temperature of its token. -/
def scaledLogit (invTemperature : Fin n → Scalar) (token : Fin n) (choice : Fin vocab) : Scalar :=
  (∑ feature, hidden token feature * weight choice feature) * invTemperature token

variable [LinearOrder Scalar] (functions : ExpLog Scalar) (labels : Fin n → Fin vocab)
  (invTemperature : Fin n → Scalar) (chunkSize vocabChunkSize : Nat)

/-- Write the outputs of one chunk of tokens. -/
def writeChunk (outputs : Fin n → Option (TokenOutput Scalar)) (start : Nat) :
    Fin n → Option (TokenOutput Scalar) := fun token =>
  if start ≤ token.val ∧ token.val < min (start + chunkSize) n then
    tokenOutput functions (scaledLogit hidden weight invTemperature token) (labels token)
      vocabChunkSize
  else outputs token

/-- The output of each token. An entry is absent until its chunk is written, and when it is not a
number. -/
def forward : Option (Fin n → Option (TokenOutput Scalar)) :=
  if chunkSize = 0 then none
  else
    some ((starts n chunkSize).foldl
      (writeChunk hidden weight functions labels invTemperature chunkSize vocabChunkSize)
      (fun _ => none))

omit [LinearOrder Scalar] in
/-- The gradient of the logits of a chunk. Only the column of a label inside the chunk gets the
gradient of its token back. -/
def gradLogit (logz gradLogprobs : Fin n → Scalar) (vocabStart vocabEnd : Nat) (token : Fin n)
    (choice : Fin vocab) : Scalar :=
  let probability :=
    functions.exp (scaledLogit hidden weight invTemperature token choice - logz token)
  let masked := vocabStart ≤ (labels token).val ∧ (labels token).val < vocabEnd
  (-gradLogprobs token * probability +
    if masked ∧ choice.val - vocabStart = (labels token).val - vocabStart then gradLogprobs token
    else 0) * invTemperature token

/-- What a chunk of tokens and a chunk of the vocabulary add to the gradients. -/
def accumulateChunk (logz gradLogprobs : Fin n → Scalar) (start : Nat)
    (gradients : (Fin n → Fin features → Scalar) × (Fin vocab → Fin features → Scalar))
    (vocabStart : Nat) :
    (Fin n → Fin features → Scalar) × (Fin vocab → Fin features → Scalar) :=
  let stop := min (start + chunkSize) n
  let vocabEnd := min (vocabStart + vocabChunkSize) vocab
  let gradLogits :=
    gradLogit hidden weight functions labels invTemperature logz gradLogprobs vocabStart vocabEnd
  (fun token feature =>
    if start ≤ token.val ∧ token.val < stop then
      gradients.1 token feature + ((slice vocab vocabStart vocabEnd).map
        (fun choice => gradLogits token choice * weight choice feature)).sum
    else gradients.1 token feature,
   fun choice feature =>
    if vocabStart ≤ choice.val ∧ choice.val < vocabEnd then
      gradients.2 choice feature + ((slice n start stop).map
        (fun token => gradLogits token choice * hidden token feature)).sum
    else gradients.2 choice feature)

/-- The gradients of the hidden states and of the weight. A gradient of the entropy is refused. -/
def backward (logz gradLogprobs : Fin n → Scalar) (gradEntropy : Option (Fin n → Scalar)) :
    Option ((Fin n → Fin features → Scalar) × (Fin vocab → Fin features → Scalar)) :=
  if gradEntropy.all (fun gradients => decide (∀ token, gradients token = 0)) then
    some ((starts n chunkSize).foldl
      (fun gradients start =>
        (starts vocab vocabChunkSize).foldl
          (accumulateChunk hidden weight functions labels invTemperature chunkSize vocabChunkSize
            logz gradLogprobs start)
          gradients)
      (0, 0))
  else none

end

end PrimeRl.Models.LmHead
