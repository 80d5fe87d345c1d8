import Mathlib.Algebra.Order.Group.Nat
import Mathlib.Data.Int.Order.Basic
import Mathlib.Data.List.Basic
import PrimeRl.Transport.Types

/-!
# The adapter of each token

A micro batch counts its tokens by adapter slot. The trainer cuts the counts to
the chunk of a context-parallel rank, and two kinds of layer read them: a linear
layer as intervals, grouped experts as a vote for one adapter. Counts and
offsets are 32-bit integers. The loop over the intervals stands for the grouped
product too, which reads the same offsets.
-/

namespace PrimeRl.Trainer.Lora

open PrimeRl.Transport

variable {Scalar Factor : Type}

/-- The value that is left of an integer in 32 bits. -/
def int32 (value : Int) : Int := value.bmod (2 ^ 32)

/-! ## The counts of a shard -/

/-- The counts of a row; a row without counts is the first run's. -/
def rowCounts (maxRuns : Nat) (row : MicroBatch Scalar) : Except String (List Nat) :=
  match row.loraNumTokens with
  | some counts => .ok counts
  | none =>
      if maxRuns = 0 then .error "list assignment index out of range"
      else .ok ((List.replicate maxRuns 0).set 0 row.inputIds.length)

def int32Tensor (values : List Nat) : Except String (List Int) :=
  if values.any (fun value => decide (2 ^ 31 ≤ value)) then
    .error "value cannot be converted to type int32 without overflow"
  else .ok (values.map Int.ofNat)

/-- Running sums behind a total. -/
def cumsum : Int → List Int → List Int
  | _, [] => []
  | total, count :: rest => int32 (total + count) :: cumsum (int32 (total + count)) rest

def clip (lower upper value : Int) : Int := min (max value lower) upper

/-- Differences of neighbours, the first one to a given value. -/
def diff : Int → List Int → List Int
  | _, [] => []
  | previous, value :: rest => int32 (value - previous) :: diff value rest

/-- Convert to offsets, adjust them for the chunk of a rank, convert back. -/
def adjustLoraNumTokens (counts : List Int) (chunkSize cpRank : Nat) : List Int :=
  diff 0 ((cumsum 0 counts).map
    (fun offset => clip 0 chunkSize (int32 (offset - chunkSize * cpRank))))

/-- The chunk of a rank, when a row is cut into equal chunks, the last one shorter. -/
def shardForCp (values : List Nat) (cpRank cpSize : Nat) : Except String (List Nat) :=
  let size := (values.length + cpSize - 1) / cpSize
  if values ≠ [] ∧ values.length ≤ cpRank * size then .error "tuple index out of range"
  else .ok ((values.drop (cpRank * size)).take size)

def hasImages (row : MicroBatch Scalar) : Bool :=
  row.mmKwargs.any (fun kwargs => !kwargs.isEmpty)

/-- The tokens of a rank and their counts by adapter slot. -/
structure Shard where
  inputIds : List Nat
  loraNumTokens : List Int
deriving DecidableEq, Repr

/-- What the trainer loop hands to the layers for a micro batch. -/
def loraShard (maxRuns : Nat) (row : MicroBatch Scalar) (cpSize cpRank : Nat) :
    Except String Shard := do
  let counts ← int32Tensor (← rowCounts maxRuns row)
  if 1 < cpSize then
    if hasImages row then
      .error "Context parallelism is not supported with VLM/multimodal training"
    else
      let inputIds ← shardForCp row.inputIds cpRank cpSize
      return ⟨inputIds, adjustLoraNumTokens counts inputIds.length cpRank⟩
  else return ⟨row.inputIds, counts⟩

/-! ## The layers -/

/-- An index from the end when negative, kept inside the dimension. -/
def clampIndex (size : Nat) (index : Int) : Nat :=
  if index < 0 then (index + size).toNat else min index.toNat size

/-- The positions of a slice of a dimension. -/
def slice (size : Nat) (start stop : Int) : List Nat :=
  List.range' (clampIndex size start) (clampIndex size stop - clampIndex size start)

/-- The positions that each adapter multiplies, adapter by adapter, which is the
order of the output. -/
def runLoraForLoop (size : Nat) : Nat → Int → List Int → List (Nat × Nat)
  | _, _, [] => []
  | adapter, start, stop :: rest =>
      (slice size start stop).map (fun position => (position, adapter)) ++
        runLoraForLoop size (adapter + 1) stop rest

/-- Repeat each factor as often as its count says. -/
def repeatInterleave (factors : List Factor) (counts : List Int) : Except String (List Factor) :=
  if factors.length ≠ counts.length then
    .error "repeats must have the same size as input along dim"
  else if counts.any (fun count => decide (count < 0)) then .error "repeats can not be negative"
  else .ok (List.zipWith (fun factor count => List.replicate count.toNat factor) factors counts).flatten

/-- What a row of the output adds to the base layer: the product of a token with
an adapter, scaled by a factor. -/
structure TokenUse (Factor : Type) where
  position : Nat
  adapter : Nat
  factor : Factor
deriving DecidableEq, Repr

/-- The forward pass of a linear layer on a shard of `size` tokens. -/
def multiLoraLinear (factors : List Factor) (size : Nat) (loraNumTokens : List Int) :
    Except String (List (TokenUse Factor)) :=
  let offsets := cumsum 0 loraNumTokens
  match offsets.getLast? with
  | none => .error "index -1 is out of bounds for dimension 0 with size 0"
  | some last =>
      if last ≠ size then .error s!"offsets: {offsets}, x.shape: {size}"
      else
        let loraOut := runLoraForLoop size 0 0 offsets
        match repeatInterleave factors loraNumTokens with
        | .error message => .error message
        | .ok perTokenScaling =>
            if perTokenScaling.length ≠ loraOut.length then
              .error "The size of tensor a must match the size of tensor b"
            else .ok (List.zipWith (fun row factor => ⟨row.1, row.2, factor⟩) loraOut perTokenScaling)

/-- The first position of a greatest count. -/
def argmax (counts : List Int) : Option Nat :=
  counts.max?.map (fun greatest => counts.idxOf greatest)

/-- The adapter that grouped experts choose for all tokens, with its factor. -/
def multiLoraGroupedExperts (factors : List Factor) (loraNumTokens : List Int) :
    Except String (Nat × Factor) :=
  match argmax loraNumTokens with
  | none => .error "argmax(): Expected reduction dim to be specified for input.numel() == 0."
  | some adapterIdx =>
      match factors[adapterIdx]? with
      | some factor => .ok (adapterIdx, factor)
      | none => .error "index out of range"

end PrimeRl.Trainer.Lora
