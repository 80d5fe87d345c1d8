import Mathlib.Data.List.Sort
import Mathlib.Data.String.Basic
import PrimeRl.Support.Fallible
import PrimeRl.Support.Moments
import PrimeRl.Support.OrderedDict

/-!
# Streaming token statistics

Each rank keeps one summary for each key, which the values of a call are merged
into, so that neither storage nor communication grows with the tokens. The
summaries of all ranks are reduced when the statistics are computed. Arithmetic
is exact and values are finite, so no summary is marked as not a number.
-/

namespace PrimeRl.Trainer.Summaries

variable {Scalar : Type} [Field Scalar] [LinearOrder Scalar]

/-- Count, total and extremes of some values and, when the standard deviation is wanted,
the sum of their squared deviations from their mean. -/
structure Summary (Scalar : Type) where
  count : Nat
  total : Scalar
  minimum : WithTop Scalar
  maximum : WithBot Scalar
  squares : Option Scalar

/-- The values that a mask keeps, and a fill for the others. -/
def whereMask {Value : Type} (mask : Option (List Bool)) (values : List Value) (fill : Value) :
    List Value :=
  match mask with
  | none => values
  | some mask => List.zipWith (fun keep value => if keep then value else fill) mask values

/-- Number of the values that a mask keeps. -/
def keptCount (mask : Option (List Bool)) (values : List Scalar) : Nat :=
  match mask with
  | none => values.length
  | some mask => mask.count true

/-- The summary of the values of one call. -/
def summarize (includeStd : Bool) (values : List Scalar) (mask : Option (List Bool)) :
    Summary Scalar :=
  let selected := whereMask mask values 0
  let count := keptCount mask values
  let total := selected.sum
  let centered := whereMask mask (selected.map (· - total / (max count 1 : Nat))) 0
  { count := count
    total := total
    minimum := (whereMask mask (values.map WithTop.some) ⊤).foldr min ⊤
    maximum := (whereMask mask (values.map WithBot.some) ⊥).foldr max ⊥
    squares := if includeStd then some (centered.map (· ^ 2)).sum else none }

/-- The term for the distance of two means, which parts without values do not have. -/
def between (previous current : Summary Scalar) : Scalar :=
  let bothNonempty := 0 < previous.count ∧ 0 < current.count
  let previousMean := if bothNonempty then previous.total / (max previous.count 1 : Nat) else 0
  let currentMean := if bothNonempty then current.total / (max current.count 1 : Nat) else 0
  (currentMean - previousMean) ^ 2 * previous.count * current.count /
    (max (previous.count + current.count) 1 : Nat)

/-- Merge the summary of a call into the one before it. -/
def merge (previous current : Summary Scalar) : Summary Scalar where
  count := current.count + previous.count
  total := current.total + previous.total
  minimum := min current.minimum previous.minimum
  maximum := max current.maximum previous.maximum
  squares :=
    match current.squares, previous.squares with
    | some own, some earlier => some (own + (earlier + between previous current))
    | _, _ => none

structure TensorSummaries (Scalar : Type) where
  includeStd : Bool
  summaries : OrderedDict String (Summary Scalar)

def TensorSummaries.new (includeStd : Bool) : TensorSummaries Scalar := ⟨includeStd, .empty⟩

/-- The arguments of a call. -/
structure Call (Scalar : Type) where
  key : String
  values : List Scalar
  mask : Option (List Bool)

def TensorSummaries.add (self : TensorSummaries Scalar) (call : Call Scalar) :
    Except String (TensorSummaries Scalar) :=
  if call.mask.any (fun mask => decide (mask.length ≠ call.values.length)) then
    .error "Metric masks must be boolean and match the number of values"
  else
    let summary := summarize self.includeStd call.values call.mask
    let summary := match self.summaries.get? call.key with
      | none => summary
      | some previous => merge previous summary
    .ok { self with summaries := self.summaries.set call.key summary }

/-! ## Statistics over all ranks -/

/-- The keys of all ranks, each once, in order. -/
def sortedKeys (ranks : List (TensorSummaries Scalar)) : List String :=
  (ranks.flatMap (fun rank => rank.summaries.keys)).dedup.insertionSort (· ≤ ·)

/-- The summary of a key that a rank never saw. -/
def empty (includeStd : Bool) : Summary Scalar := ⟨0, 0, ⊤, ⊥, if includeStd then some 0 else none⟩

/-- The summaries of one key on all ranks, reduced. The reductions run over the rows of all
keys at once, elementwise. -/
def reduceRows (includeStd : Bool) (rows : List (Summary Scalar)) : Summary Scalar :=
  let count := (rows.map Summary.count).sum
  let total := (rows.map Summary.total).sum
  { count := count
    total := total
    minimum := (rows.map Summary.minimum).foldr min ⊤
    maximum := (rows.map Summary.maximum).foldr max ⊥
    squares :=
      if includeStd then
        some (rows.map (fun row =>
          let localMean : Scalar := if 0 < row.count then row.total / (max row.count 1 : Nat) else 0
          let globalMean : Scalar := if 0 < row.count then total / (max count 1 : Nat) else 0
          row.squares.getD 0 + row.count * (localMean - globalMean) ^ 2)).sum
      else none }

/-- A value of the metrics. -/
inductive Metric (Scalar : Type) where
  | int (value : Nat)
  | number (value : Scalar)
  | inf
  | negInf
  | nan
deriving DecidableEq, Repr

def Metric.ofMinimum : WithTop Scalar → Metric Scalar
  | none => .inf
  | some value => .number value

def Metric.ofMaximum : WithBot Scalar → Metric Scalar
  | none => .negInf
  | some value => .number value

/-- The metrics of a key. The square root is the one of the arithmetic. -/
def rowMetrics (root : Scalar → Scalar) (key : String) (row : Summary Scalar) :
    List (String × Metric Scalar) :=
  [(key ++ "/count", .int row.count),
    (key ++ "/mean", if row.count ≠ 0 then .number (row.total / row.count) else .nan),
    (key ++ "/min", if row.count ≠ 0 then .ofMinimum row.minimum else .nan),
    (key ++ "/max", if row.count ≠ 0 then .ofMaximum row.maximum else .nan)] ++
  match row.squares with
  | none => []
  | some squares =>
      [(key ++ "/std", if 1 < row.count then .number (root (squares / (row.count - 1))) else .nan)]

/-- The statistics that every rank computes, and the ranks afterwards. Ranks without any key
return before they clear what they keep, which is nothing. -/
def computeStats (root : Scalar → Scalar) (includeStd : Bool)
    (ranks : List (TensorSummaries Scalar)) :
    OrderedDict String (Metric Scalar) × List (TensorSummaries Scalar) :=
  let keys := sortedKeys ranks
  if keys.isEmpty then (.empty, ranks)
  else
    let rows := keys.map (fun key =>
      (key, reduceRows includeStd
        (ranks.map (fun rank => (rank.summaries.get? key).getD (empty includeStd)))))
    let metrics := rows.flatMap (fun row => rowMetrics root row.1 row.2)
    (metrics.foldl (fun metrics entry => metrics.set entry.1 entry.2) .empty,
      ranks.map (fun rank => { rank with summaries := .empty }))

end PrimeRl.Trainer.Summaries
