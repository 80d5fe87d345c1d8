import PrimeRl.Support.Dispatch
import PrimeRl.Support.Exchange

/-!
# Mixture-of-experts layers

A router picks experts for each token. The layer sorts the picks by expert, lets each
expert work on its block of rows and adds the results back to their tokens. What torch
computes on one row is a parameter: the gate, an expert, a row times a score.
-/

namespace PrimeRl.Models.Moe

open Exchange Dispatch

variable {Score Row : Type} [Zero Score] [Add Score] [Mul Score] [Div Score] [AddCommMonoid Row]

inductive ScoreFunc where
  | softmax
  | sigmoid
deriving DecidableEq

/-! ## The router -/

structure TokenChoiceTopKRouter (Score Row : Type) where
  numExperts : Nat
  topK : Nat
  scoreFunc : ScoreFunc
  routeNorm : Bool
  routeScale : Score
  forceBalanced : Bool
  gate : Row → List Score
  sigmoid : Score → Score
  softmax : List Score → List Score
  /-- The largest scores with their indices. -/
  topk : List Score → Nat → List (Score × Nat)
  /-- What keeps a denominator away from zero. -/
  tiny : Score

/-- What a router gives for the rows of a batch. -/
structure Routing (Score : Type) where
  topScores : List (List Score)
  selectedExpertsIndices : List (List Nat)
  numTokensPerExpert : List Nat
  routingConfidenceSum : Score

def TokenChoiceTopKRouter.scores (router : TokenChoiceTopKRouter Score Row) (row : Row) :
    List Score :=
  match router.scoreFunc with
  | .sigmoid => (router.gate row).map router.sigmoid
  | .softmax => router.softmax (router.gate row)

/-- Scores at the indices of each row, if they all exist. -/
def gather (scores : List (List Score)) (index : List (List Nat)) : Option (List (List Score)) :=
  if index.length ≤ scores.length ∧
      ∀ pair ∈ scores.zip index, ∀ expert ∈ pair.2, expert < pair.1.length then
    some (List.zipWith (fun row chosen => chosen.map (row.getD · 0)) scores index)
  else none

/-- Picks that give every expert its turn. -/
def TokenChoiceTopKRouter.balanced (router : TokenChoiceTopKRouter Score Row) (numTokens : Nat) :
    List (List Nat) :=
  cut numTokens router.topK ((List.range (numTokens * router.topK)).map (· % router.numExperts))

/-- The scores of the picks, and the picks. The bias only has a part in the choice. -/
def TokenChoiceTopKRouter.select (router : TokenChoiceTopKRouter Score Row)
    (scores : List (List Score)) (expertBias : Option (List Score))
    (routedExperts : Option (List (List Nat))) : Option (List (List Score) × List (List Nat)) :=
  match routedExperts, expertBias with
  | some routed, _ => (gather scores routed).map (fun topScores => (topScores, routed))
  | none, bias =>
      if router.forceBalanced then
        let selected := router.balanced scores.length
        (gather scores selected).map (fun topScores => (topScores, selected))
      else
        match bias with
        | some bias =>
            let selected := scores.map (fun row =>
              (router.topk (List.zipWith (· + ·) row bias) router.topK).map Prod.snd)
            (gather scores selected).map (fun topScores => (topScores, selected))
        | none =>
            let largest := scores.map (router.topk · router.topK)
            some (largest.map (List.map Prod.fst), largest.map (List.map Prod.snd))

def selectedProbabilityMassSum (tiny : Score) (scores topScores : List (List Score))
    (scoreFunc : ScoreFunc) : Score :=
  match scoreFunc with
  | .softmax => (topScores.map List.sum).sum
  | .sigmoid =>
      (List.zipWith (fun row top => (top.map (· / (row.sum + tiny))).sum) scores topScores).sum

/-- The weights of one row's picks. -/
def TokenChoiceTopKRouter.weigh (router : TokenChoiceTopKRouter Score Row)
    (topScores : List Score) : List Score :=
  let normed :=
    if router.routeNorm then topScores.map (· / (topScores.sum + router.tiny)) else topScores
  normed.map (· * router.routeScale)

def TokenChoiceTopKRouter.forward (router : TokenChoiceTopKRouter Score Row) (x : List Row)
    (expertBias : Option (List Score)) (routedExperts : Option (List (List Nat))) :
    Option (Routing Score) :=
  if routedExperts.any (fun routed => routed.any (fun chosen => chosen.length != router.topK)) then
    none
  else
    let scores := x.map router.scores
    (router.select scores expertBias routedExperts).map fun selection =>
      { topScores := selection.1.map router.weigh
        selectedExpertsIndices := selection.2
        numTokensPerExpert := histogram router.numExperts selection.2.flatten
        routingConfidenceSum :=
          selectedProbabilityMassSum router.tiny scores selection.1 router.scoreFunc }

/-! ## Sorting tokens by expert -/

structure Reordering (Score : Type) where
  topScoresExpertsSorted : List Score
  tokenIndicesExpertsSorted : List Nat
  numTokensPerExpert : List Nat

def tokenReorderer (numExperts topK : Nat) (topScores : List (List Score))
    (selectedExpertsIndices : List (List Nat)) : Reordering Score :=
  let selected := selectedExpertsIndices.flatten
  let order := Argsort.argsort (selected.map Int.ofNat)
  { topScoresExpertsSorted := order.map (topScores.flatten.getD · 0)
    tokenIndicesExpertsSorted := order.map (· / topK)
    numTokensPerExpert := histogram numExperts selected }

/-- Each expert works on its block, and rows behind the last block give zeros. -/
def runExpertsForLoop (expert : Nat → Row → Row) (x : List Row) (numTokensPerExpert : List Nat) :
    List Row :=
  let counted := x.take numTokensPerExpert.sum
  ((numTokensPerExpert.splitLengths counted).zipIdx).flatMap
      (fun block => block.1.map (expert block.2)) ++
    List.replicate (x.length - numTokensPerExpert.sum) 0

/-! ## The layer -/

structure MoE (Score Row : Type) where
  router : TokenChoiceTopKRouter Score Row
  experts : Nat → Row → Row
  sharedExpert : Option (Row → Row)
  scoreBeforeExperts : Bool
  expertBias : Option (List Score)
  /-- A row times a score, in the dtype of the row. -/
  scaled : Row → Score → Row

/-- What the layer adds up over its calls. -/
structure Buffers (Score : Type) where
  tokensPerExpert : List Nat
  routingConfidenceSum : Score

def MoE.runRoutedExperts (moe : MoE Score Row) (x : List Row) (reordering : Reordering Score) :
    List Row :=
  let routedInput := reordering.tokenIndicesExpertsSorted.map (x.getD · 0)
  let routedInput :=
    if moe.scoreBeforeExperts then
      List.zipWith moe.scaled routedInput reordering.topScoresExpertsSorted
    else routedInput
  let routedOutput := runExpertsForLoop moe.experts routedInput reordering.numTokensPerExpert
  if moe.scoreBeforeExperts then routedOutput
  else List.zipWith moe.scaled routedOutput reordering.topScoresExpertsSorted

def MoE.shared (moe : MoE Score Row) (row : Row) : Row :=
  match moe.sharedExpert with
  | some expert => expert row
  | none => 0

def MoE.forward (moe : MoE Score Row) (buffers : Buffers Score) (x : List (List Row))
    (routedExperts : Option (List (List (List Nat)))) :
    Option (List (List Row) × Buffers Score) :=
  let bs := x.length
  let slen := (x.headD []).length
  let rows := x.flatten
  (moe.router.forward rows moe.expertBias (routedExperts.map List.flatten)).map fun routing =>
    let reordering := tokenReorderer moe.router.numExperts moe.router.topK routing.topScores
      routing.selectedExpertsIndices
    let routedOutput := moe.runRoutedExperts rows reordering
    let out := scatterAdd (rows.map moe.shared)
      (reordering.tokenIndicesExpertsSorted.zip routedOutput)
    (cut bs slen out,
      { tokensPerExpert :=
          List.zipWith (· + ·) buffers.tokensPerExpert routing.numTokensPerExpert
        routingConfidenceSum := buffers.routingConfidenceSum + routing.routingConfidenceSum })

end PrimeRl.Models.Moe
