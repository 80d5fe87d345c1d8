import Mathlib.Algebra.BigOperators.Ring.List
import Mathlib.Algebra.Ring.Int.Defs
import Mathlib.Algebra.Ring.Nat
import PrimeRl.Support.Sums
import PrimeRl.Trainer.Loss

/-!
# The loss of a sequence as a sum over its tokens

A component loss selects tokens by a mask and sums over what is selected. Read
at the tokens of the sequence, each component is the sum over all tokens of a
loss of the token alone times its weight: a token that is not selected has
weight zero or is masked.
-/

namespace PrimeRl.Trainer.Loss

open PrimeRl.Transport PrimeRl.Trainer.Batch

variable {Scalar Token Value : Type}

theorem select_map (tokens : List Token) (mask : Token → Bool) (value : Token → Value) :
    select (tokens.map mask) (tokens.map value) = (tokens.filter mask).map value := by
  induction tokens with
  | nil => rfl
  | cons token rest inductionHypothesis =>
    rw [select] at inductionHypothesis ⊢
    rw [List.map_cons, List.map_cons, List.zip_cons_cons, List.filterMap_cons,
      inductionHypothesis]
    cases selected : mask token with
    | false => simp [selected]
    | true => simp [selected]

theorem select_weights (tokens : List Token) (mask : Token → Bool)
    (weights : Option (Token → Value)) :
    (weights.map (fun weight => tokens.map weight)).map (select (tokens.map mask)) =
      weights.map (fun weight => (tokens.filter mask).map weight) := by
  rw [Option.map_map]
  congr 1
  exact funext (fun weight => select_map tokens mask weight)

theorem zip_with_map {First Second Result : Type} (combine : First → Second → Result)
    (tokens : List Token) (first : Token → First) (second : Token → Second) :
    List.zipWith combine (tokens.map first) (tokens.map second) =
      tokens.map (fun token => combine (first token) (second token)) := by
  rw [List.zipWith_map, List.zipWith_self]

section Weights
variable [Zero Scalar] [One Scalar]

omit [Zero Scalar] in
/-- The weight of a token in a stream; absent weights are one. -/
def weightAt (weights : Option (Token → Scalar)) (token : Token) : Scalar :=
  (weights.map (fun weight => weight token)).getD 1

end Weights

section Components
variable [Field Scalar] [LinearOrder Scalar]

omit [LinearOrder Scalar] in
theorem weighted_sum_tokens (tokens : List Token) (value : Token → Scalar)
    (weights : Option (Token → Scalar)) :
    weightedSum (tokens.map value) (weights.map (fun weight => tokens.map weight)) =
      (tokens.map (fun token => value token * weightAt weights token)).sum := by
  cases weights with
  | none =>
    rw [Option.map_none, weightedSum]
    congr 1
    exact List.map_congr_left (fun token _ => (mul_one (value token)).symm)
  | some weight =>
    rw [Option.map_some, weightedSum, zip_with_map]
    rfl

/-- The loss of a selected token with weight one: its policy gradient, when it is
kept and has a signal, and its penalty. -/
def tokenLoss (functions : Exponential Scalar) (advTau klTau trainer inference signal : Scalar)
    (masked : Bool) : Scalar :=
  (if (!masked && decide (signal ≠ 0) && decide (advTau ≠ 0)) = true then
    -advTau * signal * functions.exp (trainer - inference) else 0) +
    klTau * (trainer - inference) ^ 2

theorem trust_region_tokens (functions : Exponential Scalar) (advTau klTau : Scalar)
    (tokens : List Token) (trainer inference signal : Token → Scalar) (masked : Token → Bool)
    (weights : Option (Token → Scalar)) :
    trustRegionLoss functions advTau klTau (tokens.map trainer) (tokens.map inference)
        (tokens.map signal) (tokens.map masked) (weights.map (fun weight => tokens.map weight)) =
      (tokens.map (fun token => tokenLoss functions advTau klTau (trainer token) (inference token)
        (signal token) (masked token) * weightAt weights token)).sum := by
  obtain ⟨kept, isKept⟩ : ∃ kept : Token → Bool, kept = fun token =>
    !masked token && decide (signal token ≠ 0) && decide (advTau ≠ 0) := ⟨_, rfl⟩
  have gradient : weightedSum
      (List.zipWith (fun value ratio => -advTau * value * functions.exp ratio)
        (select (tokens.map kept) (tokens.map signal))
        (select (tokens.map kept) (tokens.map (fun token => trainer token - inference token))))
      ((weights.map (fun weight => tokens.map weight)).map (select (tokens.map kept))) =
      (tokens.map (fun token => (if kept token then
        -advTau * signal token * functions.exp (trainer token - inference token) else 0) *
          weightAt weights token)).sum := by
    rw [select_weights, select_map, select_map, zip_with_map, weighted_sum_tokens, Sums.sum_filter_map]
    congr 1
    apply List.map_congr_left
    intro token _
    cases kept token with
    | false => exact (zero_mul _).symm
    | true => rfl
  have penalty : weightedSum
      ((tokens.map (fun token => trainer token - inference token)).map (fun ratio => ratio ^ 2))
      (weights.map (fun weight => tokens.map weight)) =
      (tokens.map (fun token => (trainer token - inference token) ^ 2 *
        weightAt weights token)).sum := by
    rw [List.map_map]
    exact weighted_sum_tokens tokens _ weights
  have split : (tokens.map (fun token => tokenLoss functions advTau klTau (trainer token)
      (inference token) (signal token) (masked token) * weightAt weights token)).sum =
      (tokens.map (fun token => (if kept token then
        -advTau * signal token * functions.exp (trainer token - inference token) else 0) *
          weightAt weights token)).sum +
      klTau * (tokens.map (fun token => (trainer token - inference token) ^ 2 *
        weightAt weights token)).sum := by
    rw [← List.sum_map_mul_left, ← List.sum_map_add]
    congr 1
    apply List.map_congr_left
    intro token _
    rw [tokenLoss, add_mul, mul_assoc klTau, isKept]
  rw [trustRegionLoss]
  simp only [zip_with_map, ← isKept, gradient, penalty, split]
  by_cases absent : klTau = 0
  · rw [if_neg (not_not_intro absent), absent, zero_mul, add_zero]
  · rw [if_pos absent]

/-- The rl loss of a selected token with weight one. -/
def rlTokenLoss (functions : Exponential Scalar) (lossConfig : LossConfig Scalar)
    (trainer inference advantage : Scalar) : Scalar :=
  let difference := probabilityDifference functions trainer inference
  match lossConfig with
  | .default config => tokenLoss functions config.advTau config.klTau trainer inference advantage
      (dppoMasked config advantage difference)
  | .ipo config => tokenLoss functions config.advTau config.klTau trainer inference advantage
      (decide (config.ipoThreshold < |difference|))

/-- The ref_kl loss of a selected token with weight one. -/
def refKlTokenLoss (functions : Exponential Scalar) (trainer inference ref : Scalar) : Scalar :=
  tokenLoss functions 1 (1 / (1000 : Nat)) trainer inference (ref - trainer)
    (decide (probabilityDifference functions trainer inference < -(1 / (5 : Nat))))

/-- The inputs of a component, read at the tokens of its sequence. -/
def LossInputs.tabulate (tokens : List Token) (trainer inference advantage : Token → Scalar)
    (ref : Option (Token → Scalar)) (mask : Token → Bool) (weights : Option (Token → Scalar)) :
    LossInputs Scalar where
  trainerLogprobs := tokens.map trainer
  inferenceLogprobs := tokens.map inference
  refLogprobs := ref.map (fun ref => tokens.map ref)
  advantages := tokens.map advantage
  lossMask := tokens.map mask
  lossWeights := weights.map (fun weight => tokens.map weight)

variable (functions : Exponential Scalar) (tokens : List Token)
  (trainer inference advantage : Token → Scalar) (mask : Token → Bool)
  (weights : Option (Token → Scalar))

theorem rl_loss_tokens (lossConfig : LossConfig Scalar) (ref : Option (Token → Scalar)) :
    setupRlLossFn functions lossConfig
        (LossInputs.tabulate tokens trainer inference advantage ref mask weights) =
      .ok (tokens.map (fun token => if mask token then
        rlTokenLoss functions lossConfig (trainer token) (inference token) (advantage token) *
          weightAt weights token else 0)).sum := by
  rw [← Sums.sum_filter_map]
  cases lossConfig with
  | default config =>
    simp only [setupRlLossFn, defaultLossFn, LossInputs.tabulate, select_map, select_weights,
      zip_with_map, trust_region_tokens, rlTokenLoss]
  | ipo config =>
    simp only [setupRlLossFn, ipoLossFn, LossInputs.tabulate, select_map, select_weights,
      zip_with_map, List.map_map]
    exact congrArg Except.ok (trust_region_tokens functions config.advTau config.klTau
      (tokens.filter mask) trainer inference advantage _ weights)

omit [LinearOrder Scalar] in
theorem ce_loss_tokens (ref : Option (Token → Scalar)) :
    ceLossFn (LossInputs.tabulate tokens trainer inference advantage ref mask weights) =
      .ok (tokens.map (fun token => if mask token then
        -trainer token * weightAt weights token else 0)).sum := by
  rw [← Sums.sum_filter_map]
  simp only [ceLossFn, LossInputs.tabulate, select_map, select_weights, List.map_map]
  exact congrArg Except.ok (weighted_sum_tokens (tokens.filter mask) _ weights)

theorem ref_kl_loss_tokens (ref : Token → Scalar) :
    refKlLossFn functions
        (LossInputs.tabulate tokens trainer inference advantage (some ref) mask weights) =
      .ok (tokens.map (fun token => if mask token then
        refKlTokenLoss functions (trainer token) (inference token) (ref token) *
          weightAt weights token else 0)).sum := by
  rw [← Sums.sum_filter_map]
  simp only [refKlLossFn, LossInputs.tabulate, Option.map_some, select_map, select_weights,
    zip_with_map, List.map_map]
  exact congrArg Except.ok (trust_region_tokens functions 1 (1 / 1000) (tokens.filter mask) trainer
    inference (fun token => ref token - trainer token) _ weights)

end Components

/-! ## One sequence -/

/-- The streams of a sequence, read at its tokens. -/
def SequenceInputs.tabulate (tokens : List Token) (trainer inference advantage : Token → Scalar)
    (mask : Token → Bool) (ref rl ce refKl : Option (Token → Scalar)) : SequenceInputs Scalar :=
  let column (stream : Option (Token → Scalar)) := stream.map (fun value => tokens.map value)
  { trainerLogprobs := tokens.map trainer
    inferenceLogprobs := tokens.map inference
    refLogprobs := column ref
    advantages := tokens.map advantage
    lossMask := tokens.map mask
    rlWeights := column rl
    ceWeights := column ce
    refKlWeights := column refKl }

section Sequences
variable [Field Scalar] [LinearOrder Scalar]

omit [LinearOrder Scalar] in
/-- Adding up what no token carries. -/
theorem sum_unselected (tokens : List Token) (mask : Token → Bool) (value : Token → Scalar)
    (empty : (tokens.map mask).any id = false) :
    (tokens.map (fun token => if mask token then value token else 0)).sum = 0 := by
  apply List.sum_eq_zero
  intro loss member
  obtain ⟨token, inside, rfl⟩ := List.mem_map.mp member
  have unselected : ¬ mask token = true :=
    List.any_eq_false.mp empty _ (List.mem_map_of_mem inside)
  exact if_neg unselected

variable (functions : Exponential Scalar) (lossConfig : LossConfig Scalar) (tokens : List Token)
  (trainer inference advantage : Token → Scalar) (mask : Token → Bool)
  (ref rl ce refKl : Option (Token → Scalar))

/-- Absent and present rl streams agree: a token of weight zero adds nothing. -/
theorem rl_sequence_tokens :
    rlLoss (setupRlLossFn functions lossConfig)
        (SequenceInputs.tabulate tokens trainer inference advantage mask ref rl ce refKl) =
      .ok (tokens.map (fun token => if mask token then
        rlTokenLoss functions lossConfig (trainer token) (inference token) (advantage token) *
          weightAt rl token else 0)).sum := by
  cases rl with
  | none => exact rl_loss_tokens functions tokens trainer inference advantage mask none lossConfig ref
  | some weight =>
    obtain ⟨live, isLive⟩ : ∃ live : Token → Bool,
      live = fun token => mask token && decide (weight token ≠ 0) := ⟨_, rfl⟩
    have same : (tokens.map (fun token => if mask token then
        rlTokenLoss functions lossConfig (trainer token) (inference token) (advantage token) *
          weightAt (some weight) token else 0)) =
        tokens.map (fun token => if live token then
          rlTokenLoss functions lossConfig (trainer token) (inference token) (advantage token) *
            weightAt (some weight) token else 0) := by
      apply List.map_congr_left
      intro token _
      rw [isLive]
      by_cases zero : weight token = 0
      · simp [zero, weightAt]
      · simp [zero]
    have masked : List.zipWith (fun trained weight => trained && decide (weight ≠ 0))
        (tokens.map mask) (tokens.map weight) = tokens.map live := by
      rw [zip_with_map, isLive]
    rw [same]
    simp only [rlLoss, SequenceInputs.tabulate, Option.map_some, masked]
    cases empty : (tokens.map live).any id with
    | false => rw [if_neg Bool.false_ne_true, sum_unselected tokens live _ empty]
    | true =>
      rw [if_pos rfl]
      exact rl_loss_tokens functions tokens trainer inference advantage live (some weight)
        lossConfig ref

/-- A component that its weight stream selects: a token of weight zero adds nothing. -/
theorem weighed_sequence_tokens (lossFn : LossFn Scalar) (stream : Option (Token → Scalar))
    (loss : Token → Scalar)
    (computed : ∀ weight, stream = some weight → (∃ token ∈ tokens, weight token ≠ 0) →
      lossFn (LossInputs.tabulate tokens trainer inference advantage ref
        (fun token => decide (weight token ≠ 0)) (some weight)) =
        .ok (tokens.map (fun token => if decide (weight token ≠ 0) then
          loss token * weightAt (some weight) token else 0)).sum) :
    weighedLoss lossFn
        (SequenceInputs.tabulate tokens trainer inference advantage mask ref rl ce refKl)
        (stream.map (fun value => tokens.map value)) =
      .ok (tokens.map (fun token => loss token *
        (stream.map (fun weight => weight token)).getD 0)).sum := by
  cases stream with
  | none =>
    refine congrArg Except.ok (List.sum_eq_zero ?_).symm
    intro value member
    obtain ⟨token, -, rfl⟩ := List.mem_map.mp member
    exact mul_zero _
  | some weight =>
    have same : (tokens.map (fun token => loss token *
        ((some weight).map (fun weight => weight token)).getD 0)) =
        tokens.map (fun token => if decide (weight token ≠ 0) then
          loss token * weightAt (some weight) token else 0) := by
      apply List.map_congr_left
      intro token _
      by_cases zero : weight token = 0
      · simp [zero]
      · simp [zero, weightAt]
    have live : (tokens.map weight).map (fun weight => decide (weight ≠ 0)) =
        tokens.map (fun token => decide (weight token ≠ 0)) := List.map_map
    rw [same]
    simp only [weighedLoss, Option.map_some, live]
    cases empty : (tokens.map (fun token => decide (weight token ≠ 0))).any id with
    | false => rw [if_neg Bool.false_ne_true, sum_unselected tokens _ _ empty]
    | true =>
      rw [if_pos rfl]
      obtain ⟨entry, inside, selected⟩ := List.any_eq_true.mp empty
      obtain ⟨token, member, rfl⟩ := List.mem_map.mp inside
      exact computed weight rfl ⟨token, member, of_decide_eq_true selected⟩

/-- The (rl, ce, ref_kl) losses of one token. -/
def tokenLosses (functions : Exponential Scalar) (lossConfig : LossConfig Scalar)
    (trainer inference ref advantage : Scalar) (trained : Bool) (rl ce refKl : Scalar) :
    Scalar × Scalar × Scalar :=
  (if trained then rlTokenLoss functions lossConfig trainer inference advantage * rl else 0,
    -trainer * ce, refKlTokenLoss functions trainer inference ref * refKl)

omit [LinearOrder Scalar] in
theorem sum_components (first second third : Token → Scalar) :
    (tokens.map (fun token => (first token, second token, third token))).sum =
      ((tokens.map first).sum, (tokens.map second).sum, (tokens.map third).sum) := by
  induction tokens with
  | nil => rfl
  | cons token rest inductionHypothesis =>
    rw [List.map_cons, List.sum_cons, inductionHypothesis]
    rfl

/-- The losses of a sequence are summed over its tokens. A token with a ref_kl
weight needs the reference log-probabilities. -/
theorem sequence_losses_tokens
    (referenced : ref = none → ∀ weight, refKl = some weight → ∀ token ∈ tokens, weight token = 0) :
    sequenceLosses functions (setupRlLossFn functions lossConfig)
        (SequenceInputs.tabulate tokens trainer inference advantage mask ref rl ce refKl) =
      .ok (tokens.map (fun token => tokenLosses functions lossConfig (trainer token)
        (inference token) ((ref.map (fun value => value token)).getD 0) (advantage token)
        (mask token) (weightAt rl token) ((ce.map (fun weight => weight token)).getD 0)
        ((refKl.map (fun weight => weight token)).getD 0))).sum := by
  obtain ⟨sequence, isSequence⟩ : ∃ sequence, sequence = SequenceInputs.tabulate tokens trainer
    inference advantage mask ref rl ce refKl := ⟨_, rfl⟩
  have rlTokens := rl_sequence_tokens functions lossConfig tokens trainer inference advantage mask
    ref rl ce refKl
  have ceTokens : weighedLoss ceLossFn sequence sequence.ceWeights =
      .ok (tokens.map (fun token => -trainer token *
        (ce.map (fun weight => weight token)).getD 0)).sum := by
    rw [isSequence]
    exact weighed_sequence_tokens tokens trainer inference advantage mask ref rl ce refKl ceLossFn
      ce (fun token => -trainer token)
      (fun weight _ _ => ce_loss_tokens tokens trainer inference advantage _ (some weight) ref)
  have refKlTokens : weighedLoss (refKlLossFn functions) sequence sequence.refKlWeights =
      .ok (tokens.map (fun token => refKlTokenLoss functions (trainer token) (inference token)
        ((ref.map (fun value => value token)).getD 0) *
          (refKl.map (fun weight => weight token)).getD 0)).sum := by
    rw [isSequence]
    apply weighed_sequence_tokens tokens trainer inference advantage mask ref rl ce refKl
      (refKlLossFn functions) refKl
    rintro weight present ⟨token, member, live⟩
    cases ref with
    | none => exact absurd (referenced rfl weight present token member) live
    | some value =>
      exact ref_kl_loss_tokens functions tokens trainer inference advantage _ (some weight) value
  unfold tokenLosses
  rw [← isSequence] at rlTokens ⊢
  rw [sequenceLosses, rlTokens, ceTokens, refKlTokens, sum_components]
  rfl

end Sequences

end PrimeRl.Trainer.Loss
