import Mathlib.Analysis.Calculus.FDeriv.Mul
import Mathlib.Analysis.Calculus.FDeriv.Prod
import PrimeRl.Models.LmHeadForward

/-!
# Gradients over chunks of the vocabulary

The gradient of a logit is that of the log-softmax at its label. Each chunk adds
what its tokens and its part of the vocabulary contribute, so that after all of
them the hidden states and the weight carry their whole gradients.
-/

namespace PrimeRl.Models.LmHead

open Tiles Softmax

section
variable {n features vocab : Nat} (hidden : Fin n → Fin features → ℝ)
  (weight : Fin vocab → Fin features → ℝ) (labels : Fin n → Fin vocab)
  (invTemperature gradLogprobs : Fin n → ℝ)

/-! ## What the chunks add up to -/

/-- The gradient of an unscaled logit. -/
noncomputable def directGradLogit (token : Fin n) (choice : Fin vocab) : ℝ :=
  (-gradLogprobs token * prob (scaledLogit hidden weight invTemperature token) choice +
    if choice = labels token then gradLogprobs token else 0) * invTemperature token

/-- The gradients of the hidden states and of the weight, from all gradients of logits. -/
noncomputable def directGradients :
    (Fin n → Fin features → ℝ) × (Fin vocab → Fin features → ℝ) :=
  (fun token feature => ∑ choice,
    directGradLogit hidden weight labels invTemperature gradLogprobs token choice *
      weight choice feature,
   fun choice feature => ∑ token,
    directGradLogit hidden weight labels invTemperature gradLogprobs token choice *
      hidden token feature)

/-- The normalizers that the forward pass saves. -/
noncomputable def savedLogz (token : Fin n) : ℝ :=
  Real.log (partition (scaledLogit hidden weight invTemperature token))

/-- Inside its chunk a logit has its direct gradient. -/
theorem grad_logit_eq {vocabStart vocabEnd : Nat} (token : Fin n) {choice : Fin vocab}
    (above : vocabStart ≤ choice.val) (below : choice.val < vocabEnd) :
    gradLogit hidden weight realFunctions labels invTemperature
        (savedLogz hidden weight invTemperature) gradLogprobs vocabStart vocabEnd token choice =
      directGradLogit hidden weight labels invTemperature gradLogprobs token choice := by
  have choices : Nonempty (Fin vocab) := ⟨choice⟩
  have column : ((vocabStart ≤ (labels token).val ∧ (labels token).val < vocabEnd) ∧
      choice.val - vocabStart = (labels token).val - vocabStart) ↔ choice = labels token := by
    constructor
    · rintro ⟨masked, same⟩
      exact Fin.ext (by omega)
    · rintro rfl
      exact ⟨⟨above, below⟩, rfl⟩
  rw [gradLogit, directGradLogit, prob_eq_exp]
  simp only [column, realFunctions, savedLogz]

/-- What a chunk of tokens has added once the vocabulary is walked up to a choice. -/
def AddedUpTo (start stop : Nat)
    (before : (Fin n → Fin features → ℝ) × (Fin vocab → Fin features → ℝ)) (done : Nat)
    (gradients : (Fin n → Fin features → ℝ) × (Fin vocab → Fin features → ℝ)) : Prop :=
  (∀ token feature, gradients.1 token feature = before.1 token feature +
    if start ≤ token.val ∧ token.val < stop then ((slice vocab 0 done).map (fun choice =>
      directGradLogit hidden weight labels invTemperature gradLogprobs token choice *
        weight choice feature)).sum
    else 0) ∧
  ∀ choice feature, gradients.2 choice feature = before.2 choice feature +
    if choice.val < done then ((slice n start stop).map (fun token =>
      directGradLogit hidden weight labels invTemperature gradLogprobs token choice *
        hidden token feature)).sum
    else 0

theorem accumulate_chunk_added {chunkSize vocabChunkSize : Nat} (positive : 0 < vocabChunkSize)
    (start : Nat)
    (before gradients : (Fin n → Fin features → ℝ) × (Fin vocab → Fin features → ℝ))
    (vocabStart : Nat) (inside : vocabStart < vocab)
    (added : AddedUpTo hidden weight labels invTemperature gradLogprobs start
      (min (start + chunkSize) n) before vocabStart gradients) :
    AddedUpTo hidden weight labels invTemperature gradLogprobs start (min (start + chunkSize) n)
      before (min (vocabStart + vocabChunkSize) vocab)
      (accumulateChunk hidden weight realFunctions labels invTemperature chunkSize vocabChunkSize
        (savedLogz hidden weight invTemperature) gradLogprobs start gradients vocabStart) := by
  have forwards : vocabStart ≤ min (vocabStart + vocabChunkSize) vocab := by omega
  refine ⟨fun token feature => ?_, fun choice feature => ?_⟩
  · have row : (slice vocab vocabStart (min (vocabStart + vocabChunkSize) vocab)).map (fun choice =>
        gradLogit hidden weight realFunctions labels invTemperature
          (savedLogz hidden weight invTemperature) gradLogprobs vocabStart
          (min (vocabStart + vocabChunkSize) vocab) token choice * weight choice feature) =
        (slice vocab vocabStart (min (vocabStart + vocabChunkSize) vocab)).map (fun choice =>
          directGradLogit hidden weight labels invTemperature gradLogprobs token choice *
            weight choice feature) := by
      refine List.map_congr_left (fun choice listed => ?_)
      obtain ⟨above, below⟩ := mem_slice.mp listed
      rw [grad_logit_eq hidden weight labels invTemperature gradLogprobs token above below]
    have known := added.1 token feature
    simp only [accumulateChunk]
    by_cases own : start ≤ token.val ∧ token.val < min (start + chunkSize) n
    · rw [if_pos own] at known ⊢
      rw [if_pos own, known, row, ← slice_append forwards, List.map_append, List.sum_append,
        add_assoc]
    · rw [if_neg own] at known ⊢
      rw [if_neg own, known]
  · have known := added.2 choice feature
    simp only [accumulateChunk]
    by_cases own : vocabStart ≤ choice.val ∧
        choice.val < min (vocabStart + vocabChunkSize) vocab
    · have column : ∀ token, gradLogit hidden weight realFunctions labels invTemperature
          (savedLogz hidden weight invTemperature) gradLogprobs vocabStart
          (min (vocabStart + vocabChunkSize) vocab) token choice =
          directGradLogit hidden weight labels invTemperature gradLogprobs token choice :=
        fun token => grad_logit_eq hidden weight labels invTemperature gradLogprobs token own.1 own.2
      rw [if_neg (Nat.not_lt.mpr own.1), add_zero] at known
      simp only [if_pos own, if_pos own.2, known, column]
    · rw [if_neg own, known]
      by_cases earlier : choice.val < vocabStart
      · rw [if_pos earlier, if_pos (Nat.lt_of_lt_of_le earlier forwards)]
      · have beyond : ¬ choice.val < min (vocabStart + vocabChunkSize) vocab := by omega
        rw [if_neg earlier, if_neg beyond]

/-- What the gradients hold once the tokens are walked up to one. -/
def GatheredUpTo (done : Nat)
    (gradients : (Fin n → Fin features → ℝ) × (Fin vocab → Fin features → ℝ)) : Prop :=
  (∀ token feature, gradients.1 token feature =
    if token.val < done then
      (directGradients hidden weight labels invTemperature gradLogprobs).1 token feature
    else 0) ∧
  ∀ choice feature, gradients.2 choice feature = ((slice n 0 done).map (fun token =>
    directGradLogit hidden weight labels invTemperature gradLogprobs token choice *
      hidden token feature)).sum

/-- A chunk of tokens gathers its whole part of both gradients. -/
theorem chunk_gathered {chunkSize vocabChunkSize : Nat} (vocabPositive : 0 < vocabChunkSize)
    (start : Nat) (gradients : (Fin n → Fin features → ℝ) × (Fin vocab → Fin features → ℝ))
    (inside : start < n)
    (gathered : GatheredUpTo hidden weight labels invTemperature gradLogprobs start gradients) :
    GatheredUpTo hidden weight labels invTemperature gradLogprobs (min (start + chunkSize) n)
      ((starts vocab vocabChunkSize).foldl
        (accumulateChunk hidden weight realFunctions labels invTemperature chunkSize vocabChunkSize
          (savedLogz hidden weight invTemperature) gradLogprobs start) gradients) := by
  have forwards : start ≤ min (start + chunkSize) n := by omega
  have base : AddedUpTo hidden weight labels invTemperature gradLogprobs start
      (min (start + chunkSize) n) gradients 0 gradients := by
    refine ⟨fun token feature => ?_, fun choice feature => ?_⟩
    · rw [slice_none, List.map_nil, List.sum_nil, ite_self, add_zero]
    · rw [if_neg (Nat.not_lt_zero _), add_zero]
  obtain ⟨rows, columns⟩ := carried vocabPositive base (fun vocabStart state within =>
    accumulate_chunk_added hidden weight labels invTemperature gradLogprobs vocabPositive start
      gradients state vocabStart within)
  refine ⟨fun token feature => ?_, fun choice feature => ?_⟩
  · rw [rows, gathered.1 token feature, slice_all, ← Fin.sum_univ_def]
    by_cases earlier : token.val < start
    · have other : ¬ (start ≤ token.val ∧ token.val < min (start + chunkSize) n) := by omega
      rw [if_pos earlier, if_neg other, if_pos (Nat.lt_of_lt_of_le earlier forwards), add_zero]
    · rw [if_neg earlier, zero_add]
      refine if_congr ?_ rfl rfl
      omega
  · rw [columns, gathered.2 choice feature, if_pos choice.isLt, ← slice_append forwards,
      List.map_append, List.sum_append]

/-- The backward pass returns the direct gradients, whatever the chunks. -/
theorem backward_eq {chunkSize vocabChunkSize : Nat} (positive : 0 < chunkSize)
    (vocabPositive : 0 < vocabChunkSize) (gradEntropy : Option (Fin n → ℝ))
    (still : ∀ gradients, gradEntropy = some gradients → ∀ token, gradients token = 0) :
    backward hidden weight realFunctions labels invTemperature chunkSize vocabChunkSize
        (savedLogz hidden weight invTemperature) gradLogprobs gradEntropy =
      some (directGradients hidden weight labels invTemperature gradLogprobs) := by
  have accepted : gradEntropy.all (fun gradients =>
      decide (∀ token, gradients token = 0)) = true := by
    cases gradEntropy with
    | none => rfl
    | some gradients => exact decide_eq_true (still gradients rfl)
  have base : GatheredUpTo hidden weight labels invTemperature gradLogprobs 0
      (0 : (Fin n → Fin features → ℝ) × (Fin vocab → Fin features → ℝ)) := by
    refine ⟨fun token feature => ?_, fun choice feature => ?_⟩
    · rw [if_neg (Nat.not_lt_zero _)]
      rfl
    · rw [slice_none]
      rfl
  obtain ⟨rows, columns⟩ := carried positive base (fun start state within =>
    chunk_gathered hidden weight labels invTemperature gradLogprobs vocabPositive start state within)
  rw [backward, if_pos accepted]
  refine congrArg some (Prod.ext ?_ ?_)
  · funext token feature
    exact (rows token feature).trans (if_pos token.isLt)
  · funext choice feature
    refine (columns choice feature).trans ?_
    rw [slice_all, ← Fin.sum_univ_def]
    rfl

/-! ## The derivative -/

variable (n features vocab) in
/-- Hidden states and weight together. -/
abbrev Parameters : Type := (Fin n → Fin features → ℝ) × (Fin vocab → Fin features → ℝ)

/-- An entry of the hidden states. -/
noncomputable def hiddenEntry (token : Fin n) (feature : Fin features) :
    Parameters n features vocab →L[ℝ] ℝ :=
  (ContinuousLinearMap.proj (R := ℝ) (φ := fun _ : Fin features => ℝ) feature).comp
    ((ContinuousLinearMap.proj (R := ℝ) (φ := fun _ : Fin n => Fin features → ℝ) token).comp
      (ContinuousLinearMap.fst ℝ _ _))

/-- An entry of the weight. -/
noncomputable def weightEntry (choice : Fin vocab) (feature : Fin features) :
    Parameters n features vocab →L[ℝ] ℝ :=
  (ContinuousLinearMap.proj (R := ℝ) (φ := fun _ : Fin features => ℝ) feature).comp
    ((ContinuousLinearMap.proj (R := ℝ) (φ := fun _ : Fin vocab => Fin features → ℝ) choice).comp
      (ContinuousLinearMap.snd ℝ _ _))

/-- The linear map that gradients of the hidden states and of the weight stand for. -/
noncomputable def pairing (gradients : Parameters n features vocab) :
    Parameters n features vocab →L[ℝ] ℝ :=
  ∑ token, ∑ feature, gradients.1 token feature • hiddenEntry token feature +
    ∑ choice, ∑ feature, gradients.2 choice feature • weightEntry choice feature

/-- How an unscaled logit moves with hidden states and weight. -/
noncomputable def logitDerivative (token : Fin n) (choice : Fin vocab) :
    Parameters n features vocab →L[ℝ] ℝ :=
  ∑ feature, (hidden token feature • weightEntry choice feature +
    weight choice feature • hiddenEntry token feature)

theorem hasFDerivAt_scaledLogit (token : Fin n) (choice : Fin vocab) :
    HasFDerivAt (fun parameters : Parameters n features vocab =>
        scaledLogit parameters.1 parameters.2 invTemperature token choice)
      (invTemperature token • logitDerivative hidden weight token choice) (hidden, weight) := by
  have products : HasFDerivAt (fun parameters : Parameters n features vocab =>
      ∑ feature, parameters.1 token feature * parameters.2 choice feature)
      (logitDerivative hidden weight token choice) (hidden, weight) := by
    refine HasFDerivAt.fun_sum (fun feature _ => ?_)
    have row : HasFDerivAt (fun parameters : Parameters n features vocab =>
        parameters.1 token feature) (hiddenEntry token feature) (hidden, weight) :=
      (hiddenEntry token feature).hasFDerivAt
    have column : HasFDerivAt (fun parameters : Parameters n features vocab =>
        parameters.2 choice feature) (weightEntry choice feature) (hidden, weight) :=
      (weightEntry choice feature).hasFDerivAt
    exact row.mul column
  exact products.mul_const (invTemperature token)

/-- The derivative of a log-probability, by the gradients of its logits. -/
theorem token_derivative (token : Fin n) :
    gradLogprobs token • (invTemperature token • logitDerivative hidden weight token (labels token) -
        ∑ choice, prob (scaledLogit hidden weight invTemperature token) choice •
          (invTemperature token • logitDerivative hidden weight token choice)) =
      ∑ choice, directGradLogit hidden weight labels invTemperature gradLogprobs token choice •
        logitDerivative hidden weight token choice := by
  have picked : ∑ choice, ((if choice = labels token then gradLogprobs token else 0) *
      invTemperature token) • logitDerivative hidden weight token choice =
        gradLogprobs token •
          (invTemperature token • logitDerivative hidden weight token (labels token)) := by
    rw [Finset.sum_eq_single (labels token), if_pos rfl, mul_smul]
    · intro choice _ other
      rw [if_neg other, zero_mul, zero_smul]
    · exact fun missing => absurd (Finset.mem_univ _) missing
  rw [smul_sub, ← picked, Finset.smul_sum, ← Finset.sum_sub_distrib]
  refine Finset.sum_congr rfl (fun choice _ => ?_)
  rw [directGradLogit, smul_smul, smul_smul]
  refine (sub_smul _ _ (logitDerivative hidden weight token choice)).symm.trans ?_
  congr 1
  ring

/-- Gradients of logits, gathered by rows and by columns, are the gradients of both inputs. -/
theorem gradients_gathered :
    ∑ token, ∑ choice,
        directGradLogit hidden weight labels invTemperature gradLogprobs token choice •
          logitDerivative hidden weight token choice =
      pairing (directGradients hidden weight labels invTemperature gradLogprobs) := by
  have split : ∀ token choice,
      directGradLogit hidden weight labels invTemperature gradLogprobs token choice •
          logitDerivative hidden weight token choice =
        ∑ feature, (directGradLogit hidden weight labels invTemperature gradLogprobs token choice *
            weight choice feature) • hiddenEntry token feature +
          ∑ feature, (directGradLogit hidden weight labels invTemperature gradLogprobs token
            choice * hidden token feature) • weightEntry choice feature := by
    intro token choice
    rw [logitDerivative, Finset.smul_sum, ← Finset.sum_add_distrib]
    refine Finset.sum_congr rfl (fun feature _ => ?_)
    rw [smul_add, smul_smul, smul_smul, add_comm]
  simp only [split, Finset.sum_add_distrib]
  rw [pairing]
  congr 1
  · refine Finset.sum_congr rfl (fun token _ => ?_)
    rw [Finset.sum_comm]
    refine Finset.sum_congr rfl (fun feature _ => ?_)
    rw [directGradients, Finset.sum_smul]
  · rw [Finset.sum_comm]
    refine Finset.sum_congr rfl (fun choice _ => ?_)
    rw [Finset.sum_comm]
    refine Finset.sum_congr rfl (fun feature _ => ?_)
    rw [directGradients, Finset.sum_smul]

/-- The direct gradients are those of the weighted log-probabilities. -/
theorem hasFDerivAt_logprobs :
    HasFDerivAt (fun parameters : Parameters n features vocab =>
        ∑ token, gradLogprobs token *
          logSoftmax (scaledLogit parameters.1 parameters.2 invTemperature token) (labels token))
      (pairing (directGradients hidden weight labels invTemperature gradLogprobs))
      (hidden, weight) := by
  rw [← gradients_gathered]
  refine HasFDerivAt.fun_sum (fun token _ => ?_)
  have choices : Nonempty (Fin vocab) := ⟨labels token⟩
  rw [← token_derivative]
  exact (hasFDerivAt_log_softmax
    (fun choice => hasFDerivAt_scaledLogit hidden weight invTemperature token choice)
    (labels token)).const_mul (gradLogprobs token)

/-! ## The chunked head -/

/-- The weighted sum of the log-probabilities that the forward pass returns. -/
noncomputable def weightedLogprobs (chunkSize vocabChunkSize : Nat)
    (parameters : Parameters n features vocab) : ℝ :=
  ((forward parameters.1 parameters.2 realFunctions labels invTemperature chunkSize
    vocabChunkSize).map (fun outputs => ∑ token,
      gradLogprobs token * ((outputs token).map TokenOutput.logprob).getD 0)).getD 0

theorem weighted_logprobs_eq {chunkSize vocabChunkSize : Nat} (positive : 0 < chunkSize)
    (vocabPositive : 0 < vocabChunkSize) :
    weightedLogprobs labels invTemperature gradLogprobs chunkSize
        vocabChunkSize =
      fun parameters : Parameters n features vocab => ∑ token, gradLogprobs token *
        logSoftmax (scaledLogit parameters.1 parameters.2 invTemperature token) (labels token) := by
  funext parameters
  rw [weightedLogprobs, forward_eq parameters.1 parameters.2 labels invTemperature positive
    vocabPositive]
  rfl

/-- Whatever the chunks, the forward pass returns log-softmax and entropy and the backward pass
the gradients of the weighted log-probabilities; the first update is defined. -/
theorem chunked_head_exact (gradEntropy : Option (Fin n → ℝ))
    (still : ∀ gradients, gradEntropy = some gradients → ∀ token, gradients token = 0) :
    ∃ logz gradients, ∀ chunkSize vocabChunkSize, 0 < chunkSize → 0 < vocabChunkSize →
      forward hidden weight realFunctions labels invTemperature chunkSize vocabChunkSize =
        some (fun token =>
          let logits := scaledLogit hidden weight invTemperature token
          some ⟨logSoftmax logits (labels token), entropy logits, logz token⟩) ∧
      backward hidden weight realFunctions labels invTemperature chunkSize vocabChunkSize logz
        gradLogprobs gradEntropy = some gradients ∧
      HasFDerivAt (weightedLogprobs labels invTemperature gradLogprobs chunkSize vocabChunkSize)
        (pairing gradients) (hidden, weight) ∧
      ∀ chunk : List ℝ, chunk ≠ [] → ∃ largest ∈ chunk, (∀ logit ∈ chunk, logit ≤ largest) ∧
        onlineLogsumexpAndWeightedUpdate realFunctions .negInf 0 0 chunk =
          some (.value largest, (chunk.map (fun logit => Real.exp (logit - largest) * 1)).sum,
            (chunk.map (fun logit => Real.exp (logit - largest) * logit)).sum) := by
  refine ⟨savedLogz hidden weight invTemperature,
    directGradients hidden weight labels invTemperature gradLogprobs,
    fun chunkSize vocabChunkSize positive vocabPositive => ⟨?_, ?_, ?_, first_update⟩⟩
  · exact forward_eq hidden weight labels invTemperature positive vocabPositive
  · exact backward_eq hidden weight labels invTemperature gradLogprobs positive vocabPositive
      gradEntropy still
  · rw [weighted_logprobs_eq labels invTemperature gradLogprobs positive vocabPositive]
    exact hasFDerivAt_logprobs hidden weight labels invTemperature gradLogprobs

end

/-- Two tokens and three choices: single logits and whole chunks give the same gradients. -/
theorem chunked_head_three_choices :
    ∃ logz gradients,
      backward (fun (token : Fin 2) (_ : Fin 1) => (token.val : ℝ))
        (fun (choice : Fin 3) _ => (choice.val : ℝ)) realFunctions (fun _ => 2) (fun _ => 1 / 2) 1 1
        logz (fun _ => 1) (some (fun _ => 0)) = some gradients ∧
      backward (fun (token : Fin 2) (_ : Fin 1) => (token.val : ℝ))
        (fun (choice : Fin 3) _ => (choice.val : ℝ)) realFunctions (fun _ => 2) (fun _ => 1 / 2) 2
        (vocabularyChunk 3) logz (fun _ => 1) (some (fun _ => 0)) = some gradients := by
  have still : ∀ gradients : Fin 2 → ℝ, some (fun _ => (0 : ℝ)) = some gradients →
      ∀ token, gradients token = 0 := by
    intro gradients same token
    rw [← Option.some.inj same]
  obtain ⟨logz, gradients, chunked⟩ := chunked_head_exact
    (fun (token : Fin 2) (_ : Fin 1) => (token.val : ℝ))
    (fun (choice : Fin 3) _ => (choice.val : ℝ)) (fun _ => 2) (fun _ => 1 / 2) (fun _ => 1)
    (some (fun _ => 0)) still
  exact ⟨logz, gradients, (chunked 1 1 (by decide) (by decide)).2.1,
    (chunked 2 (vocabularyChunk 3) (by decide) (by decide)).2.1⟩

end PrimeRl.Models.LmHead
