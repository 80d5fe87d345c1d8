import Mathlib.Algebra.BigOperators.Field
import PrimeRl.Models.LmHead
import PrimeRl.Support.Softmax

/-!
# Chunked log-probabilities over the reals

After any part of the vocabulary the running state holds the maximum of the
logits seen, and their sums relative to it. With the whole vocabulary seen, these
give the normalizer, the log-probability of the label and the entropy.
-/

namespace PrimeRl.Models.LmHead

open Tiles Softmax

noncomputable def realFunctions : ExpLog ℝ := ⟨Real.exp, Real.log⟩

/-- What the head computes for a token, from all of its logits. -/
noncomputable def directOutput {vocab : Nat} (logits : Fin vocab → ℝ) (label : Fin vocab) :
    TokenOutput ℝ :=
  ⟨logSoftmax logits label, entropy logits, Real.log (partition logits)⟩

/-! ## The online update -/

/-- What maximum, normalizer and weighted sum hold of the logits seen. -/
inductive Seen : List ℝ → Extended ℝ → ℝ → ℝ → Prop where
  | start : Seen [] .negInf 0 0
  | running {logits : List ℝ} (shift : ℝ) (largest : logits.max? = some shift) :
      Seen logits (.value shift) (shiftedSum (fun _ => 1) shift logits)
        (shiftedSum (fun logit => logit) shift logits)

theorem Seen.of_nonempty {logits : List ℝ} {m : Extended ℝ} {s t : ℝ} (seen : Seen logits m s t)
    (nonempty : logits ≠ []) :
    ∃ shift, m = .value shift ∧ s = shiftedSum (fun _ => 1) shift logits ∧
      t = shiftedSum (fun logit => logit) shift logits := by
  cases seen with
  | start => exact absurd rfl nonempty
  | running shift largest => exact ⟨shift, rfl, rfl, rfl⟩

/-- An update rescales the sums by one factor and adds those of its chunk. -/
theorem update_eq (m : Extended ℝ) (shift factor s t : ℝ) {chunk : List ℝ} {chunkM : ℝ}
    (largest : chunk.max? = some chunkM) (new : m.maximum chunkM = .value shift)
    (old : expDifference realFunctions m (.value shift) = some factor) :
    onlineLogsumexpAndWeightedUpdate realFunctions m s t chunk =
      some (.value shift, s * factor + shiftedSum (fun _ => 1) shift chunk,
        t * factor + shiftedSum (fun logit => logit) shift chunk) := by
  have weights : chunk.mapM (fun logit =>
      expDifference realFunctions (.value logit) (.value shift)) =
        some (chunk.map (fun logit => Real.exp (logit - shift))) := List.mapM_pure
  have total : (chunk.map (fun logit => Real.exp (logit - shift))).sum =
      shiftedSum (fun _ => 1) shift chunk := by
    simp [shiftedSum]
  have weighted : (List.zipWith (· * ·) (chunk.map (fun logit => Real.exp (logit - shift)))
      chunk).sum = shiftedSum (fun logit => logit) shift chunk := by
    rw [List.zipWith_map_left, List.zipWith_self, shiftedSum]
  simp only [onlineLogsumexpAndWeightedUpdate, largest, Option.bind_eq_bind, Option.bind_some, new,
    old, weights, total, weighted]

/-- An update with a nonempty chunk is defined and extends what is seen. -/
theorem update_seen {logits : List ℝ} {m : Extended ℝ} {s t : ℝ} (seen : Seen logits m s t)
    (chunk : List ℝ) (nonempty : chunk ≠ []) :
    ∃ m' s' t', onlineLogsumexpAndWeightedUpdate realFunctions m s t chunk = some (m', s', t') ∧
      Seen (logits ++ chunk) m' s' t' := by
  obtain ⟨chunkM, largest⟩ := Option.isSome_iff_exists.mp
    (List.isSome_max?_iff.mpr nonempty)
  cases seen with
  | start =>
    have updated := update_eq .negInf chunkM 0 0 0 largest rfl rfl
    rw [zero_mul, zero_add, zero_add] at updated
    exact ⟨_, _, _, updated, .running chunkM largest⟩
  | running shift before =>
    have updated := update_eq (.value shift) (max shift chunkM)
      (Real.exp (shift - max shift chunkM)) (shiftedSum (fun _ => 1) shift logits)
      (shiftedSum (fun logit => logit) shift logits) largest rfl rfl
    have merged : (logits ++ chunk).max? = some (max shift chunkM) := by
      obtain ⟨among, above⟩ := List.max?_eq_some_iff.mp before
      obtain ⟨amongChunk, aboveChunk⟩ := List.max?_eq_some_iff.mp largest
      refine List.max?_eq_some_iff.mpr ⟨?_, fun logit listed => ?_⟩
      · rcases max_choice shift chunkM with same | same
        · rw [same]
          exact List.mem_append_left chunk among
        · rw [same]
          exact List.mem_append_right logits amongChunk
      · rcases List.mem_append.mp listed with earlier | later
        · exact (above logit earlier).trans (le_max_left shift chunkM)
        · exact (aboveChunk logit later).trans (le_max_right shift chunkM)
    refine ⟨_, _, _, updated, ?_⟩
    have rescaled := Seen.running (max shift chunkM) merged
    rw [shifted_sum_append, shifted_sum_append,
      ← shifted_sum_rescale (fun _ => 1) shift logits (max shift chunkM),
      ← shifted_sum_rescale (fun logit => logit) shift logits (max shift chunkM)] at rescaled
    exact rescaled

/-- At the first chunk the update is defined, relative to the maximum of the chunk. -/
theorem first_update (chunk : List ℝ) (nonempty : chunk ≠ []) :
    ∃ largest, largest ∈ chunk ∧ (∀ logit ∈ chunk, logit ≤ largest) ∧
      onlineLogsumexpAndWeightedUpdate realFunctions .negInf 0 0 chunk =
        some (.value largest, shiftedSum (fun _ => 1) largest chunk,
          shiftedSum (fun logit => logit) largest chunk) := by
  obtain ⟨largest, maximum⟩ := Option.isSome_iff_exists.mp (List.isSome_max?_iff.mpr nonempty)
  obtain ⟨among, above⟩ := List.max?_eq_some_iff.mp maximum
  refine ⟨largest, among, above, ?_⟩
  rw [update_eq .negInf largest 0 0 0 maximum rfl rfl, zero_mul, zero_add, zero_add]

/-! ## One token -/

section
variable {vocab : Nat} (scaledLogits : Fin vocab → ℝ) (label : Fin vocab)

/-- The state of a token once the vocabulary is seen up to a choice. -/
def SeenUpTo (done : Nat) (state : Option (OnlineState ℝ)) : Prop :=
  ∃ seen, state = some seen ∧
    Seen ((slice vocab 0 done).map scaledLogits) seen.m seen.s seen.t ∧
    (label.val < done → seen.targetLogit = scaledLogits label)

/-- A chunk of the vocabulary extends what a token has seen by its logits. -/
theorem visit_chunk_seen {vocabChunkSize : Nat} (positive : 0 < vocabChunkSize)
    (vocabStart : Nat) (state : Option (OnlineState ℝ)) (inside : vocabStart < vocab)
    (seenUpTo : SeenUpTo scaledLogits label vocabStart state) :
    SeenUpTo scaledLogits label (min (vocabStart + vocabChunkSize) vocab)
      (visitChunk realFunctions scaledLogits label vocabChunkSize state vocabStart) := by
  obtain ⟨before, rfl, seen, target⟩ := seenUpTo
  have below : vocabStart < min (vocabStart + vocabChunkSize) vocab := by omega
  have nonempty : (slice vocab vocabStart (min (vocabStart + vocabChunkSize) vocab)).map
      scaledLogits ≠ [] := by
    have first : (⟨vocabStart, inside⟩ : Fin vocab) ∈
        slice vocab vocabStart (min (vocabStart + vocabChunkSize) vocab) :=
      mem_slice.mpr ⟨Nat.le_refl _, below⟩
    exact List.ne_nil_of_mem (List.mem_map_of_mem first)
  obtain ⟨m, s, t, updated, extended⟩ := update_seen seen _ nonempty
  rw [← List.map_append, slice_append (Nat.le_of_lt below)] at extended
  by_cases owned : vocabStart ≤ label.val ∧
      label.val < min (vocabStart + vocabChunkSize) vocab
  · refine ⟨⟨m, s, t, scaledLogits label⟩, ?_, extended, fun _ => rfl⟩
    have picked : ((slice vocab vocabStart (min (vocabStart + vocabChunkSize) vocab)).map
        scaledLogits)[label.val - vocabStart]? = some (scaledLogits label) := by
      rw [List.getElem?_map, slice_at label owned.1 owned.2, Option.map_some]
    simp only [visitChunk, Option.bind_eq_bind, Option.bind_some, updated, if_pos owned, picked]
  · refine ⟨⟨m, s, t, before.targetLogit⟩, ?_, extended, fun earlier => target (by omega)⟩
    simp only [visitChunk, Option.bind_eq_bind, Option.bind_some, updated, if_neg owned]

/-- The chunks of the vocabulary give the log-softmax at the label and the entropy. -/
theorem token_output_eq {vocabChunkSize : Nat} (positive : 0 < vocabChunkSize) :
    tokenOutput realFunctions scaledLogits label vocabChunkSize =
      some (directOutput scaledLogits label) := by
  have start : SeenUpTo scaledLogits label 0 (some ⟨.negInf, 0, 0, 0⟩) := by
    refine ⟨_, rfl, ?_, fun impossible => absurd impossible (Nat.not_lt_zero _)⟩
    rw [slice_none]
    exact .start
  obtain ⟨⟨m, s, t, targetLogit⟩, reached, seen, target⟩ :=
    carried positive start (fun vocabStart state inside =>
      visit_chunk_seen scaledLogits label positive vocabStart state inside)
  rw [slice_all] at seen
  have picked : targetLogit = scaledLogits label := target label.isLt
  have nonempty : (List.finRange vocab).map scaledLogits ≠ [] :=
    List.ne_nil_of_mem (List.mem_map_of_mem (List.mem_finRange label))
  have choices : Nonempty (Fin vocab) := ⟨label⟩
  obtain ⟨shift, rfl, rfl, rfl⟩ := seen.of_nonempty nonempty
  have normalizer : shiftedSum (fun _ => 1) 0 ((List.finRange vocab).map scaledLogits) =
      partition scaledLogits := by
    rw [shifted_sum_finRange, partition]
    simp
  have mean : shiftedSum (fun logit => logit) shift ((List.finRange vocab).map scaledLogits) /
      shiftedSum (fun _ => 1) shift ((List.finRange vocab).map scaledLogits) =
        ∑ choice, prob scaledLogits choice * scaledLogits choice := by
    rw [shifted_sum_div, normalizer, shifted_sum_finRange, Finset.sum_div]
    exact Finset.sum_congr rfl (fun choice _ => (div_mul_eq_mul_div _ _ _).symm)
  have logz : shift + Real.log (shiftedSum (fun _ => 1) shift
      ((List.finRange vocab).map scaledLogits)) = Real.log (partition scaledLogits) := by
    rw [shift_add_log shift _ nonempty, normalizer]
  rw [tokenOutput, reached, Option.bind_some]
  simp only [finish, if_pos (shifted_sum_pos shift _ nonempty), realFunctions, logz, mean,
    picked, directOutput, log_softmax_eq, entropy]

end

/-! ## All tokens -/

section
variable {n features vocab : Nat} (hidden : Fin n → Fin features → ℝ)
  (weight : Fin vocab → Fin features → ℝ) (labels : Fin n → Fin vocab)
  (invTemperature : Fin n → ℝ)

/-- A chunk of tokens is written directly, and earlier tokens are kept. -/
theorem write_chunk_direct {chunkSize vocabChunkSize : Nat} (positive : 0 < vocabChunkSize)
    (start : Nat) (outputs : Fin n → Option (TokenOutput ℝ))
    (written : ∀ token : Fin n, token.val < start → outputs token =
      some (directOutput (scaledLogit hidden weight invTemperature token) (labels token)))
    (token : Fin n) (below : token.val < min (start + chunkSize) n) :
    writeChunk hidden weight realFunctions labels invTemperature chunkSize vocabChunkSize
        outputs start token =
      some (directOutput (scaledLogit hidden weight invTemperature token) (labels token)) := by
  rw [writeChunk]
  split
  · exact token_output_eq _ _ positive
  · exact written token (by omega)

/-- The forward pass computes every token directly, whatever the chunks. -/
theorem forward_eq {chunkSize vocabChunkSize : Nat} (positive : 0 < chunkSize)
    (vocabPositive : 0 < vocabChunkSize) :
    forward hidden weight realFunctions labels invTemperature chunkSize vocabChunkSize =
      some (fun token =>
        some (directOutput (scaledLogit hidden weight invTemperature token) (labels token))) := by
  have base : ∀ token : Fin n, token.val < 0 → (fun _ => none : Fin n → Option (TokenOutput ℝ))
      token = some (directOutput (scaledLogit hidden weight invTemperature token)
        (labels token)) :=
    fun token impossible => absurd impossible (Nat.not_lt_zero _)
  have written := carried positive base (fun start outputs _ =>
    write_chunk_direct hidden weight labels invTemperature vocabPositive start outputs)
  rw [forward, if_neg positive.ne']
  exact congrArg some (funext (fun token => written token token.isLt))

end

end PrimeRl.Models.LmHead
