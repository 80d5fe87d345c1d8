import Mathlib.Analysis.SpecialFunctions.ExpDeriv
import Mathlib.Analysis.SpecialFunctions.Log.Deriv

/-!
# Softmax over the reals

Sums of exponentials relative to a shift are moved to another shift by one
factor, so that they can be gathered piece by piece under any running shift. The
distribution itself is independent of the shift, and its logarithm is
differentiated through the logits.
-/

namespace Softmax

/-! ## Shifted sums -/

/-- The weights of logits under a shift, times a value of each. -/
noncomputable def shiftedSum (value : ℝ → ℝ) (shift : ℝ) (logits : List ℝ) : ℝ :=
  (logits.map (fun logit => Real.exp (logit - shift) * value logit)).sum

section
variable (value : ℝ → ℝ) (shift : ℝ) (logits more : List ℝ)

theorem shifted_sum_append : shiftedSum value shift (logits ++ more) =
    shiftedSum value shift logits + shiftedSum value shift more := by
  simp [shiftedSum]

/-- One factor moves a sum to another shift. -/
theorem shifted_sum_rescale (moved : ℝ) :
    shiftedSum value shift logits * Real.exp (shift - moved) = shiftedSum value moved logits := by
  rw [shiftedSum, shiftedSum, ← List.sum_map_mul_right]
  refine congrArg List.sum (List.map_congr_left (fun logit _ => ?_))
  have factor : Real.exp (logit - shift) * Real.exp (shift - moved) =
      Real.exp (logit - moved) := by
    rw [← Real.exp_add, sub_add_sub_cancel]
  calc Real.exp (logit - shift) * value logit * Real.exp (shift - moved)
      = Real.exp (logit - shift) * Real.exp (shift - moved) * value logit := by ring
    _ = Real.exp (logit - moved) * value logit := by rw [factor]

/-- The weights of some logits have a positive sum. -/
theorem shifted_sum_pos (nonempty : logits ≠ []) : 0 < shiftedSum (fun _ => 1) shift logits := by
  refine List.sum_pos _ ?_ (by simpa using nonempty)
  intro weight listed
  obtain ⟨logit, -, rfl⟩ := List.mem_map.mp listed
  rw [mul_one]
  exact Real.exp_pos _

/-- Shift and logarithm together do not depend on the shift. -/
theorem shift_add_log (nonempty : logits ≠ []) :
    shift + Real.log (shiftedSum (fun _ => 1) shift logits) =
      Real.log (shiftedSum (fun _ => 1) 0 logits) := by
  have positive := shifted_sum_pos shift logits nonempty
  rw [← shifted_sum_rescale (fun _ => 1) shift logits 0, sub_zero,
    Real.log_mul positive.ne' (Real.exp_ne_zero shift), Real.log_exp, add_comm]

/-- A weighted mean does not depend on the shift. -/
theorem shifted_sum_div : shiftedSum value shift logits / shiftedSum (fun _ => 1) shift logits =
    shiftedSum value 0 logits / shiftedSum (fun _ => 1) 0 logits := by
  rw [← shifted_sum_rescale value shift logits 0,
    ← shifted_sum_rescale (fun _ => 1) shift logits 0,
    mul_div_mul_right _ _ (Real.exp_ne_zero (shift - 0))]

theorem shifted_sum_finRange {size : Nat} (family : Fin size → ℝ) :
    shiftedSum value 0 ((List.finRange size).map family) =
      ∑ choice, Real.exp (family choice) * value (family choice) := by
  rw [shiftedSum, List.map_map, Fin.sum_univ_def]
  simp [Function.comp_def]

end

/-! ## The distribution -/

section
universe u
variable {Choice : Type u} [Fintype Choice] (logits : Choice → ℝ)

/-- The sum of the exponentials of all logits. -/
noncomputable def partition : ℝ := ∑ choice, Real.exp (logits choice)

noncomputable def prob (choice : Choice) : ℝ := Real.exp (logits choice) / partition logits

noncomputable def logSoftmax (choice : Choice) : ℝ := Real.log (prob logits choice)

/-- The entropy of the distribution, from its logits. -/
noncomputable def entropy : ℝ :=
  Real.log (partition logits) - ∑ choice, prob logits choice * logits choice

variable [Nonempty Choice]

theorem partition_pos : 0 < partition logits :=
  Finset.sum_pos (fun _ _ => Real.exp_pos _) Finset.univ_nonempty

theorem prob_eq_exp (choice : Choice) :
    prob logits choice = Real.exp (logits choice - Real.log (partition logits)) := by
  rw [prob, Real.exp_sub, Real.exp_log (partition_pos logits)]

theorem log_softmax_eq (choice : Choice) :
    logSoftmax logits choice = logits choice - Real.log (partition logits) := by
  rw [logSoftmax, prob_eq_exp, Real.log_exp]

/-! ## Derivatives -/

variable {Space : Type u} [NormedAddCommGroup Space] [NormedSpace ℝ Space]
  {family : Choice → Space → ℝ} {family' : Choice → Space →L[ℝ] ℝ} {point : Space}

/-- The logarithm of the partition moves with the expected logit. -/
theorem hasFDerivAt_log_partition
    (each : ∀ choice, HasFDerivAt (family choice) (family' choice) point) :
    HasFDerivAt (fun point => Real.log (partition (fun choice => family choice point)))
      (∑ choice, prob (fun choice => family choice point) choice • family' choice) point := by
  have summed : HasFDerivAt (fun point => partition (fun choice => family choice point))
      (∑ choice, Real.exp (family choice point) • family' choice) point :=
    HasFDerivAt.fun_sum (fun choice _ => (each choice).exp)
  have logged := summed.log (partition_pos (fun choice => family choice point)).ne'
  have same : (partition (fun choice => family choice point))⁻¹ •
        ∑ choice, Real.exp (family choice point) • family' choice =
      ∑ choice, prob (fun choice => family choice point) choice • family' choice := by
    rw [Finset.smul_sum]
    refine Finset.sum_congr rfl (fun choice _ => ?_)
    rw [smul_smul, prob, div_eq_inv_mul]
  rw [same] at logged
  exact logged

/-- The log-probability of a choice moves with its logit, less the expected one. -/
theorem hasFDerivAt_log_softmax
    (each : ∀ choice, HasFDerivAt (family choice) (family' choice) point) (choice : Choice) :
    HasFDerivAt (fun point => logSoftmax (fun choice => family choice point) choice)
      (family' choice -
        ∑ other, prob (fun choice => family choice point) other • family' other) point := by
  have same : (fun point => logSoftmax (fun choice => family choice point) choice) =
      fun point => family choice point - Real.log (partition (fun choice => family choice point)) :=
    funext (fun point => log_softmax_eq (fun choice => family choice point) choice)
  rw [same]
  exact (each choice).sub (hasFDerivAt_log_partition each)

end

end Softmax
