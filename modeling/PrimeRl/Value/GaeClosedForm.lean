import Mathlib.Algebra.BigOperators.Group.Finset.Basic
import Mathlib.Algebra.BigOperators.Ring.Finset
import Mathlib.Data.List.Sort
import PrimeRl.Value.Gae

/-!
# The closed form of generalized advantage estimates

The recursion over the actions is the exponentially weighted sum of their
one-step errors. At decay one it is the discounted reward less the value of the
action. Values of context tokens enter neither.
-/

namespace PrimeRl.Value.Gae

universe u
variable {Scalar : Type u} [CommRing Scalar] (reward gamma : Scalar)

/-- The one-step error of an action: only the last one has the reward, and only
the others have a next value. -/
def actionError (values : List Scalar) (actions : List Nat) (position : Nat) : Scalar :=
  (if position + 1 = actions.length then reward else 0) +
    gamma * values.getD (actions.getD (position + 1) 0) 0 *
      (if position + 1 < actions.length then 1 else 0) -
    values.getD (actions.getD position 0) 0

/-- The recursion from an action on. -/
theorem lambda_advantage_step (decay : Scalar) (values : List Scalar) (mask : List Bool)
    (position : Nat) (inside : position < (actionIndices mask).length) :
    lambdaAdvantage reward gamma decay ((actionValues values mask).drop position) =
      actionError reward gamma values (actionIndices mask) position +
        gamma * decay *
          lambdaAdvantage reward gamma decay ((actionValues values mask).drop (position + 1)) := by
  have step := gae_step_delta reward gamma values mask decay _ position inside rfl
  rw [← step]
  by_cases more : position + 1 < (actionIndices mask).length
  · have other : position + 1 ≠ (actionIndices mask).length := Nat.ne_of_lt more
    simp only [actionError, more, other, decide_true, if_true, if_false]
    ring
  · have last : position + 1 = (actionIndices mask).length := by omega
    have ended : (actionValues values mask).drop (position + 1) = [] := by
      rw [List.drop_eq_nil_iff, actionValues, List.length_map]
      exact last.ge
    rw [ended]
    simp only [actionError, last, lt_irrefl, decide_false, Bool.false_eq_true, if_true, if_false,
      lambdaAdvantage]
    ring

/-- The recursion is the exponentially weighted sum of the errors that follow. -/
theorem lambda_advantage_sum (decay : Scalar) (values : List Scalar) (mask : List Bool)
    (count position : Nat) (ends : position + count = (actionIndices mask).length) :
    lambdaAdvantage reward gamma decay ((actionValues values mask).drop position) =
      ∑ distance ∈ Finset.range count, (gamma * decay) ^ distance *
        actionError reward gamma values (actionIndices mask) (position + distance) := by
  induction count generalizing position with
  | zero =>
    have ended : (actionValues values mask).drop position = [] := by
      rw [List.drop_eq_nil_iff, actionValues, List.length_map]
      exact ends.ge
    rw [ended, Finset.sum_range_zero, lambdaAdvantage]
  | succ count inductionHypothesis =>
    have later := inductionHypothesis (position + 1) (by omega)
    rw [lambda_advantage_step reward gamma decay values mask position (by omega), later,
      Finset.sum_range_succ', Finset.mul_sum, pow_zero, one_mul, add_comm]
    congr 1
    apply Finset.sum_congr rfl
    intro distance _
    have same : position + 1 + distance = position + (distance + 1) := by omega
    rw [same]
    ring

/-- At decay one the errors telescope to the discounted reward. -/
theorem lambda_advantage_monte_carlo (value : Scalar) (rest : List Scalar) :
    lambdaAdvantage reward gamma 1 (value :: rest) = gamma ^ rest.length * reward - value := by
  induction rest generalizing value with
  | nil =>
    rw [lambdaAdvantage, List.length_nil]
    ring
  | cons next rest inductionHypothesis =>
    rw [lambdaAdvantage, inductionHypothesis, List.length_cons]
    ring

theorem action_indices_ordered (mask : List Bool) : (actionIndices mask).Pairwise (· < ·) :=
  List.Pairwise.filter _ List.pairwise_lt_range

/-- The remaining values from an action on start with its own. -/
theorem action_values_drop (values : List Scalar) (mask : List Bool) (position index : Nat)
    (listed : (actionIndices mask)[position]? = some index) :
    (actionValues values mask).drop position =
      values.getD index 0 :: (actionValues values mask).drop (position + 1) := by
  obtain ⟨inside, isIndex⟩ := List.getElem?_eq_some_iff.mp listed
  have within : position < (actionValues values mask).length := by
    rw [actionValues, List.length_map]
    exact inside
  rw [List.drop_eq_getElem_cons within]
  simp only [actionValues, List.getElem_map, isIndex]

section
variable (gaeLambda valueTargetLambda : Scalar) (values : List Scalar) (mask : List Bool)

/-- The streams of a trajectory: weighted sums of errors at its actions and zero
elsewhere. -/
structure ClosedForm (advantages returns : List Scalar) : Prop where
  advantageWidth : advantages.length = mask.length
  returnWidth : returns.length = mask.length
  weightedAdvantage : ∀ position index, (actionIndices mask)[position]? = some index →
    advantages[index]? = some (∑ distance ∈ Finset.range ((actionIndices mask).length - position),
      (gamma * gaeLambda) ^ distance *
        actionError reward gamma values (actionIndices mask) (position + distance))
  weightedReturn : ∀ position index, (actionIndices mask)[position]? = some index →
    returns[index]? = some (values.getD index 0 +
      ∑ distance ∈ Finset.range ((actionIndices mask).length - position),
        (gamma * valueTargetLambda) ^ distance *
          actionError reward gamma values (actionIndices mask) (position + distance))
  masked : ∀ index : Nat, mask[index]? = some false →
    advantages[index]? = some 0 ∧ returns[index]? = some 0
  monteCarloAdvantage : gaeLambda = 1 → ∀ position index,
    (actionIndices mask)[position]? = some index →
      advantages[index]? = some (gamma ^ ((actionIndices mask).length - 1 - position) * reward -
        values.getD index 0)
  monteCarloReturn : valueTargetLambda = 1 → ∀ position index,
    (actionIndices mask)[position]? = some index →
      returns[index]? = some (gamma ^ ((actionIndices mask).length - 1 - position) * reward)

/-- At decay one an action has its discounted reward less its value. -/
theorem monte_carlo_at (position index : Nat)
    (listed : (actionIndices mask)[position]? = some index) :
    lambdaAdvantage reward gamma 1 ((actionValues values mask).drop position) =
      gamma ^ ((actionIndices mask).length - 1 - position) * reward - values.getD index 0 := by
  have remaining : ((actionValues values mask).drop (position + 1)).length =
      (actionIndices mask).length - 1 - position := by
    rw [List.length_drop, actionValues, List.length_map]
    omega
  rw [action_values_drop values mask position index listed, lambda_advantage_monte_carlo, remaining]

theorem processed_closed_form (state : GaeState Scalar)
    (processed : Processed reward gamma gaeLambda valueTargetLambda values mask 0 state) :
    ClosedForm reward gamma gaeLambda valueTargetLambda values mask state.advantages
      state.returns := by
  have ends (position index : Nat) (listed : (actionIndices mask)[position]? = some index) :
      position + ((actionIndices mask).length - position) = (actionIndices mask).length := by
    have inside := (List.getElem?_eq_some_iff.mp listed).1
    omega
  constructor
  case advantageWidth => exact processed.advantageWidth
  case returnWidth => exact processed.returnWidth
  case masked => exact processed.context
  case weightedAdvantage =>
    intro position index listed
    rw [processed.advantages position index listed (Nat.zero_le _),
      lambda_advantage_sum reward gamma gaeLambda values mask _ position (ends position index listed)]
  case weightedReturn =>
    intro position index listed
    rw [processed.returns position index listed (Nat.zero_le _),
      lambda_advantage_sum reward gamma valueTargetLambda values mask _ position
        (ends position index listed), add_comm]
  case monteCarloAdvantage =>
    rintro rfl position index listed
    rw [processed.advantages position index listed (Nat.zero_le _),
      monte_carlo_at reward gamma values mask position index listed]
  case monteCarloReturn =>
    rintro rfl position index listed
    rw [processed.returns position index listed (Nat.zero_le _),
      monte_carlo_at reward gamma values mask position index listed, sub_add_cancel]

/-- Streams of the loop are those of any values that agree at the actions. -/
theorem compute_gae_context_free (others : List Scalar) (width : values.length = mask.length)
    (otherWidth : others.length = mask.length)
    (agree : ∀ index, mask[index]? = some true → others.getD index 0 = values.getD index 0) :
    computeGae reward gamma gaeLambda valueTargetLambda others mask =
      computeGae reward gamma gaeLambda valueTargetLambda values mask := by
  obtain ⟨state, computed, processed⟩ :=
    compute_gae_processed reward gamma gaeLambda valueTargetLambda values mask width
  obtain ⟨other, otherComputed, otherProcessed⟩ :=
    compute_gae_processed reward gamma gaeLambda valueTargetLambda others mask otherWidth
  have sameValues : actionValues others mask = actionValues values mask := by
    apply List.map_congr_left
    intro index member
    exact agree index ((mem_action_indices_iff mask index).mp member)
  have same (index : Nat) : other.advantages[index]? = state.advantages[index]? ∧
      other.returns[index]? = state.returns[index]? := by
    cases trained : mask[index]? with
    | none =>
      have beyond := List.getElem?_eq_none_iff.mp trained
      rw [List.getElem?_eq_none (otherProcessed.advantageWidth ▸ beyond),
        List.getElem?_eq_none (processed.advantageWidth ▸ beyond),
        List.getElem?_eq_none (otherProcessed.returnWidth ▸ beyond),
        List.getElem?_eq_none (processed.returnWidth ▸ beyond)]
      exact ⟨rfl, rfl⟩
    | some flag =>
      cases flag with
      | false =>
        obtain ⟨advantage, target⟩ := processed.context index trained
        obtain ⟨otherAdvantage, otherTarget⟩ := otherProcessed.context index trained
        exact ⟨otherAdvantage.trans advantage.symm, otherTarget.trans target.symm⟩
      | true =>
        obtain ⟨position, listed⟩ :=
          List.getElem?_of_mem ((mem_action_indices_iff mask index).mpr trained)
        rw [processed.advantages position index listed (Nat.zero_le _),
          otherProcessed.advantages position index listed (Nat.zero_le _),
          processed.returns position index listed (Nat.zero_le _),
          otherProcessed.returns position index listed (Nat.zero_le _), sameValues,
          agree index trained]
        exact ⟨rfl, rfl⟩
  rw [computed, otherComputed, List.ext_getElem? (fun index => (same index).1),
    List.ext_getElem? (fun index => (same index).2)]

/-- The pass over a trajectory computes the closed form, whatever its mask is, and
values of context tokens influence nothing. -/
theorem compute_gae_closed_form (width : values.length = mask.length) :
    ((actionIndices mask).Pairwise (· < ·) ∧
      ∀ index, index ∈ actionIndices mask ↔ mask[index]? = some true) ∧
    (∃ advantages returns,
      computeGae reward gamma gaeLambda valueTargetLambda values mask = .ok (advantages, returns) ∧
      ClosedForm reward gamma gaeLambda valueTargetLambda values mask advantages returns) ∧
    ∀ others : List Scalar, others.length = mask.length →
      (∀ index, mask[index]? = some true → others.getD index 0 = values.getD index 0) →
      computeGae reward gamma gaeLambda valueTargetLambda others mask =
        computeGae reward gamma gaeLambda valueTargetLambda values mask := by
  refine ⟨⟨action_indices_ordered mask, mem_action_indices_iff mask⟩, ?_, ?_⟩
  · obtain ⟨state, computed, processed⟩ :=
      compute_gae_processed reward gamma gaeLambda valueTargetLambda values mask width
    exact ⟨state.advantages, state.returns, computed,
      processed_closed_form reward gamma gaeLambda valueTargetLambda values mask state processed⟩
  · intro others otherWidth agree
    exact compute_gae_context_free reward gamma gaeLambda valueTargetLambda values mask others width
      otherWidth agree

/-- Two actions around a context token, with policy decay one half and target decay one. -/
theorem compute_gae_closed_form_gap :
    ((actionIndices [true, false, true]).Pairwise (· < ·) ∧
      ∀ index, index ∈ actionIndices [true, false, true] ↔
        [true, false, true][index]? = some true) ∧
    ClosedForm (4 : Rat) 1 (1 / 2) 1 [1, 9, 2] [true, false, true] [2, 0, 2] [4, 0, 4] ∧
    ∀ others : List Rat, others.length = [true, false, true].length →
      (∀ index, [true, false, true][index]? = some true →
        others.getD index 0 = [1, 9, 2].getD index 0) →
      computeGae 4 1 (1 / 2) 1 others [true, false, true] = .ok ([2, 0, 2], [4, 0, 4]) := by
  have computed : computeGae (4 : Rat) 1 (1 / 2) 1 [1, 9, 2] [true, false, true] =
      .ok ([2, 0, 2], [4, 0, 4]) := by decide +kernel
  obtain ⟨actions, ⟨advantages, returns, isResult, closed⟩, contextFree⟩ :=
    compute_gae_closed_form (4 : Rat) 1 (1 / 2) 1 [1, 9, 2] [true, false, true] rfl
  obtain ⟨rfl, rfl⟩ := Prod.mk.inj (Except.ok.inj (isResult.symm.trans computed))
  exact ⟨actions, closed, fun others width agree => (contextFree others width agree).trans computed⟩

end

end PrimeRl.Value.Gae
