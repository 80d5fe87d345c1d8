import Mathlib.Algebra.Ring.Defs
import Mathlib.Data.List.GetD
import Mathlib.Data.List.Nodup
import Mathlib.Data.List.Range
import Mathlib.Tactic.Ring

/-!
# Generalized advantage estimates

One reversed pass over the action positions computes policy advantages and
critic targets with their own decays. The pass agrees with the recursion over
the action values alone, and without discount or decay it telescopes.
-/

namespace PrimeRl.Value.Gae

universe u
variable {Scalar : Type u}

/-- Streams under construction with the two running advantages. -/
structure GaeState (Scalar : Type u) where
  advantages : List Scalar
  returns : List Scalar
  nextPolicyGae : Scalar
  nextTargetAdvantage : Scalar

section
variable [CommRing Scalar] (reward gamma gaeLambda valueTargetLambda : Scalar)

/-- Body of the loop over action positions. -/
def gaeStep (values : List Scalar) (actionIndices : List Nat) (state : GaeState Scalar)
    (actionPosition : Nat) : GaeState Scalar :=
  let index := actionIndices.getD actionPosition 0
  let hasNext := decide (actionPosition + 1 < actionIndices.length)
  let nextValue := if hasNext then values.getD (actionIndices.getD (actionPosition + 1) 0) 0 else 0
  let immediateReward := if hasNext then 0 else reward
  let nonterminal := if hasNext then 1 else 0
  let delta := immediateReward + gamma * nextValue * nonterminal - values.getD index 0
  let nextPolicyGae := delta + gamma * gaeLambda * nonterminal * state.nextPolicyGae
  let nextTargetAdvantage :=
    delta + gamma * valueTargetLambda * nonterminal * state.nextTargetAdvantage
  { advantages := state.advantages.set index nextPolicyGae
    returns := state.returns.set index (nextTargetAdvantage + values.getD index 0)
    nextPolicyGae := nextPolicyGae
    nextTargetAdvantage := nextTargetAdvantage }

/-- Positions a mask trains. -/
def actionIndices (mask : List Bool) : List Nat :=
  (List.range mask.length).filter (fun index => mask.getD index false)

/-- Policy GAE and independently parameterized value targets. -/
def computeGae (values : List Scalar) (mask : List Bool) :
    Except String (List Scalar × List Scalar) :=
  if values.length ≠ mask.length then
    .error s!"value/mask length mismatch: {values.length} != {mask.length}"
  else
    let final := (List.range (actionIndices mask).length).reverse.foldl
      (gaeStep reward gamma gaeLambda valueTargetLambda values (actionIndices mask))
      ⟨List.replicate mask.length 0, List.replicate mask.length 0, 0, 0⟩
    .ok (final.advantages, final.returns)

/-- The exponentially weighted advantage of the first of the remaining action
values: its one-step error and the decayed advantage of the next. -/
def lambdaAdvantage (decay : Scalar) : List Scalar → Scalar
  | [] => 0
  | [value] => reward - value
  | value :: next :: rest =>
      gamma * next - value + gamma * decay * lambdaAdvantage decay (next :: rest)

/-- Without discount or decay the errors telescope. -/
theorem lambda_advantage_telescopes (value : Scalar) (rest : List Scalar) :
    lambdaAdvantage reward 1 1 (value :: rest) = reward - value := by
  induction rest generalizing value with
  | nil => rfl
  | cons next rest inductionHypothesis =>
    rw [lambdaAdvantage, inductionHypothesis]
    ring

end

theorem mem_action_indices_iff (mask : List Bool) (index : Nat) :
    index ∈ actionIndices mask ↔ mask[index]? = some true := by
  rw [actionIndices, List.mem_filter, List.mem_range, List.getD_eq_getElem?_getD]
  constructor
  · rintro ⟨inside, trained⟩
    rw [List.getElem?_eq_getElem inside] at trained ⊢
    exact congrArg some trained
  · intro trained
    refine ⟨(List.getElem?_eq_some_iff.mp trained).1, ?_⟩
    rw [trained]
    rfl

theorem action_indices_nodup (mask : List Bool) : (actionIndices mask).Nodup :=
  List.Nodup.filter _ List.nodup_range

section
variable [CommRing Scalar] (reward gamma gaeLambda valueTargetLambda : Scalar)
  (values : List Scalar) (mask : List Bool)

/-- The values at the action positions. -/
def actionValues : List Scalar := (actionIndices mask).map (fun index => values.getD index 0)

/-- What the streams hold once the positions from a bound on are processed. -/
structure Processed (bound : Nat) (state : GaeState Scalar) : Prop where
  policy : state.nextPolicyGae =
    lambdaAdvantage reward gamma gaeLambda ((actionValues values mask).drop bound)
  target : state.nextTargetAdvantage =
    lambdaAdvantage reward gamma valueTargetLambda ((actionValues values mask).drop bound)
  advantageWidth : state.advantages.length = mask.length
  returnWidth : state.returns.length = mask.length
  advantages : ∀ position index, (actionIndices mask)[position]? = some index → bound ≤ position →
    state.advantages[index]? =
      some (lambdaAdvantage reward gamma gaeLambda ((actionValues values mask).drop position))
  returns : ∀ position index, (actionIndices mask)[position]? = some index → bound ≤ position →
    state.returns[index]? =
      some (lambdaAdvantage reward gamma valueTargetLambda
        ((actionValues values mask).drop position) + values.getD index 0)
  context : ∀ index : Nat, mask[index]? = some false →
    state.advantages[index]? = some 0 ∧ state.returns[index]? = some 0

/-- One step of the loop computes one step of the recursion. -/
theorem gae_step_delta (decay next : Scalar) (bound : Nat) (inside : bound < (actionIndices mask).length)
    (same : next = lambdaAdvantage reward gamma decay ((actionValues values mask).drop (bound + 1))) :
    (if decide (bound + 1 < (actionIndices mask).length) then 0 else reward) +
          gamma * (if decide (bound + 1 < (actionIndices mask).length) then
            values.getD ((actionIndices mask).getD (bound + 1) 0) 0 else 0) *
            (if decide (bound + 1 < (actionIndices mask).length) then 1 else 0) -
          values.getD ((actionIndices mask).getD bound 0) 0 +
        gamma * decay * (if decide (bound + 1 < (actionIndices mask).length) then 1 else 0) * next =
      lambdaAdvantage reward gamma decay ((actionValues values mask).drop bound) := by
  have width : (actionValues values mask).length = (actionIndices mask).length := by
    rw [actionValues, List.length_map]
  have unfolded (position : Nat) (within : position < (actionIndices mask).length) :
      (actionValues values mask).drop position =
        values.getD ((actionIndices mask).getD position 0) 0 ::
          (actionValues values mask).drop (position + 1) := by
    rw [List.drop_eq_getElem_cons (width ▸ within)]
    simp only [actionValues, List.getElem_map, List.getD_eq_getElem _ _ within]
  rw [unfolded bound inside]
  by_cases more : bound + 1 < (actionIndices mask).length
  · rw [same]
    simp only [more, decide_true, if_true]
    rw [unfolded (bound + 1) more, lambdaAdvantage]
    ring
  · have ended : (actionValues values mask).drop (bound + 1) = [] := by
      rw [List.drop_eq_nil_iff, width]
      omega
    simp only [more, decide_false, Bool.false_eq_true, if_false, ended, lambdaAdvantage]
    ring

theorem gae_step_processed (bound : Nat) (inside : bound < (actionIndices mask).length)
    (state : GaeState Scalar)
    (processed : Processed reward gamma gaeLambda valueTargetLambda values mask (bound + 1) state) :
    Processed reward gamma gaeLambda valueTargetLambda values mask bound
      (gaeStep reward gamma gaeLambda valueTargetLambda values (actionIndices mask) state bound) := by
  have here : (actionIndices mask)[bound]? = some ((actionIndices mask).getD bound 0) := by
    rw [List.getD_eq_getElem _ _ inside, List.getElem?_eq_getElem inside]
  have trained := (mem_action_indices_iff mask _).mp (List.mem_of_getElem? here)
  have within := (List.getElem?_eq_some_iff.mp trained).1
  have otherIndex (position index : Nat) (listed : (actionIndices mask)[position]? = some index)
      (differs : position ≠ bound) : (actionIndices mask).getD bound 0 ≠ index := by
    intro same
    subst same
    have sameEntry := (List.getElem?_inj (List.getElem?_eq_some_iff.mp listed).1
      (action_indices_nodup mask)).mp (listed.trans here.symm)
    exact differs sameEntry
  have policy := gae_step_delta reward gamma values mask gaeLambda state.nextPolicyGae bound inside
    processed.policy
  have target := gae_step_delta reward gamma values mask valueTargetLambda state.nextTargetAdvantage
    bound inside processed.target
  refine ⟨policy, target, ?_, ?_, ?_, ?_, ?_⟩
  · simp only [gaeStep, List.length_set, processed.advantageWidth]
  · simp only [gaeStep, List.length_set, processed.returnWidth]
  · intro position index listed bounded
    by_cases same : position = bound
    · subst same
      obtain rfl := Option.some.inj (here.symm.trans listed)
      simp only [gaeStep, policy]
      rw [List.getElem?_set_self (by rw [processed.advantageWidth]; exact within)]
    · simp only [gaeStep]
      rw [List.getElem?_set_ne (otherIndex position index listed same)]
      exact processed.advantages position index listed (by omega)
  · intro position index listed bounded
    by_cases same : position = bound
    · subst same
      obtain rfl := Option.some.inj (here.symm.trans listed)
      simp only [gaeStep, target]
      rw [List.getElem?_set_self (by rw [processed.returnWidth]; exact within)]
    · simp only [gaeStep]
      rw [List.getElem?_set_ne (otherIndex position index listed same)]
      exact processed.returns position index listed (by omega)
  · intro index masked
    have differs : (actionIndices mask).getD bound 0 ≠ index := by
      intro same
      rw [same] at trained
      exact absurd (Option.some.inj (trained.symm.trans masked)) Bool.noConfusion
    simp only [gaeStep, List.getElem?_set_ne differs]
    exact processed.context index masked

/-- The loop computes the recursion at every action and zero elsewhere. -/
theorem compute_gae_processed (width : values.length = mask.length) :
    ∃ state, computeGae reward gamma gaeLambda valueTargetLambda values mask =
        .ok (state.advantages, state.returns) ∧
      Processed reward gamma gaeLambda valueTargetLambda values mask 0 state := by
  have suffix (count bound : Nat) (ends : bound + count = (actionIndices mask).length) :
      Processed reward gamma gaeLambda valueTargetLambda values mask bound
        ((List.range' bound count).foldr
          (fun position state =>
            gaeStep reward gamma gaeLambda valueTargetLambda values (actionIndices mask) state position)
          ⟨List.replicate mask.length 0, List.replicate mask.length 0, 0, 0⟩) := by
    induction count generalizing bound with
    | zero =>
      have ended : (actionValues values mask).drop bound = [] := by
        rw [List.drop_eq_nil_iff, actionValues, List.length_map]
        omega
      have noPosition (position index : Nat) (listed : (actionIndices mask)[position]? = some index)
          (bounded : bound ≤ position) : False := by
        have below := (List.getElem?_eq_some_iff.mp listed).1
        omega
      refine ⟨?_, ?_, List.length_replicate, List.length_replicate, ?_, ?_, ?_⟩
      · rw [ended]
        rfl
      · rw [ended]
        rfl
      · exact fun position index listed bounded => (noPosition position index listed bounded).elim
      · exact fun position index listed bounded => (noPosition position index listed bounded).elim
      · intro index masked
        have inside := (List.getElem?_eq_some_iff.mp masked).1
        simp [inside]
    | succ count inductionHypothesis =>
      rw [List.range'_succ, List.foldr_cons]
      exact gae_step_processed reward gamma gaeLambda valueTargetLambda values mask bound (by omega) _
        (inductionHypothesis (bound + 1) (by omega))
  refine ⟨_, ?_, suffix (actionIndices mask).length 0 (Nat.zero_add _)⟩
  rw [computeGae, if_neg (not_not_intro width), List.foldl_reverse, List.range_eq_range']

end

end PrimeRl.Value.Gae
