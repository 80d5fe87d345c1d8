import Mathlib.Algebra.Ring.Int.Defs
import Mathlib.Algebra.Ring.Nat
import Mathlib.Data.Int.Order.Basic
import PrimeRl.Orchestrator.LossRouting
import PrimeRl.Orchestrator.TrainingLayout

/-!
# Routed samples

A materialized sample is weighed with the mask of its own branch, as samples and
branches are listed in one order. Each of its tokens then feeds the component
declared for actions, or the component of observations, or none.
-/

namespace PrimeRl.Orchestrator.Echo

open PrimeRl.Orchestrator.MessageGraph PrimeRl.Orchestrator.Trajectories
  PrimeRl.Orchestrator.TrainingLayout PrimeRl.Transport Fallible

universe u
variable {Scalar : Type u}

/-! ## Reading weights -/

/-- The weight of a token in a component, where an absent stream reads as one on the mask for
policy gradients and as zero for the others. -/
def componentWeight [Zero Scalar] [One Scalar] (sample : TrainingSample Scalar)
    (component : ActionLossType) (position : Nat) : Scalar :=
  match component with
  | .rl =>
      match sample.rlWeights with
      | none => if sample.mask.getD position false then 1 else 0
      | some weights => weights.getD position 0
  | .ce => (sample.ceWeights.getD []).getD position 0
  | .refKl => (sample.refKlWeights.getD []).getD position 0

section
variable [One Scalar]

/-- Marking keeps the length of the stream. -/
theorem mark_actions_length (index : Nat) (mask : List Bool) (weights : List Scalar) :
    (markActions index mask weights).length = weights.length := by
  induction mask generalizing index weights with
  | nil => rfl
  | cons trains rest inductionHypothesis =>
    rw [markActions, inductionHypothesis]
    split
    · exact List.length_set
    · rfl

/-- Tokens before the mask are left alone. -/
theorem mark_actions_before (index : Nat) (mask : List Bool) (weights : List Scalar)
    (position : Nat) (earlier : position < index) :
    (markActions index mask weights)[position]? = weights[position]? := by
  induction mask generalizing index weights with
  | nil => rfl
  | cons trains rest inductionHypothesis =>
    rw [markActions, inductionHypothesis _ _ (by omega)]
    split
    · exact List.getElem?_set_ne (by omega)
    · rfl

/-- Marking writes one at the tokens of the mask and nothing elsewhere. -/
theorem mark_actions_at (index : Nat) (mask : List Bool) (weights : List Scalar) (inner : Nat)
    (inside : index + inner < weights.length) :
    (markActions index mask weights)[index + inner]? =
      if mask.getD inner false then some 1 else weights[index + inner]? := by
  induction mask generalizing index weights inner with
  | nil => simp [markActions]
  | cons trains rest inductionHypothesis =>
    rw [markActions]
    cases inner with
    | zero =>
      rw [mark_actions_before _ _ _ _ (by omega), List.getD_cons_zero]
      split
      · exact List.getElem?_set_self inside
      · rfl
    | succ inner =>
      have next : index + (inner + 1) = index + 1 + inner := by omega
      rw [next, List.getD_cons_succ, inductionHypothesis]
      · split
        · rfl
        · split
          · exact List.getElem?_set_ne (by omega)
          · rfl
      · split
        · rw [List.length_set]
          omega
        · omega

variable [Zero Scalar]

theorem mark_actions_getD (mask : List Bool) (weights : List Scalar) (position : Nat)
    (inside : position < weights.length) :
    (markActions 0 mask weights).getD position 0 =
      if mask.getD position false then 1 else weights.getD position 0 := by
  have read := mark_actions_at 0 mask weights position (by omega)
  rw [Nat.zero_add] at read
  rw [List.getD_eq_getElem?_getD, read]
  split
  · rfl
  · rw [List.getD_eq_getElem?_getD]

/-- A sample that only observations were weighed in, with streams as long as its tokens. -/
structure Observations (sample : TrainingSample Scalar) : Prop where
  aligned : sample.mask.length = sample.tokenIds.length
  rl : sample.rlWeights = none
  refKl : sample.refKlWeights = none
  ce : ∀ weights, sample.ceWeights = some weights → weights.length = sample.tokenIds.length

/-- Routing gives the tokens of the mask to the declared component and leaves observations. -/
theorem stamped_weight {sample : TrainingSample Scalar} (observations : Observations sample)
    (declared component : ActionLossType) (position : Nat)
    (inside : position < sample.tokenIds.length) :
    componentWeight (stampLossRouting sample declared) component position =
      if component = declared ∧ sample.mask.getD position false = true then 1
      else if component = .ce then componentWeight sample .ce position else 0 := by
  have zeros : position < (List.replicate sample.tokenIds.length (0 : Scalar)).length := by
    simpa using inside
  have zero : (List.replicate sample.tokenIds.length (0 : Scalar)).getD position 0 = 0 := by
    simp [inside]
  have marked := mark_actions_getD sample.mask _ position zeros
  have stream : (sample.ceWeights.getD (List.replicate sample.tokenIds.length 0)).getD position 0 =
      (sample.ceWeights.getD []).getD position 0 := by
    cases sample.ceWeights with
    | none => simp [inside]
    | some weights => rfl
  have long : (sample.ceWeights.getD (List.replicate sample.tokenIds.length 0)).length =
      sample.tokenIds.length := by
    cases known : sample.ceWeights with
    | none => simp
    | some weights => exact observations.ce weights known
  have merged := mark_actions_getD sample.mask
    (sample.ceWeights.getD (List.replicate sample.tokenIds.length 0)) position
    (long.symm ▸ inside)
  by_cases trains : sample.mask.getD position false = true
  · cases declared <;> cases component <;>
      simp only [stampLossRouting, componentWeight, observations.rl, observations.refKl,
        Option.getD_some, Option.getD_none, List.getD_nil, zero, marked, merged, trains,
        reduceCtorEq, false_and, true_and, if_false, if_true]
  · cases declared <;> cases component <;>
      simp only [stampLossRouting, componentWeight, observations.rl, observations.refKl,
        Option.getD_some, Option.getD_none, List.getD_nil, zero, marked, merged, stream, trains,
        reduceCtorEq, and_false, Bool.false_eq_true, if_false, if_true]

/-- Routing writes streams as long as the tokens. -/
theorem stamped_lengths {sample : TrainingSample Scalar} (observations : Observations sample)
    (declared : ActionLossType) (stream : List Scalar)
    (written : (stampLossRouting sample declared).rlWeights = some stream ∨
      (stampLossRouting sample declared).ceWeights = some stream ∨
      (stampLossRouting sample declared).refKlWeights = some stream) :
    stream.length = sample.tokenIds.length := by
  have long : (sample.ceWeights.getD (List.replicate sample.tokenIds.length 0)).length =
      sample.tokenIds.length := by
    cases known : sample.ceWeights with
    | none => simp
    | some weights => exact observations.ce weights known
  cases declared with
  | rl =>
    rcases written with written | written | written
    · exact absurd (observations.rl.symm.trans written) nofun
    · exact observations.ce stream written
    · exact absurd (observations.refKl.symm.trans written) nofun
  | ce =>
    rcases written with written | written | written
    · obtain rfl := Option.some.inj written
      simp
    · obtain rfl := Option.some.inj written
      rw [mark_actions_length, long]
    · exact absurd (observations.refKl.symm.trans written) nofun
  | refKl =>
    rcases written with written | written | written
    · obtain rfl := Option.some.inj written
      simp
    · exact observations.ce stream written
    · obtain rfl := Option.some.inj written
      rw [mark_actions_length, List.length_replicate]

end

/-! ## Filter masks -/

/-- Accepted masks are the lists of the filter. -/
theorem check_masks_eq {size : Nat} {index : Nat} {branches : List (Branch Scalar size)}
    {masks : List FilterMask} {keeps : List (List Bool)}
    (checked : checkMasks index branches masks = .ok keeps)
    (paired : masks.length = branches.length) : masks = keeps.map FilterMask.list := by
  induction branches generalizing index masks keeps with
  | nil =>
    obtain rfl := List.length_eq_zero_iff.mp paired
    obtain rfl := Except.ok.inj checked
    rfl
  | cons branch rest inductionHypothesis =>
    match masks, paired with
    | .other typeName :: masks, _ => exact absurd checked nofun
    | .list keep :: masks, paired =>
      simp only [checkMasks] at checked
      split at checked
      · exact absurd checked nofun
      · obtain ⟨later, laterChecked, rfl⟩ := map_ok checked
        rw [inductionHypothesis laterChecked (Nat.succ.inj paired), List.map_cons]

/-- An accepted result holds one list for each branch. -/
theorem filter_masks_eq {size : Nat} {result : FilterResult} {branches : List (Branch Scalar size)}
    {keeps : List (List Bool)} (accepted : filterMasks result branches = .ok keeps) :
    result = .list (keeps.map FilterMask.list) ∧ keeps.length = branches.length := by
  cases result with
  | other typeName => exact absurd accepted nofun
  | list masks =>
    simp only [filterMasks] at accepted
    split at accepted
    · exact absurd accepted nofun
    · rename_i paired
      have same := check_masks_eq accepted (not_not.mp paired)
      refine ⟨congrArg FilterResult.list same, ?_⟩
      rw [← not_not.mp paired, same, List.length_map]

/-! ## Weighing samples -/

section
variable [Zero Scalar] [DecidableEq Scalar] (trace : EchoTrace Scalar)
  (roleWeights : List (String × Scalar))

/-- Each sample is weighed with the branch and the mask of its own place. -/
theorem weigh_samples_at (masks : Option (List (List Bool))) (sampleIdx : Nat)
    (toSample : TrainableBranch Scalar trace.nodes.length → TrainingSample Scalar)
    (items : List (TrainableBranch Scalar trace.nodes.length)) (index : Nat) :
    (weighSamples trace roleWeights masks sampleIdx (items.map toSample)
        (items.map TrainableBranch.branch))[index]? =
      items[index]?.map (fun item =>
        weighSample trace roleWeights (masks.map (fun masks => masks.getD (sampleIdx + index) []))
          (toSample item) item.branch) := by
  induction items generalizing sampleIdx index with
  | nil => simp [weighSamples]
  | cons item rest inductionHypothesis =>
    rw [List.map_cons, List.map_cons, weighSamples]
    cases index with
    | zero => simp
    | succ index =>
      have next : sampleIdx + 1 + index = sampleIdx + (index + 1) := by omega
      rw [List.getElem?_cons_succ, List.getElem?_cons_succ, inductionHypothesis, next]

/-- A weighed sample keeps its tokens and carries the weights of its path. -/
theorem weighed_sample (keepMask : Option (List Bool)) (sample : TrainingSample Scalar)
    (branch : Branch Scalar trace.nodes.length)
    (long : sample.tokenIds.length = span trace branch.nodes) (fresh : sample.ceWeights = none)
    (rl : sample.rlWeights = none) (refKl : sample.refKlWeights = none)
    (aligned : sample.mask.length = sample.tokenIds.length) :
    let weighed := weighSample trace roleWeights keepMask sample branch
    weighed.tokenIds = sample.tokenIds ∧ weighed.mask = sample.mask ∧ Observations weighed ∧
      ∀ position, (weighed.ceWeights.getD []).getD position 0 =
        (pathWeights trace keepMask roleWeights 0 false branch.nodes).getD position 0 := by
  intro weighed
  have walked : weighNodes trace roleWeights keepMask 0 false
      (List.replicate sample.tokenIds.length 0) branch.nodes =
        pathWeights trace keepMask roleWeights 0 false branch.nodes := by
    rw [long]
    exact weigh_nodes_eq trace keepMask roleWeights branch.nodes false []
  have spanned := path_weights_length trace keepMask roleWeights 0 false branch.nodes
  have cases : weighed = if (pathWeights trace keepMask roleWeights 0 false branch.nodes).any
      (fun weight => decide (weight ≠ 0)) then
        { sample with
          ceWeights := some (pathWeights trace keepMask roleWeights 0 false branch.nodes) }
      else sample := by
    rw [← walked]
    rfl
  split at cases
  · rw [cases]
    refine ⟨rfl, rfl, ⟨aligned, rl, refKl, fun weights same => ?_⟩, fun position => rfl⟩
    obtain rfl := Option.some.inj same
    exact spanned.trans long.symm
  · rename_i silent
    rw [cases]
    refine ⟨rfl, rfl, ⟨aligned, rl, refKl, fun weights same => absurd (fresh.symm.trans same) nofun⟩,
      fun position => ?_⟩
    have zero : ∀ weight ∈ pathWeights trace keepMask roleWeights 0 false branch.nodes,
        weight = 0 := by
      simpa using silent
    rw [fresh, Option.getD_none, List.getD_nil, List.getD_eq_getElem?_getD]
    cases known : (pathWeights trace keepMask roleWeights 0 false branch.nodes)[position]? with
    | none => rfl
    | some weight => exact (zero weight (List.mem_of_getElem? known)).symm

end

/-! ## Routed samples -/

/-- A token of a branch is a kept observation: its node is unsampled and follows a response, its
role trains, and neither attribution nor filter exclude the token. -/
structure Observed (trace : EchoTrace Scalar) (config : EchoConfig Scalar) (sampleIdx : Nat)
    (before : List (Fin trace.nodes.length)) (node : Fin trace.nodes.length) (inner : Nat) :
    Prop where
  unsampled : (trace.node node).sampled = false
  follows : ∃ earlier ∈ before, (trace.node earlier).sampled = true
  role : ∃ alpha, config.roles.roleWeights.lookup (trace.text node).role = some alpha
  content : (trace.text node).isContent.length = (trace.node node).tokenIds.length →
    (trace.text node).isContent.getD inner false = true
  kept : ∀ filterFn, config.filterFn = some filterFn →
    ∃ masks keep, filterFn trace = .list masks ∧ masks[sampleIdx]? = some (.list keep) ∧
      keep.getD (span trace before + inner) false = true

/-- What each token of a sample trains once observations are weighed and actions are routed. -/
structure Routed [Zero Scalar] [One Scalar] (trace : EchoTrace Scalar)
    (echo : Option (EchoConfig Scalar)) (declared : ActionLossType) (sampleIdx : Nat)
    (item : TrainableBranch Scalar trace.nodes.length) (sample : TrainingSample Scalar) :
    Prop where
  tokens : sample.tokenIds = item.branch.tokenIds
  mask : sample.mask = item.mask
  aligned : sample.mask.length = sample.tokenIds.length
  streams : ∀ stream, sample.rlWeights = some stream ∨ sample.ceWeights = some stream ∨
    sample.refKlWeights = some stream → stream.length = sample.tokenIds.length
  placed : ∀ position < sample.tokenIds.length, ∃ before node after inner,
    item.branch.nodes = before ++ node :: after ∧
      inner < (trace.node node).tokenIds.length ∧ position = span trace before + inner
  actions : ∀ position, sample.mask[position]? = some true → ∀ component,
    componentWeight sample component position ≠ 0 ↔ component = declared
  context : ∀ before node after inner, item.branch.nodes = before ++ node :: after →
    inner < (trace.node node).tokenIds.length →
    sample.mask[span trace before + inner]? = some false → ∀ component,
      componentWeight sample component (span trace before + inner) ≠ 0 ↔
        component = .ce ∧ ∃ config, echo = some config ∧
          Observed trace config sampleIdx before node inner
  prompt : ∀ before node after inner, item.branch.nodes = before ++ node :: after →
    inner < (trace.node node).tokenIds.length → (trace.node node).sampled = false →
    (∀ earlier ∈ before, (trace.node earlier).sampled = false) → ∀ component,
      componentWeight sample component (span trace before + inner) = 0

section
variable [Zero Scalar] [One Scalar] [NeZero (1 : Scalar)] (trace : EchoTrace Scalar)

/-- A sample whose weights of observations are those of kept tokens is routed as declared. -/
theorem stamped_routed (flat : trace.toTrace.Flat)
    (context : ∀ node, (trace.node node).sampled = false → ∀ trains ∈ (trace.node node).mask,
      trains = false)
    (echo : Option (EchoConfig Scalar)) (declared : ActionLossType) (sampleIdx : Nat)
    (item : TrainableBranch Scalar trace.nodes.length)
    (listed : item ∈ iterTrainableBranches trace.toTrace trace.branches)
    {sample : TrainingSample Scalar} (observations : Observations sample)
    (tokens : sample.tokenIds = item.branch.tokenIds) (mask : sample.mask = item.mask)
    (weighed : ∀ before node after inner, item.branch.nodes = before ++ node :: after →
      inner < (trace.node node).tokenIds.length →
      (componentWeight sample .ce (span trace before + inner) ≠ 0 ↔
        ∃ config, echo = some config ∧ Observed trace config sampleIdx before node inner)) :
    Routed trace echo declared sampleIdx item (stampLossRouting sample declared) := by
  obtain ⟨among, within⟩ := trainable_within trace flat item listed
  have long : sample.tokenIds.length = span trace item.branch.nodes := by
    rw [tokens, flat.tokens _ among, List.length_flatMap, span]
  have sameTokens : (stampLossRouting sample declared).tokenIds = sample.tokenIds := by
    cases declared <;> rfl
  have sameMask : (stampLossRouting sample declared).mask = sample.mask := by
    cases declared <;> rfl
  have inside : ∀ before node after inner, item.branch.nodes = before ++ node :: after →
      inner < (trace.node node).tokenIds.length →
      span trace before + inner < sample.tokenIds.length := by
    intro before node after inner path within
    rw [long, path, span, span, List.map_append, List.sum_append, List.map_cons, List.sum_cons]
    omega
  -- a masked token lies in a sampled node
  have trained : ∀ before node after inner, item.branch.nodes = before ++ node :: after →
      inner < (trace.node node).tokenIds.length →
      sample.mask[span trace before + inner]? = some true → (trace.node node).sampled = true := by
    intro before node after inner path short trains
    have given := path_mask_at trace flat.aligned before after node inner short
    rw [← path] at given
    obtain ⟨same, entries⟩ := List.forall₂_iff_get.mp within
    obtain ⟨bound, value⟩ := List.getElem?_eq_some_iff.mp (mask ▸ trains)
    have nodeMask : (trace.node node).mask[inner]? = some true := by
      rw [← given, List.getElem?_eq_getElem (same ▸ bound)]
      exact congrArg some (entries _ bound (same ▸ bound) value)
    by_contra unsampled
    exact Bool.false_ne_true (context node (Bool.not_eq_true _ ▸ unsampled) true
      (List.mem_of_getElem? nodeMask)).symm
  have placed : ∀ position < sample.tokenIds.length, ∃ before node after inner,
      item.branch.nodes = before ++ node :: after ∧
        inner < (trace.node node).tokenIds.length ∧ position = span trace before + inner :=
    fun position bound => located trace item.branch.nodes position (long ▸ bound)
  have untrained : ∀ before node after inner, item.branch.nodes = before ++ node :: after →
      inner < (trace.node node).tokenIds.length →
      sample.mask[span trace before + inner]? = some false → ∀ component,
        componentWeight (stampLossRouting sample declared) component (span trace before + inner) ≠ 0 ↔
          component = .ce ∧ ∃ config, echo = some config ∧
            Observed trace config sampleIdx before node inner := by
    intro before node after inner path short unmarked component
    have reads : sample.mask.getD (span trace before + inner) false = false := by
      rw [List.getD_eq_getElem?_getD, unmarked, Option.getD_some]
    rw [stamped_weight observations declared component _ (inside before node after inner path short),
      reads, if_neg (fun both => Bool.false_ne_true both.2)]
    split
    · rename_i ce
      rw [weighed before node after inner path short]
      exact (and_iff_right ce).symm
    · rename_i other
      exact iff_of_false (not_not.mpr rfl) (fun both => other both.1)
  refine ⟨sameTokens.trans tokens, sameMask.trans mask, ?_, ?_, ?_, ?_, ?_, ?_⟩
  · rw [sameTokens, sameMask]
    exact observations.aligned
  · rw [sameTokens]
    exact stamped_lengths observations declared
  · rw [sameTokens]
    exact placed
  · rw [sameMask]
    intro position trains component
    have bound : position < sample.tokenIds.length :=
      observations.aligned ▸ (List.getElem?_eq_some_iff.mp trains).1
    have reads : sample.mask.getD position false = true := by
      rw [List.getD_eq_getElem?_getD, trains, Option.getD_some]
    obtain ⟨before, node, after, inner, path, short, rfl⟩ := placed position bound
    have sampled := trained before node after inner path short trains
    have silent : componentWeight sample .ce (span trace before + inner) = 0 := by
      by_contra weighs
      obtain ⟨config, -, observed⟩ := (weighed before node after inner path short).mp weighs
      exact Bool.false_ne_true (observed.unsampled.symm.trans sampled)
    rw [stamped_weight observations declared component _ bound, reads, silent]
    by_cases routed : component = declared
    · rw [if_pos ⟨routed, rfl⟩]
      exact iff_of_true (NeZero.ne 1) routed
    · simp [routed]
  · rw [sameMask]
    exact untrained
  · intro before node after inner path short unsampled prompt component
    have bound := inside before node after inner path short
    have unmarked : sample.mask[span trace before + inner]? = some false := by
      rw [List.getElem?_eq_getElem (observations.aligned ▸ bound)]
      refine congrArg some (Bool.eq_false_iff.mpr (fun trains => ?_))
      have sampled := trained before node after inner path short
        (List.getElem?_eq_some_iff.mpr ⟨observations.aligned ▸ bound, trains⟩)
      exact Bool.false_ne_true (unsampled.symm.trans sampled)
    by_contra weighs
    obtain ⟨-, config, -, observed⟩ :=
      (untrained before node after inner path short unmarked component).mp weighs
    obtain ⟨earlier, member, sampled⟩ := observed.follows
    exact Bool.false_ne_true ((prompt earlier member).symm.trans sampled)

omit [One Scalar] [NeZero (1 : Scalar)] in
/-- The weights echo writes into a materialized sample are those of kept observations. -/
theorem weighed_observed [Preorder Scalar] (config : EchoConfig Scalar)
    (positive : ∀ role alpha, (role, alpha) ∈ config.roles.roleWeights → 0 < alpha)
    (keepMask : Option (List Bool)) (sampleIdx : Nat)
    (narrowed : ∀ position, (∀ keep, keepMask = some keep → keep.getD position false = true) ↔
      ∀ filterFn, config.filterFn = some filterFn → ∃ masks keep, filterFn trace = .list masks ∧
        masks[sampleIdx]? = some (.list keep) ∧ keep.getD position false = true)
    (before after : List (Fin trace.nodes.length)) (node : Fin trace.nodes.length) (inner : Nat)
    (inside : inner < (trace.node node).tokenIds.length) :
    (pathWeights trace keepMask config.roles.roleWeights 0 false
        (before ++ node :: after)).getD (span trace before + inner) 0 ≠ 0 ↔
      Observed trace config sampleIdx before node inner := by
  have trains : ∀ role alpha, config.roles.roleWeights.lookup role = some alpha → alpha ≠ 0 := by
    intro role alpha known
    obtain ⟨lower, upper, split, -⟩ := List.lookup_eq_some_iff.mp known
    have listed : (role, alpha) ∈ config.roles.roleWeights := by
      rw [split]
      exact List.mem_append_right lower List.mem_cons_self
    exact (positive role alpha listed).ne'
  have segment := segment_weight_at trace keepMask config.roles.roleWeights
    (before.any (fun earlier => (trace.node earlier).sampled)) node (span trace before) inner inside
    trains
  have read := path_weights_at trace keepMask config.roles.roleWeights before after node inner 0
    false inside
  rw [Bool.false_or, Nat.zero_add] at read
  rw [List.getD_eq_getElem?_getD, read, ← List.getD_eq_getElem?_getD, segment, keeps_iff,
    List.any_eq_true, narrowed]
  exact ⟨fun ⟨follows, unsampled, role, content, kept⟩ =>
      ⟨unsampled, follows, role, content, kept⟩,
    fun observed => ⟨observed.follows, observed.unsampled, observed.role, observed.content,
      observed.kept⟩⟩

omit [One Scalar] [NeZero (1 : Scalar)] in
/-- The masks observations are weighed with are those of the filter, branch by branch. -/
theorem weight_observations_masks [DecidableEq Scalar] (config : EchoConfig Scalar)
    {samples weighed : List (TrainingSample Scalar)}
    (accepted : weightObservations trace config.roles.roleWeights config.filterFn samples =
      .ok weighed) :
    ∃ masks, weighed = weighSamples trace config.roles.roleWeights masks 0 samples
        ((iterTrainableBranches trace.toTrace trace.branches).map TrainableBranch.branch) ∧
      ∀ sampleIdx < (iterTrainableBranches trace.toTrace trace.branches).length, ∀ position,
        (∀ keep, masks.map (fun masks => masks.getD sampleIdx []) = some keep →
          keep.getD position false = true) ↔
        ∀ filterFn, config.filterFn = some filterFn → ∃ masks keep, filterFn trace = .list masks ∧
          masks[sampleIdx]? = some (.list keep) ∧ keep.getD position false = true := by
  unfold weightObservations at accepted
  cases configured : config.filterFn with
  | none =>
    rw [configured] at accepted
    exact ⟨none, (Except.ok.inj accepted).symm, fun _ _ _ => iff_of_true nofun nofun⟩
  | some filterFn =>
    rw [configured] at accepted
    dsimp only at accepted
    obtain ⟨keeps, kept, rfl⟩ := map_ok accepted
    obtain ⟨returned, paired⟩ := filter_masks_eq kept
    rw [List.length_map] at paired
    refine ⟨some keeps, rfl, fun sampleIdx inside position => ?_⟩
    have bound : sampleIdx < keeps.length := paired ▸ inside
    have own : keeps.getD sampleIdx [] = keeps[sampleIdx] := by simp [bound]
    have listed : (keeps.map FilterMask.list)[sampleIdx]? = some (.list keeps[sampleIdx]) := by
      simp [bound]
    constructor
    · intro narrowed other same
      obtain rfl := Option.some.inj same
      exact ⟨_, _, returned, listed, narrowed keeps[sampleIdx] (congrArg some own)⟩
    · intro narrowed keep same
      obtain ⟨masks, other, given, there, passes⟩ := narrowed filterFn rfl
      obtain rfl := FilterResult.list.inj (returned.symm.trans given)
      obtain rfl := FilterMask.list.inj (Option.some.inj (listed.symm.trans there))
      obtain rfl := Option.some.inj same
      exact (congrArg (fun keep => keep.getD position false) own).trans passes

omit [Zero Scalar] [One Scalar] [NeZero (1 : Scalar)] in
/-- Samples and trainable branches are listed in one order. -/
theorem materialized_samples {envName : String} {captureSampledMasks capturePolicyVersions : Bool}
    {materialization : TrainingMaterialization Scalar}
    (materialized : materializeTrainingData trace.toTrace envName captureSampledMasks
      capturePolicyVersions = .ok materialization) :
    materialization.samples = (iterTrainableBranches trace.toTrace trace.branches).map
      (branchSample trace.toTrace envName capturePolicyVersions) := by
  rw [materializeTrainingData] at materialized
  split at materialized
  · cases materialized
  · dsimp only at materialized
    split at materialized
    · cases materialized
    · exact congrArg TrainingMaterialization.samples (Except.ok.inj materialized).symm

/-- In every materialized sample each token trains exactly the component assigned to it. -/
theorem routed_samples_feed_declared [DecidableEq Scalar] [Preorder Scalar]
    (flat : trace.toTrace.Flat)
    (context : ∀ node, (trace.node node).sampled = false → ∀ trains ∈ (trace.node node).mask,
      trains = false)
    (echo : Option (EchoConfig Scalar))
    (positive : ∀ config, echo = some config → ∀ role alpha,
      (role, alpha) ∈ config.roles.roleWeights → 0 < alpha)
    (declared : ActionLossType) (envName : String)
    (captureSampledMasks capturePolicyVersions : Bool)
    (materialization : TrainingMaterialization Scalar)
    (materialized : materializeTrainingData trace.toTrace envName captureSampledMasks
      capturePolicyVersions = .ok materialization)
    (samples : List (TrainingSample Scalar))
    (routed : routeSamples trace echo declared materialization.samples = .ok samples) :
    samples.length = (iterTrainableBranches trace.toTrace trace.branches).length ∧
      ∀ sampleIdx item,
        (iterTrainableBranches trace.toTrace trace.branches)[sampleIdx]? = some item →
        ∃ sample, samples[sampleIdx]? = some sample ∧
          Routed trace echo declared sampleIdx item sample := by
  have drawn := materialized_samples trace materialized
  have facts : ∀ item ∈ iterTrainableBranches trace.toTrace trace.branches,
      item.branch.tokenIds.length = span trace item.branch.nodes ∧
        item.mask.length = item.branch.tokenIds.length := by
    intro item listed
    obtain ⟨among, within⟩ := trainable_within trace flat item listed
    have long : item.branch.tokenIds.length = span trace item.branch.nodes := by
      rw [flat.tokens _ among, List.length_flatMap, span]
    refine ⟨long, ?_⟩
    rw [within.length_eq, long, List.length_flatMap, span,
      List.map_congr_left (fun node _ => flat.aligned node)]
  obtain ⟨weighed, observed, rfl⟩ := map_ok routed
  cases echo with
  | none =>
    obtain rfl := Except.ok.inj observed
    refine ⟨by simp [drawn], fun sampleIdx item listed => ?_⟩
    have member := List.mem_of_getElem? listed
    have plain : Observations (branchSample trace.toTrace envName capturePolicyVersions item) :=
      ⟨(facts item member).2, rfl, rfl, fun weights impossible => by cases impossible⟩
    refine ⟨_, by simp [drawn, listed], stamped_routed trace flat context none declared sampleIdx
      item member plain rfl rfl ?_⟩
    intro before node after inner path inside
    refine iff_of_false (not_not.mpr rfl) ?_
    rintro ⟨config, impossible, -⟩
    cases impossible
  | some config =>
    obtain ⟨masks, rfl, narrowed⟩ := weight_observations_masks trace config observed
    have at_place := weigh_samples_at trace config.roles.roleWeights masks 0
      (branchSample trace.toTrace envName capturePolicyVersions)
      (iterTrainableBranches trace.toTrace trace.branches)
    rw [← drawn] at at_place
    refine ⟨?_, fun sampleIdx item listed => ?_⟩
    · rw [List.length_map]
      refine Nat.le_antisymm ?_ ?_
      · refine Nat.le_of_not_lt (fun longer => ?_)
        have read := at_place (iterTrainableBranches trace.toTrace trace.branches).length
        rw [List.getElem?_eq_getElem longer, List.getElem?_eq_none (Nat.le_refl _)] at read
        cases read
      · refine Nat.le_of_not_lt (fun shorter => ?_)
        have read := at_place (weighSamples trace config.roles.roleWeights masks 0
          materialization.samples ((iterTrainableBranches trace.toTrace trace.branches).map
            TrainableBranch.branch)).length
        rw [List.getElem?_eq_none (Nat.le_refl _), List.getElem?_eq_getElem shorter] at read
        cases read
    · have member := List.mem_of_getElem? listed
      have inside : sampleIdx < (iterTrainableBranches trace.toTrace trace.branches).length :=
        (List.getElem?_eq_some_iff.mp listed).1
      have place := at_place sampleIdx
      rw [Nat.zero_add, listed, Option.map_some] at place
      obtain ⟨tokens, mask, observations, weights⟩ := weighed_sample trace
        config.roles.roleWeights (masks.map (fun masks => masks.getD sampleIdx []))
        (branchSample trace.toTrace envName capturePolicyVersions item) item.branch
        (facts item member).1 rfl rfl rfl (facts item member).2
      refine ⟨_, by rw [List.getElem?_map, place, Option.map_some],
        stamped_routed trace flat context (some config) declared sampleIdx item member observations
          tokens mask ?_⟩
      intro before node after inner path short
      have same := weighed_observed trace config (positive config rfl) _ sampleIdx
        (narrowed sampleIdx inside) before after node inner short
      rw [componentWeight, weights, path, same]
      constructor
      · exact fun kept => ⟨config, rfl, kept⟩
      · rintro ⟨other, found, kept⟩
        obtain rfl := Option.some.inj found
        exact kept

/-- A prompt, its answer and three continuations by a tool, of which one is replied to. -/
def toolCalls : EchoTrace Int :=
  { id := "calls"
    stopCondition := none
    mmTokenTypeIdMap := []
    tools := []
    nodes := [textNode [1] false, textNode [2, 3] true, textNode [4] false, textNode [5] false,
      textNode [6, 7] false, textNode [8] true]
    branches :=
      [{ index := 0, nodes := [0, 1, 2], tokenIds := [1, 2, 3, 4]
         sampledMask := [false, true, true, false], logprobs := [], mmTokenTypeIds := none
         trainable := true },
       { index := 1, nodes := [0, 1, 3], tokenIds := [1, 2, 3, 5]
         sampledMask := [false, true, true, false], logprobs := [], mmTokenTypeIds := none
         trainable := true },
       { index := 2, nodes := [0, 1, 4, 5], tokenIds := [1, 2, 3, 6, 7, 8]
         sampledMask := [false, true, true, false, false, true], logprobs := []
         mmTokenTypeIds := none, trainable := true }]
    text := fun node =>
      if node.val = 0 then ⟨"user", []⟩
      else if node.val = 4 then ⟨"tool", [false, true]⟩
      else if node.val = 1 ∨ node.val = 5 then ⟨"assistant", []⟩
      else ⟨"tool", []⟩ }

/-- Tool outputs train with weight two, except those of the first branch. -/
def toolEcho : EchoConfig Int :=
  { roles := { system := none, user := some 1, assistant := none, tool := some 2 }
    filterFn := some (fun _ => .list [.list (List.replicate 4 false), .list (List.replicate 6 true)]) }

/-- The second branch trains nothing, so that the third one is paired with the second sample: its
tool output trains where it is content, and the shared answer is left to the first sample. -/
theorem tool_calls_routed :
    ∃ samples item, routeSamples toolCalls (some toolEcho) .ce
        ((iterTrainableBranches toolCalls.toTrace toolCalls.branches).map
          (branchSample toolCalls.toTrace "env" false)) = .ok samples ∧
      samples.map TrainingSample.ceWeights = [some [0, 1, 1, 0], some [0, 0, 0, 0, 2, 1]] ∧
      (iterTrainableBranches toolCalls.toTrace toolCalls.branches)[1]? = some item ∧
      item.branch.index = 2 ∧
      ∃ sample, samples[1]? = some sample ∧
        Routed toolCalls (some toolEcho) .ce 1 item sample := by
  have positive : ∀ config, some toolEcho = some config → ∀ role alpha,
      (role, alpha) ∈ config.roles.roleWeights → 0 < alpha := by
    intro config same role alpha listed
    obtain rfl := Option.some.inj same
    have members : toolEcho.roles.roleWeights = [("user", 1), ("tool", 2)] := rfl
    rw [members] at listed
    simp only [List.mem_cons, Prod.mk.injEq, List.not_mem_nil, or_false] at listed
    omega
  obtain ⟨-, routed⟩ := routed_samples_feed_declared toolCalls
    ⟨by decide, by decide, by decide⟩ (by decide) (some toolEcho) positive .ce "env" false false _
    rfl _ rfl
  exact ⟨_, _, rfl, rfl, rfl, rfl, routed 1 _ rfl⟩

end

end PrimeRl.Orchestrator.Echo
