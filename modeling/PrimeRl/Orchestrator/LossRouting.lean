import Mathlib.Algebra.Ring.Int.Defs
import Mathlib.Algebra.Ring.Nat
import Mathlib.Data.List.Forall2
import Mathlib.Order.Basic
import PrimeRl.Orchestrator.Echo

/-!
# Which component trains a token

The weights of a branch are those of its nodes, one after the other, so a token
is found in its node and the nodes before it say whether a response was seen.
Masks only ever lose entries on the way from a node to a sample, and streams are
written at masked tokens by routing and at unmasked ones by echo.
-/

namespace PrimeRl.Orchestrator.Echo

open PrimeRl.Orchestrator.MessageGraph PrimeRl.Orchestrator.Trajectories PrimeRl.Transport Fallible

universe u
variable {Scalar : Type u}

/-! ## Writing weights -/

section
variable [Zero Scalar] (trace : EchoTrace Scalar) (keepMask : Option (List Bool))

/-- The weights of the tokens of a node that a weight is written to. -/
def nodeWeights (weight : Scalar) (node : Fin trace.nodes.length) (offset : Nat) : List Scalar :=
  (List.range (trace.node node).tokenIds.length).map
    (fun inner => if keeps trace keepMask node offset inner then weight else 0)

/-- Writing into zeros behind what is done fills in the weights of the node. -/
theorem weigh_node_eq (weight : Scalar) (node : Fin trace.nodes.length) (done : List Scalar)
    (remaining : Nat) :
    weighNode trace keepMask weight node done.length
        (done ++ List.replicate ((trace.node node).tokenIds.length + remaining) 0) =
      done ++ nodeWeights trace keepMask weight node done.length ++
        List.replicate remaining 0 := by
  have written : ∀ count ≤ (trace.node node).tokenIds.length,
      (List.range count).foldl
          (fun weights inner =>
            if keeps trace keepMask node done.length inner then
              weights.set (done.length + inner) weight
            else weights)
          (done ++ List.replicate ((trace.node node).tokenIds.length + remaining) 0) =
        done ++ (List.range count).map
            (fun inner => if keeps trace keepMask node done.length inner then weight else 0) ++
          List.replicate ((trace.node node).tokenIds.length - count + remaining) 0 := by
    intro count within
    induction count with
    | zero => rw [List.range_zero, List.foldl_nil, List.map_nil, List.append_nil, Nat.sub_zero]
    | succ count inductionHypothesis =>
      have next : (trace.node node).tokenIds.length - count + remaining =
          (trace.node node).tokenIds.length - (count + 1) + remaining + 1 := by omega
      rw [List.range_succ, List.foldl_append, inductionHypothesis (by omega), List.foldl_cons,
        List.foldl_nil, next, List.replicate_succ, List.map_append, List.map_singleton]
      split
      · rw [List.set_append_right _ _ (by simp)]
        simp
      · simp
  have whole := written _ (Nat.le_refl _)
  rw [Nat.sub_self, Nat.zero_add] at whole
  exact whole

variable (roleWeights : List (String × Scalar))

/-- The weights of a node, given whether a response was seen before it. -/
def segmentWeights (seenResponse : Bool) (node : Fin trace.nodes.length) (offset : Nat) :
    List Scalar :=
  match roleWeights.lookup (trace.text node).role with
  | some weight =>
      if seenResponse && !(trace.node node).sampled then
        nodeWeights trace keepMask weight node offset
      else List.replicate (trace.node node).tokenIds.length 0
  | none => List.replicate (trace.node node).tokenIds.length 0

/-- The weights of the nodes of a path, one after the other. -/
def pathWeights (offset : Nat) (seenResponse : Bool) :
    List (Fin trace.nodes.length) → List Scalar
  | [] => []
  | node :: rest =>
      segmentWeights trace keepMask roleWeights seenResponse node offset ++
        pathWeights (offset + (trace.node node).tokenIds.length)
          (seenResponse || (trace.node node).sampled) rest

/-- The tokens of the nodes of a path. -/
def span (nodes : List (Fin trace.nodes.length)) : Nat :=
  (nodes.map (fun node => (trace.node node).tokenIds.length)).sum

theorem segment_weights_length (seenResponse : Bool) (node : Fin trace.nodes.length)
    (offset : Nat) :
    (segmentWeights trace keepMask roleWeights seenResponse node offset).length =
      (trace.node node).tokenIds.length := by
  unfold segmentWeights
  split
  · split
    · simp [nodeWeights]
    · simp
  · simp

theorem path_weights_length (offset : Nat) (seenResponse : Bool)
    (nodes : List (Fin trace.nodes.length)) :
    (pathWeights trace keepMask roleWeights offset seenResponse nodes).length =
      span trace nodes := by
  induction nodes generalizing offset seenResponse with
  | nil => rfl
  | cons node rest inductionHypothesis =>
    rw [pathWeights, List.length_append, segment_weights_length, inductionHypothesis, span, span,
      List.map_cons, List.sum_cons]

/-- Walking a branch over zeros writes the weights of its path. -/
theorem weigh_nodes_eq (nodes : List (Fin trace.nodes.length)) (seenResponse : Bool)
    (done : List Scalar) :
    weighNodes trace roleWeights keepMask done.length seenResponse
        (done ++ List.replicate (span trace nodes) 0) nodes =
      done ++ pathWeights trace keepMask roleWeights done.length seenResponse nodes := by
  induction nodes generalizing seenResponse done with
  | nil => simp [weighNodes, pathWeights, span]
  | cons node rest inductionHypothesis =>
    have total : span trace (node :: rest) =
        (trace.node node).tokenIds.length + span trace rest := by
      rw [span, List.map_cons, List.sum_cons, span]
    have later := inductionHypothesis (seenResponse || (trace.node node).sampled)
      (done ++ segmentWeights trace keepMask roleWeights seenResponse node done.length)
    rw [List.length_append, segment_weights_length] at later
    rw [weighNodes, pathWeights, ← List.append_assoc, ← later]
    refine congrArg (fun weights => weighNodes trace roleWeights keepMask
      (done.length + (trace.node node).tokenIds.length)
      (seenResponse || (trace.node node).sampled) weights rest) ?_
    unfold segmentWeights
    rw [total]
    have untouched : done ++ List.replicate ((trace.node node).tokenIds.length + span trace rest)
          (0 : Scalar) =
        done ++ List.replicate (trace.node node).tokenIds.length 0 ++
          List.replicate (span trace rest) 0 := by
      rw [List.replicate_add, List.append_assoc]
    cases roleWeights.lookup (trace.text node).role with
    | none => exact untouched
    | some weight =>
      dsimp only
      by_cases observed : (seenResponse && !(trace.node node).sampled) = true
      · rw [if_pos observed, if_pos observed]
        exact weigh_node_eq trace keepMask weight node done (span trace rest)
      · rw [if_neg observed, if_neg observed]
        exact untouched

/-- The weight of a token in its node. -/
theorem path_weights_at (before after : List (Fin trace.nodes.length))
    (node : Fin trace.nodes.length) (inner offset : Nat) (seenResponse : Bool)
    (inside : inner < (trace.node node).tokenIds.length) :
    (pathWeights trace keepMask roleWeights offset seenResponse
        (before ++ node :: after))[span trace before + inner]? =
      (segmentWeights trace keepMask roleWeights
        (seenResponse || before.any (fun earlier => (trace.node earlier).sampled)) node
        (offset + span trace before))[inner]? := by
  induction before generalizing offset seenResponse with
  | nil =>
    have short : inner < (segmentWeights trace keepMask roleWeights seenResponse node offset).length :=
      (segment_weights_length trace keepMask roleWeights seenResponse node offset).symm ▸ inside
    simp only [List.nil_append, pathWeights, List.any_nil, Bool.or_false, span, List.map_nil,
      List.sum_nil, Nat.zero_add, Nat.add_zero]
    exact List.getElem?_append_left short
  | cons first rest inductionHypothesis =>
    have total : span trace (first :: rest) =
        (trace.node first).tokenIds.length + span trace rest := by
      rw [span, List.map_cons, List.sum_cons, span]
    have later := inductionHypothesis (offset + (trace.node first).tokenIds.length)
      (seenResponse || (trace.node first).sampled)
    have behind : (segmentWeights trace keepMask roleWeights seenResponse first offset).length ≤
        span trace (first :: rest) + inner := by
      rw [segment_weights_length, total]
      omega
    rw [List.cons_append, pathWeights, List.getElem?_append_right behind, segment_weights_length,
      total, Nat.add_assoc, Nat.add_sub_cancel_left, later, List.any_cons, Bool.or_assoc,
      Nat.add_assoc]

omit [Zero Scalar] in
/-- A token keeps its weight when the attribution and the filter let it. -/
theorem keeps_iff (node : Fin trace.nodes.length) (offset inner : Nat) :
    keeps trace keepMask node offset inner = true ↔
      ((trace.text node).isContent.length = (trace.node node).tokenIds.length →
        (trace.text node).isContent.getD inner false = true) ∧
      ∀ keep, keepMask = some keep → keep.getD (offset + inner) false = true := by
  unfold keeps
  rw [Bool.and_eq_true]
  refine and_congr ?_ ?_
  · by_cases attributed :
      (trace.text node).isContent.length = (trace.node node).tokenIds.length
    · simp [attributed]
    · simp [attributed]
  · cases keepMask <;> simp

/-- A token of a node has a weight when its node is an observation with a role that trains, and
the token is kept. -/
theorem segment_weight_at (seenResponse : Bool) (node : Fin trace.nodes.length)
    (offset inner : Nat) (inside : inner < (trace.node node).tokenIds.length)
    (trains : ∀ role alpha, roleWeights.lookup role = some alpha → alpha ≠ 0) :
    (segmentWeights trace keepMask roleWeights seenResponse node offset).getD inner 0 ≠ 0 ↔
      seenResponse = true ∧ (trace.node node).sampled = false ∧
        (∃ alpha, roleWeights.lookup (trace.text node).role = some alpha) ∧
        keeps trace keepMask node offset inner = true := by
  unfold segmentWeights
  cases known : roleWeights.lookup (trace.text node).role with
  | none => simp
  | some alpha =>
    have nonzero := trains _ alpha known
    by_cases observed : (seenResponse && !(trace.node node).sampled) = true
    · dsimp only
      rw [if_pos observed]
      rw [Bool.and_eq_true, Bool.not_eq_true'] at observed
      have read : (nodeWeights trace keepMask alpha node offset).getD inner 0 =
          if keeps trace keepMask node offset inner then alpha else 0 := by
        simp [nodeWeights, inside]
      rw [read]
      by_cases kept : keeps trace keepMask node offset inner = true
      · simp [kept, nonzero, observed]
      · simp [kept]
    · dsimp only
      rw [if_neg observed]
      rw [Bool.and_eq_true, Bool.not_eq_true'] at observed
      have zero : (List.replicate (trace.node node).tokenIds.length (0 : Scalar)).getD inner 0 =
          0 := by
        simp [inside]
      exact iff_of_false (not_not.mpr zero) (fun both => observed ⟨both.1, both.2.1⟩)

end

/-! ## Tokens in their nodes -/

section
variable (trace : EchoTrace Scalar)

/-- Every token of a path lies in one of its nodes. -/
theorem located (nodes : List (Fin trace.nodes.length)) (position : Nat)
    (inside : position < span trace nodes) :
    ∃ before node after inner, nodes = before ++ node :: after ∧
      inner < (trace.node node).tokenIds.length ∧ position = span trace before + inner := by
  induction nodes generalizing position with
  | nil => exact absurd inside (Nat.not_lt_zero position)
  | cons node rest inductionHypothesis =>
    have total : span trace (node :: rest) =
        (trace.node node).tokenIds.length + span trace rest := by
      rw [span, List.map_cons, List.sum_cons, span]
    rcases Nat.lt_or_ge position (trace.node node).tokenIds.length with here | later
    · exact ⟨[], node, rest, position, rfl, here, (Nat.zero_add position).symm⟩
    · obtain ⟨before, other, after, inner, rfl, within, same⟩ :=
        inductionHypothesis (position - (trace.node node).tokenIds.length) (by omega)
      refine ⟨node :: before, other, after, inner, rfl, within, ?_⟩
      rw [span, List.map_cons, List.sum_cons]
      rw [span] at same
      omega

/-- The mask of a path at a token is the mask of the token's node. -/
theorem path_mask_at
    (aligned : ∀ node, (trace.node node).mask.length = (trace.node node).tokenIds.length)
    (before after : List (Fin trace.nodes.length)) (node : Fin trace.nodes.length) (inner : Nat)
    (inside : inner < (trace.node node).tokenIds.length) :
    ((before ++ node :: after).flatMap
        (fun node => (trace.node node).mask))[span trace before + inner]? =
      (trace.node node).mask[inner]? := by
  have skipped : (before.flatMap (fun node => (trace.node node).mask)).length =
      span trace before := by
    rw [List.length_flatMap, span, List.map_congr_left (fun node _ => aligned node)]
  rw [List.flatMap_append, List.getElem?_append_right (by omega), skipped, Nat.add_sub_cancel_left,
    List.flatMap_cons]
  exact List.getElem?_append_left (aligned node ▸ inside)

/-- Every entry of the first mask that is set is set in the second. -/
def Within (first second : List Bool) : Prop :=
  List.Forall₂ (fun kept given => kept = true → given = true) first second

theorem within_refl (mask : List Bool) : Within mask mask :=
  List.forall₂_same.mpr (fun _ _ => id)

/-- Walking a branch only takes entries from the masks of its nodes. -/
theorem walk_branch_within (trained : List (Fin trace.nodes.length)) (mask given : List Bool)
    (within : Within mask given) (nodes : List (Fin trace.nodes.length)) :
    Within (walkBranch trace.toTrace trained mask nodes).1
      (given ++ nodes.flatMap (fun node => (trace.node node).mask)) := by
  induction nodes generalizing trained mask given with
  | nil =>
    rw [List.flatMap_nil, List.append_nil]
    exact within
  | cons node rest inductionHypothesis =>
    have context : Within (List.replicate (trace.node node).mask.length false)
        (trace.node node).mask := by
      generalize (trace.node node).mask = nodeMask
      induction nodeMask with
      | nil => exact .nil
      | cons _ _ rest => exact .cons nofun rest
    rw [List.flatMap_cons, ← List.append_assoc, walkBranch]
    split
    · exact inductionHypothesis _ _ _ (List.rel_append within context)
    · exact inductionHypothesis _ _ _ (List.rel_append within (within_refl _))

/-- The mask of a materialized branch only takes entries from the masks of its nodes. -/
theorem trainable_within (flat : trace.toTrace.Flat)
    (item : TrainableBranch Scalar trace.nodes.length)
    (listed : item ∈ iterTrainableBranches trace.toTrace trace.branches) :
    item.branch ∈ trace.branches ∧
      Within item.mask (item.branch.nodes.flatMap (fun node => (trace.node node).mask)) := by
  have forked : ∀ (branches : List (Branch Scalar trace.nodes.length)) trained,
      item ∈ forkedBranches trace.toTrace trained branches → item.branch ∈ branches ∧
        Within item.mask (item.branch.nodes.flatMap (fun node => (trace.node node).mask)) := by
    intro branches
    induction branches with
    | nil => exact fun trained impossible => absurd impossible List.not_mem_nil
    | cons branch rest inductionHypothesis =>
      intro trained member
      rw [forkedBranches] at member
      dsimp only at member
      have later : ∀ trained, item ∈ forkedBranches trace.toTrace trained rest →
          item.branch ∈ branch :: rest ∧ Within item.mask
            (item.branch.nodes.flatMap (fun node => (trace.node node).mask)) :=
        fun trained inside =>
          have ⟨among, within⟩ := inductionHypothesis trained inside
          ⟨List.mem_cons_of_mem branch among, within⟩
      split at member
      · rcases List.mem_cons.mp member with rfl | inside
        · exact ⟨List.mem_cons_self, walk_branch_within trace trained [] [] .nil branch.nodes⟩
        · exact later _ inside
      · exact later _ member
  unfold iterTrainableBranches at listed
  split at listed
  · exact absurd listed List.not_mem_nil
  · rename_i branch alone
    split at listed
    · obtain rfl := List.mem_singleton.mp listed
      have among : branch ∈ trace.branches := alone ▸ List.mem_cons_self
      refine ⟨among, ?_⟩
      rw [← flat.sampledMask branch among]
      exact within_refl _
    · exact absurd listed List.not_mem_nil
  · exact forked _ _ listed

end

end PrimeRl.Orchestrator.Echo
