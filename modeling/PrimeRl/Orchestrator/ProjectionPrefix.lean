import PrimeRl.Orchestrator.Projection
import PrimeRl.Support.Fallible

/-!
# A projection is a prefix

The loop over the copied nodes cuts every stream of an accepted trace to the same
prefix of its tokens. Tokens and masks stand at physical positions, log
probabilities count sampled tokens only, and the weight versions follow by the
commutation of clipping with decoding.
-/

namespace PrimeRl.Orchestrator.Projection

open PrimeRl.Orchestrator.MessageGraph PrimeRl.Orchestrator.Provenance PrimeRl.Orchestrator.Episodes

universe u
variable {Scalar : Type u}

/-- A node whose streams can be cut together. -/
structure Projectable (node : WireNode Scalar) : Prop where
  valid : validateWeightVersions node.toMessageNode = .ok ()
  aligned : node.mask.length = node.tokenIds.length
  logprobs : node.logprobs.length = node.mask.count true
  isContent : node.isContent ≠ [] → node.isContent.length = node.tokenIds.length

/-- A node cut with its clipped weight versions. -/
def cutWhole (node : WireNode Scalar) (retained : Nat) : WireNode Scalar :=
  cutNode node retained
    (node.weightVersions.map (clipSpans ((node.mask.take retained).count true)))

/-- Nodes cut one after the other while the limit lasts. -/
def cutNodes : Nat → List (WireNode Scalar) → List (WireNode Scalar)
  | _, [] => []
  | remaining, node :: rest =>
      cutWhole node (min node.tokenIds.length remaining) ::
        cutNodes (remaining - min node.tokenIds.length remaining) rest

/-- The loop over distinct copies of such nodes cuts them in order and touches
    nothing else. The induction is on the addresses still to visit. -/
theorem cut_each_runs (addresses : List Nat) (remaining : Nat) (nodes : Heap (WireNode Scalar))
    (distinct : addresses.Nodup)
    (projectable : ∀ address ∈ addresses, Projectable (nodes.cell address)) :
    ∃ after, cutEach addresses remaining nodes = .ok after ∧
      addresses.map after.cell = cutNodes remaining (addresses.map nodes.cell) ∧
      ∀ other, other ∉ addresses → after.cell other = nodes.cell other := by
  induction addresses generalizing remaining nodes with
  | nil => exact ⟨nodes, rfl, rfl, fun other _ => rfl⟩
  | cons address rest inductionHypothesis =>
    obtain ⟨absent, restDistinct⟩ := List.nodup_cons.mp distinct
    obtain ⟨here, later⟩ := List.forall_mem_cons.mp projectable
    let retained := min (nodes.cell address).tokenIds.length remaining
    let written := nodes.write address (cutWhole (nodes.cell address) retained)
    have untouched : ∀ other ∈ rest, written.cell other = nodes.cell other := by
      intro other member
      exact nodes.write_other address _ (fun same => absent (same ▸ member))
    obtain ⟨after, runs, reads, frame⟩ := inductionHypothesis (remaining - retained) written
      restDistinct (fun other member => untouched other member ▸ later other member)
    refine ⟨after, ?_, ?_, ?_⟩
    · rw [cutEach, clip_accepted _ here.valid]
      exact runs
    · have first : after.cell address = cutWhole (nodes.cell address) retained :=
        (frame address absent).trans (nodes.write_same address _)
      rw [List.map_cons, List.map_cons, cutNodes, first, reads, List.map_congr_left untouched]
    · intro other outside
      obtain ⟨apart, notLater⟩ := not_or.mp (fun member => outside (List.mem_cons.mpr member))
      rw [frame other notLater]
      exact nodes.write_other address _ apart

/-- What is left of a limit after a node. -/
theorem left_over (count remaining : Nat) : remaining - min count remaining = remaining - count := by
  omega

theorem cut_tokens (remaining : Nat) (nodes : List (WireNode Scalar)) :
    (cutNodes remaining nodes).flatMap (fun node => node.tokenIds) =
      (nodes.flatMap (fun node => node.tokenIds)).take remaining := by
  induction nodes generalizing remaining with
  | nil => exact List.take_nil.symm
  | cons node rest inductionHypothesis =>
    have here : (cutWhole node (min node.tokenIds.length remaining)).tokenIds =
        node.tokenIds.take remaining := by
      change node.tokenIds.take (min node.tokenIds.length remaining) = node.tokenIds.take remaining
      rw [Nat.min_comm, ← List.take_eq_take_min]
    rw [cutNodes, List.flatMap_cons, List.flatMap_cons, inductionHypothesis, here, left_over,
      List.take_append]

theorem cut_mask (remaining : Nat) (nodes : List (WireNode Scalar))
    (aligned : ∀ node ∈ nodes, node.mask.length = node.tokenIds.length) :
    (cutNodes remaining nodes).flatMap (fun node => node.mask) =
      (nodes.flatMap (fun node => node.mask)).take remaining := by
  induction nodes generalizing remaining with
  | nil => exact List.take_nil.symm
  | cons node rest inductionHypothesis =>
    obtain ⟨same, later⟩ := List.forall_mem_cons.mp aligned
    have here : (cutWhole node (min node.tokenIds.length remaining)).mask =
        node.mask.take remaining := by
      change node.mask.take (min node.tokenIds.length remaining) = node.mask.take remaining
      rw [Nat.min_comm, ← same, ← List.take_eq_take_min]
    rw [cutNodes, List.flatMap_cons, List.flatMap_cons, inductionHypothesis _ later, here, left_over,
      ← same, List.take_append]

/-- A limit that is used up leaves no sampled token. -/
theorem cut_nothing (nodes : List (WireNode Scalar)) :
    (cutNodes 0 nodes).flatMap (fun node => node.mask) = [] := by
  induction nodes with
  | nil => rfl
  | cons node rest inductionHypothesis =>
    have here : (cutWhole node (min node.tokenIds.length 0)).mask = [] := by
      change node.mask.take (min node.tokenIds.length 0) = []
      rw [Nat.min_zero, List.take_zero]
    rw [cutNodes, List.flatMap_cons, here, Nat.zero_sub, inductionHypothesis]
    rfl

/-- Log probabilities are cut to one for each retained sampled token. While
    nodes are kept whole the counts add up; behind the cut nothing is sampled. -/
theorem cut_logprobs (remaining : Nat) (nodes : List (WireNode Scalar))
    (projectable : ∀ node ∈ nodes, Projectable node) :
    (cutNodes remaining nodes).flatMap (fun node => node.logprobs) =
      (nodes.flatMap (fun node => node.logprobs)).take
        (((cutNodes remaining nodes).flatMap (fun node => node.mask)).count true) := by
  induction nodes generalizing remaining with
  | nil => exact List.take_nil.symm
  | cons node rest inductionHypothesis =>
    obtain ⟨here, later⟩ := List.forall_mem_cons.mp projectable
    rw [cutNodes, List.flatMap_cons, List.flatMap_cons, List.flatMap_cons, List.count_append,
      inductionHypothesis _ later]
    change node.logprobs.take ((node.mask.take (min node.tokenIds.length remaining)).count true) ++ _ =
      List.take ((node.mask.take (min node.tokenIds.length remaining)).count true + _) _
    by_cases whole : node.tokenIds.length ≤ remaining
    · have all : node.mask.take (min node.tokenIds.length remaining) = node.mask := by
        rw [Nat.min_eq_left whole]
        exact List.take_of_length_le (Nat.le_of_eq here.aligned)
      rw [all, ← here.logprobs, List.take_length, List.take_length_add_append]
    · have used : remaining - min node.tokenIds.length remaining = 0 := by omega
      have fewer := (List.take_sublist (min node.tokenIds.length remaining) node.mask).count_le true
      rw [used, cut_nothing, List.count_nil, List.take_zero, List.append_nil, Nat.add_zero,
        List.take_append_of_le_length (here.logprobs ▸ fewer)]

theorem cut_logprobs_length (remaining : Nat) (nodes : List (WireNode Scalar))
    (projectable : ∀ node ∈ nodes, Projectable node) :
    ((cutNodes remaining nodes).flatMap (fun node => node.logprobs)).length =
      ((cutNodes remaining nodes).flatMap (fun node => node.mask)).count true := by
  induction nodes generalizing remaining with
  | nil => rfl
  | cons node rest inductionHypothesis =>
    obtain ⟨here, later⟩ := List.forall_mem_cons.mp projectable
    have fewer := (List.take_sublist (min node.tokenIds.length remaining) node.mask).count_le true
    have cutHere : (cutWhole node (min node.tokenIds.length remaining)).logprobs.length =
        (cutWhole node (min node.tokenIds.length remaining)).mask.count true := by
      change (node.logprobs.take _).length = (node.mask.take _).count true
      rw [List.length_take, here.logprobs, Nat.min_eq_left fewer]
    rw [cutNodes, List.flatMap_cons, List.flatMap_cons, List.length_append, List.count_append,
      cutHere, inductionHypothesis _ later]

/-- What a cut node keeps beside its place in the streams: content marks follow
    its tokens, and its steps are a prefix of the steps of the original. -/
structure CutFrom (before after : WireNode Scalar) : Prop where
  isContent : after.isContent = before.isContent.take after.tokenIds.length
  versions : ∃ versions, nodePolicyVersions before.toMessageNode = .ok versions ∧
    nodePolicyVersions after.toMessageNode = .ok (versions.take after.tokenIds.length)

theorem cut_whole_from (node : WireNode Scalar) (projectable : Projectable node) (remaining : Nat) :
    CutFrom node (cutWhole node (min node.tokenIds.length remaining)) := by
  have length : (cutWhole node (min node.tokenIds.length remaining)).tokenIds.length =
      min node.tokenIds.length remaining := by
    change (node.tokenIds.take _).length = _
    rw [List.length_take, Nat.min_eq_left (Nat.min_le_left _ _)]
  constructor
  · rw [length]
    rfl
  · refine ⟨stepVersions node.toMessageNode, ?_, ?_⟩
    · rw [nodePolicyVersions, projectable.valid]
      rfl
    · rw [length]
      exact cut_policy_versions node.toMessageNode projectable.valid _

theorem cut_nodes_from (remaining : Nat) (nodes : List (WireNode Scalar))
    (projectable : ∀ node ∈ nodes, Projectable node) :
    List.Forall₂ CutFrom nodes (cutNodes remaining nodes) := by
  induction nodes generalizing remaining with
  | nil => exact .nil
  | cons node rest inductionHypothesis =>
    obtain ⟨here, later⟩ := List.forall_mem_cons.mp projectable
    exact .cons (cut_whole_from node here remaining) (inductionHypothesis _ later)

/-- What the checks of a node at its place establish. -/
theorem node_projection_reason_none (node : WireNode Scalar) (index : Nat)
    (admitted : nodeProjectionReason node index = none) :
    node.parent = (if index = 0 then none else some ((index : Int) - 1)) ∧
      node.mask.length = node.tokenIds.length ∧ node.logprobs.length = node.mask.count true ∧
      (node.isContent ≠ [] → node.isContent.length = node.tokenIds.length) := by
  unfold nodeProjectionReason at admitted
  obtain ⟨parent, admitted⟩ := Fallible.no_reason admitted
  obtain ⟨-, admitted⟩ := Fallible.no_reason admitted
  obtain ⟨-, admitted⟩ := Fallible.no_reason admitted
  obtain ⟨-, admitted⟩ := Fallible.no_reason admitted
  obtain ⟨-, admitted⟩ := Fallible.no_reason admitted
  obtain ⟨-, admitted⟩ := Fallible.no_reason admitted
  obtain ⟨-, admitted⟩ := Fallible.no_reason admitted
  obtain ⟨aligned, admitted⟩ := Fallible.no_reason admitted
  obtain ⟨logprobs, admitted⟩ := Fallible.no_reason admitted
  obtain ⟨content, -⟩ := Fallible.no_reason admitted
  refine ⟨not_not.mp parent, not_not.mp aligned, not_not.mp logprobs, ?_⟩
  intro present
  exact not_not.mp (fun differs => content ⟨present, differs⟩)

section
variable (branchesOf : (nodes : List (WireNode Scalar)) →
  List (Branch Scalar (nodes.map WireNode.toMessageNode).length))

/-- The checks pass only with a positive limit, an admitted graph and no reason
    against any node. -/
theorem check_projection_ok (store : Store Scalar) (trace : Nat) (maxSeqLen : Int)
    (accepted : checkProjection branchesOf store trace maxSeqLen = .ok ()) :
    0 < maxSeqLen ∧ validateTrainingTrace (graphOf branchesOf store trace) = .ok () ∧
      ∀ entry ∈ (store.nodesOf trace).zipIdx, nodeProjectionReason entry.1 entry.2 = none := by
  unfold checkProjection at accepted
  obtain ⟨limit, accepted⟩ := Fallible.check_passed accepted
  obtain ⟨-, accepted⟩ := Fallible.check_passed accepted
  obtain ⟨-, accepted⟩ := Fallible.check_passed accepted
  obtain ⟨-, accepted⟩ := Fallible.check_passed accepted
  cases admitted : validateTrainingTrace (graphOf branchesOf store trace) with
  | error message => rw [admitted] at accepted; cases accepted
  | ok _ =>
    rw [admitted] at accepted
    obtain ⟨-, accepted⟩ := Fallible.check_passed accepted
    obtain ⟨-, accepted⟩ := Fallible.check_passed accepted
    cases found : (store.nodesOf trace).zipIdx.findSome?
        (fun entry => nodeProjectionReason entry.1 entry.2) with
    | some reason => rw [found] at accepted; cases accepted
    | none => exact ⟨by omega, rfl, List.findSome?_eq_none_iff.mp found⟩

/-- Every node of an accepted trace can be cut. -/
theorem accepted_projectable (store : Store Scalar) (trace : Nat) (maxSeqLen : Int)
    (accepted : checkProjection branchesOf store trace maxSeqLen = .ok ()) :
    ∀ node ∈ store.nodesOf trace, Projectable node := by
  obtain ⟨-, admitted, nodes⟩ := check_projection_ok branchesOf store trace maxSeqLen accepted
  intro node member
  obtain ⟨index, inside, isNode⟩ := List.mem_iff_getElem.mp member
  have placed : (node, index) ∈ (store.nodesOf trace).zipIdx :=
    List.mk_mem_zipIdx_iff_getElem?.mpr (isNode ▸ List.getElem?_eq_getElem inside)
  obtain ⟨-, aligned, logprobs, content⟩ := node_projection_reason_none node index (nodes _ placed)
  have listed : node.toMessageNode ∈ (graphOf branchesOf store trace).nodes :=
    List.mem_map.mpr ⟨node, member, rfl⟩
  exact ⟨admitted_versions _ admitted _ listed, aligned, logprobs, content⟩

/-- An accepted trace refers to each of its nodes once, since a node has only one
    parent. -/
theorem accepted_distinct (store : Store Scalar) (trace : Nat) (maxSeqLen : Int)
    (accepted : checkProjection branchesOf store trace maxSeqLen = .ok ()) :
    (store.traces.cell trace).nodes.Nodup := by
  obtain ⟨-, -, nodes⟩ := check_projection_ok branchesOf store trace maxSeqLen accepted
  have parents : ∀ (index address : Nat), (store.traces.cell trace).nodes[index]? = some address →
      (store.nodes.cell address).parent = (if index = 0 then none else some ((index : Int) - 1)) := by
    intro index address found
    have placed : (store.nodes.cell address, index) ∈ (store.nodesOf trace).zipIdx := by
      rw [List.mk_mem_zipIdx_iff_getElem?, Store.nodesOf, List.getElem?_map, found]
      rfl
    exact (node_projection_reason_none _ index (nodes _ placed)).1
  rw [List.nodup_iff_getElem?_ne_getElem?]
  intro first second before inside same
  have firstFound := List.getElem?_eq_getElem (Nat.lt_trans before inside)
  have secondParent := parents second _ (same ▸ firstFound)
  rw [parents first _ firstFound, if_neg (by omega : second ≠ 0)] at secondParent
  split_ifs at secondParent
  have sameIndex := Option.some.inj secondParent
  omega

/-- Objects that existed before read as before. -/
structure Unchanged (store after : Store Scalar) : Prop where
  nodes : ∀ address < store.nodes.next, after.nodes.cell address = store.nodes.cell address
  infos : ∀ address < store.infos.next, after.infos.cell address = store.infos.cell address
  traces : ∀ address < store.traces.next, after.traces.cell address = store.traces.cell address

theorem copy_trace_object (store : Store Scalar) (trace : Nat) :
    (store.copyTrace trace).1.traces.cell store.traces.next =
      { store.traces.cell trace with
        nodes := (store.nodes.copy (store.traces.cell trace).nodes).2
        info := store.infos.next } :=
  store.traces.extend_fresh _ 0 (by exact Nat.one_pos)

theorem mark_projected_nodes (store : Store Scalar) (trace : Nat)
    (info : OrderedDict String InfoValue) (stopCondition : Option String) :
    (store.markProjected trace info stopCondition).nodesOf trace = store.nodesOf trace := by
  simp only [Store.nodesOf, Store.markProjected, Heap.write_same]

/-- The loop over the copies of an accepted trace gives the cut nodes. -/
theorem cut_copies (store : Store Scalar) (trace : Nat) (maxSeqLen : Int)
    (checked : checkProjection branchesOf store trace maxSeqLen = .ok ()) :
    ∃ after, cutEach ((store.copyTrace trace).1.traces.cell store.traces.next).nodes maxSeqLen.toNat
        (store.copyTrace trace).1.nodes = .ok after ∧
      (store.nodes.copy (store.traces.cell trace).nodes).2.map after.cell =
        cutNodes maxSeqLen.toNat (store.nodesOf trace) ∧
      ∀ address < store.nodes.next, after.cell address = store.nodes.cell address := by
  have projectable := accepted_projectable branchesOf store trace maxSeqLen checked
  let copies := store.nodes.copy (store.traces.cell trace).nodes
  have sameNodes : copies.2.map copies.1.cell = store.nodesOf trace := Heap.copy_reads _ _
  have copiesProjectable : ∀ address ∈ copies.2, Projectable (copies.1.cell address) := by
    intro address member
    exact projectable _ (sameNodes ▸ List.mem_map.mpr ⟨address, member, rfl⟩)
  obtain ⟨after, runs, reads, frame⟩ := cut_each_runs copies.2 maxSeqLen.toNat copies.1
    (store.nodes.copy_nodup _ (accepted_distinct branchesOf store trace maxSeqLen checked))
    copiesProjectable
  have addresses : ((store.copyTrace trace).1.traces.cell store.traces.next).nodes = copies.2 :=
    congrArg WireTrace.nodes (copy_trace_object store trace)
  refine ⟨after, addresses.symm ▸ runs, sameNodes ▸ reads, ?_⟩
  intro address used
  have older : address ∉ copies.2 := by
    intro member
    exact absurd (store.nodes.copy_fresh _ address member).1 (Nat.not_le_of_lt used)
  exact (frame address older).trans (store.nodes.copy_used _ used)

/-- Clipping never refuses a trace that passed the checks. -/
theorem project_accepts (store : Store Scalar) (trace : Nat) (maxSeqLen : Int)
    (checked : checkProjection branchesOf store trace maxSeqLen = .ok ()) :
    ∃ after, projectTrainingTrace branchesOf store trace maxSeqLen =
      .ok (after, store.traces.next) := by
  obtain ⟨nodes, cut, -⟩ := cut_copies branchesOf store trace maxSeqLen checked
  unfold projectTrainingTrace
  rw [checked]
  dsimp only
  split
  · rename_i message refused
    exact nomatch refused.symm.trans cut
  · exact ⟨_, rfl⟩

/-- A projection reads as the cut nodes of the original and leaves every object
    that existed before as it was. -/
theorem project_training_trace_reads (store after : Store Scalar) (trace projected : Nat)
    (maxSeqLen : Int)
    (accepted : projectTrainingTrace branchesOf store trace maxSeqLen = .ok (after, projected)) :
    after.nodesOf projected = cutNodes maxSeqLen.toNat (store.nodesOf trace) ∧
      (∀ node ∈ store.nodesOf trace, Projectable node) ∧ Unchanged store after := by
  unfold projectTrainingTrace at accepted
  cases checked : checkProjection branchesOf store trace maxSeqLen with
  | error message => rw [checked] at accepted; cases accepted
  | ok _ =>
    obtain ⟨nodes, cut, reads, frame⟩ := cut_copies branchesOf store trace maxSeqLen checked
    have object := copy_trace_object store trace
    rw [checked] at accepted
    dsimp only at accepted
    split at accepted
    · cases accepted
    · rename_i written isWritten
      have isCut : written = nodes := Except.ok.inj (isWritten.symm.trans cut)
      subst isCut
      obtain ⟨rfl, rfl⟩ := Prod.mk.inj (Except.ok.inj accepted)
      refine ⟨?_, accepted_projectable branchesOf store trace maxSeqLen checked, frame, ?_, ?_⟩
      · rw [mark_projected_nodes, ← reads]
        change ((store.copyTrace trace).1.traces.cell store.traces.next).nodes.map written.cell = _
        rw [object]
      · intro address used
        have other : address ≠ ((store.copyTrace trace).1.traces.cell store.traces.next).info := by
          rw [object]
          exact Nat.ne_of_lt used
        exact (Heap.write_other _ _ _ other).trans (store.infos.extend_used _ used)
      · intro address used
        exact (Heap.write_other _ _ _ (Nat.ne_of_lt used)).trans (store.traces.extend_used _ used)

/-- Every projection of an accepted trace is the exact prefix of its token
    streams, with log probabilities by sampled token, content marks and weight
    versions cut to match, and the original is as it was. -/
theorem projection_exact_prefix (store after : Store Scalar) (trace projected : Nat)
    (known : trace < store.traces.next) (maxSeqLen : Int)
    (accepted : projectTrainingTrace branchesOf store trace maxSeqLen = .ok (after, projected)) :
    (after.nodesOf projected).flatMap (fun node => node.tokenIds) =
      ((store.nodesOf trace).flatMap (fun node => node.tokenIds)).take maxSeqLen.toNat ∧
    (after.nodesOf projected).flatMap (fun node => node.mask) =
      ((store.nodesOf trace).flatMap (fun node => node.mask)).take maxSeqLen.toNat ∧
    (after.nodesOf projected).flatMap (fun node => node.logprobs) =
      ((store.nodesOf trace).flatMap (fun node => node.logprobs)).take
        (((after.nodesOf projected).flatMap (fun node => node.mask)).count true) ∧
    ((after.nodesOf projected).flatMap (fun node => node.logprobs)).length =
      ((after.nodesOf projected).flatMap (fun node => node.mask)).count true ∧
    List.Forall₂ CutFrom (store.nodesOf trace) (after.nodesOf projected) ∧
    Unchanged store after ∧ after.traces.cell trace = store.traces.cell trace ∧
    after.nodesOf trace = store.nodesOf trace ∧ after.infoOf trace = store.infoOf trace := by
  obtain ⟨cut, projectable, unchanged⟩ :=
    project_training_trace_reads branchesOf store after trace projected maxSeqLen accepted
  obtain ⟨inside, infoKnown⟩ := store.closed trace known
  have sameTrace := unchanged.traces trace known
  have sameNodes : after.nodesOf trace = store.nodesOf trace := by
    rw [Store.nodesOf, sameTrace]
    exact List.map_congr_left (fun address member => unchanged.nodes address (inside address member))
  have sameInfo : after.infoOf trace = store.infoOf trace := by
    rw [Store.infoOf, sameTrace]
    exact unchanged.infos _ infoKnown
  rw [cut]
  exact ⟨cut_tokens _ _, cut_mask _ _ (fun node member => (projectable node member).aligned),
    cut_logprobs _ _ projectable, cut_logprobs_length _ _ projectable,
    cut_nodes_from _ _ projectable, unchanged, sameTrace, sameNodes, sameInfo⟩

end

/-- The branch of a linear trace. -/
def linearBranch (nodes : List (WireNode Int)) :
    List (Branch Int (nodes.map WireNode.toMessageNode).length) :=
  [{ index := 0
     nodes := List.finRange _
     tokenIds := nodes.flatMap (fun node => node.tokenIds)
     sampledMask := nodes.flatMap (fun node => node.mask)
     logprobs := nodes.flatMap (fun node => node.logprobs)
     mmTokenTypeIds := none
     trainable := true }]

def promptNode : WireNode Int where
  tokenIds := [11, 12]
  mask := [false, false]
  sampled := false
  semanticParents := []
  content := none
  tools := []
  toolCalls := []
  weightVersions := none
  stampedStreams := false
  parent := none
  kind := .user
  logprobs := []
  isContent := [false, true]
  rendererTokenIds := none
  routedExperts := none
  assistantCalls := fun _ => rfl

def answerNode : WireNode Int where
  tokenIds := [20, 21, 22, 23]
  mask := [false, true, true, true]
  sampled := true
  semanticParents := []
  content := none
  tools := []
  toolCalls := []
  weightVersions := some [⟨0, 2, "7"⟩, ⟨2, 3, "8"⟩]
  stampedStreams := false
  parent := some 0
  kind := .assistant
  logprobs := [-1, -2, -3]
  isContent := []
  rendererTokenIds := none
  routedExperts := none
  assistantCalls := fun _ => rfl

/-- One trace of a prompt and an answer. -/
def twoNodes : Store Int where
  nodes := ⟨fun address => if address = 0 then promptNode else answerNode, 2⟩
  infos := ⟨fun _ => .empty, 1⟩
  traces := ⟨fun _ =>
    { id := "t"
      stopCondition := none
      mmTokenTypeIdMap := []
      tools := []
      nodes := [0, 1]
      calls := [⟨none, some 1⟩]
      info := 0
      isCompleted := true
      isTruncated := false }, 1⟩
  closed := by
    intro trace _
    refine ⟨?_, Nat.one_pos⟩
    intro node member
    simp only [List.mem_cons, List.not_mem_nil, or_false] at member
    show node < 2
    omega

theorem projection_exact_prefix_inside_span :
    ∃ after, projectTrainingTrace linearBranch twoNodes 0 4 = .ok (after, 1) ∧
      (after.nodesOf 1).flatMap (fun node => node.tokenIds) = [11, 12, 20, 21] := by
  obtain ⟨after, accepted⟩ := project_accepts linearBranch twoNodes 0 4 (by decide +kernel)
  obtain ⟨tokens, -⟩ :=
    projection_exact_prefix linearBranch twoNodes after 0 1 (by decide) 4 accepted
  exact ⟨after, accepted, tokens.trans (by decide +kernel)⟩

end PrimeRl.Orchestrator.Projection
