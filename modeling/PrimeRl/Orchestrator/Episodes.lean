import PrimeRl.Orchestrator.Provenance

/-!
# Admission of traces to training

Traces whose credit semantics the trainer does not own are rejected with the
reason.
-/

namespace PrimeRl.Orchestrator.Episodes

open PrimeRl.Orchestrator.MessageGraph PrimeRl.Orchestrator.Provenance

universe u
variable {Scalar : Type u}

/-- Some listed tool carries a nonempty namespace. -/
def anyNamespace (namespaces : List (Option String)) : Bool :=
  namespaces.any (fun name => name.any (fun text => !text.isEmpty))

/-- The first reason to refuse a node, in the order of the checks. -/
def nodeReason (node : MessageNode) : Option String :=
  if (node.content.getD []).any (fun part => decide (part ≠ .text)) then
    some "multimodal training requires the native physical-media adapter"
  else if anyNamespace node.tools then
    some "namespaced tools require explicit privileged-context serialization"
  else if anyNamespace node.toolCalls then
    some "namespaced tool calls require explicit privileged-context serialization"
  else
    match validateWeightVersions node with
    | .error message => some message
    | .ok () =>
        if node.stampedStreams then
          some "producer-stamped sampling/credit streams require explicit training alignment"
        else none

/-- Admit the text graphs whose credit semantics are defined. -/
def validateTrainingTrace (trace : Trace Scalar) : Except String Unit :=
  let reject (reason : String) : Except String Unit := .error s!"trace '{trace.id}': {reason}"
  if decide (trace.stopCondition = some "compaction_failed") ||
      trace.nodes.any (fun node => !node.semanticParents.isEmpty) then
    reject "semantic/compaction graphs do not yet have defined value-credit semantics"
  else if trace.branches.any (fun branch => !branch.trainable) then
    reject "untrainable physical branches require explicit credit handling"
  else if !trace.mmTokenTypeIdMap.isEmpty then
    reject "multimodal training requires the native physical-media adapter"
  else
    match trace.nodes.findSome? nodeReason with
    | some reason => reject reason
    | none =>
        if anyNamespace trace.tools then
          reject "namespaced tools require explicit privileged-context serialization"
        else .ok ()

/-- Only nodes with valid weight versions are not refused. -/
theorem node_reason_none (node : MessageNode) (admitted : nodeReason node = none) :
    validateWeightVersions node = .ok () := by
  cases valid : validateWeightVersions node with
  | ok accepted => rfl
  | error message =>
    unfold nodeReason at admitted
    rw [valid] at admitted
    dsimp only at admitted
    split_ifs at admitted

theorem admitted_versions (trace : Trace Scalar) (admitted : validateTrainingTrace trace = .ok ()) :
    ∀ node ∈ trace.nodes, validateWeightVersions node = .ok () := by
  cases found : trace.nodes.findSome? nodeReason with
  | none =>
    intro node member
    exact node_reason_none node (List.findSome?_eq_none_iff.mp found node member)
  | some reason =>
    unfold validateTrainingTrace at admitted
    rw [found] at admitted
    dsimp only at admitted
    split_ifs at admitted

end PrimeRl.Orchestrator.Episodes
