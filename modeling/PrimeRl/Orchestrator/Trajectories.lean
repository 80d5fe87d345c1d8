import Mathlib.Data.List.Nodup
import PrimeRl.Orchestrator.Episodes
import PrimeRl.Support.Buckets
import PrimeRl.Transport.Provenance

/-!
# From message graphs to training samples

A branch yields one sample. A sampled node shared by several branches is
trainable only in the first branch containing it; later branches carry its
tokens as context, and branches left without trainable tokens are dropped. The
layout records where every trainable run of a node lies in the samples.
-/

namespace PrimeRl.Orchestrator.Trajectories

open PrimeRl.Orchestrator.MessageGraph PrimeRl.Orchestrator.Provenance PrimeRl.Orchestrator.Episodes
  PrimeRl.Transport

universe u
variable {Scalar : Type u}

/-- One contiguous run of uniquely trainable tokens in a materialized sample. -/
structure TrainableSpan where
  nodeIndex : Nat
  sampleIndex : Nat
  nodeStart : Nat
  sampleStart : Nat
  length : Nat
deriving DecidableEq, Repr

/-- Projection from graph nodes to their materialized branch samples. -/
structure TrainingLayout where
  sampleBranchIndices : List Nat
  sampleNodeIndices : List (List Nat)
  trainableSpans : List TrainableSpan
deriving DecidableEq, Repr

structure TrainingMaterialization (Scalar : Type u) where
  samples : List (TrainingSample Scalar)
  layout : Option TrainingLayout
  sampledMasks : List (List Bool)
deriving DecidableEq, Repr

structure TrainableBranch (Scalar : Type u) (size : Nat) where
  branch : Branch Scalar size
  nodeIndices : List (Fin size)
  mask : List Bool

section
variable (trace : Trace Scalar)

/-- A node with tokens of its own to train. -/
def hasTrainable (node : Fin trace.nodes.length) : Bool :=
  (trace.node node).sampled && (trace.node node).mask.any id

/-- Walk one branch: its mask, and the trained nodes extended by its own. -/
def walkBranch (trainedNodes : List (Fin trace.nodes.length)) (mask : List Bool) :
    List (Fin trace.nodes.length) → List Bool × List (Fin trace.nodes.length)
  | [] => (mask, trainedNodes)
  | node :: rest =>
      if hasTrainable trace node && trainedNodes.contains node then
        walkBranch trainedNodes
          (mask ++ List.replicate (trace.node node).mask.length false) rest
      else
        walkBranch (if hasTrainable trace node then node :: trainedNodes else trainedNodes)
          (mask ++ (trace.node node).mask) rest

/-- Branches of a forked trace that still have trainable tokens. -/
def forkedBranches (trainedNodes : List (Fin trace.nodes.length)) :
    List (Branch Scalar trace.nodes.length) → List (TrainableBranch Scalar trace.nodes.length)
  | [] => []
  | branch :: rest =>
      let (mask, trained) := walkBranch trace trainedNodes [] branch.nodes
      if mask.any id then ⟨branch, branch.nodes, mask⟩ :: forkedBranches trained rest
      else forkedBranches trained rest

/-- Branches that yield a sample. A linear trace is taken with its own mask. -/
def iterTrainableBranches (branches : List (Branch Scalar trace.nodes.length)) :
    List (TrainableBranch Scalar trace.nodes.length) :=
  match branches with
  | [] => []
  | [branch] => if branch.sampledMask.any id then [⟨branch, [], branch.sampledMask⟩] else []
  | _ => forkedBranches trace [] branches

end

/-- Maximal runs of true entries from a position on, with the start of the
current run. -/
def runsFrom : Option Nat → Nat → List Bool → List (Nat × Nat)
  | none, _, [] => []
  | some start, index, [] => [(start, index)]
  | none, index, trainable :: rest =>
      if trainable then runsFrom (some index) (index + 1) rest else runsFrom none (index + 1) rest
  | some start, index, trainable :: rest =>
      if trainable then runsFrom (some start) (index + 1) rest
      else (start, index) :: runsFrom none (index + 1) rest

def trueRuns (mask : List Bool) : List (Nat × Nat) := runsFrom none 0 mask

section
variable (trace : Trace Scalar)

/-- The spans of one sample, in path order, from an offset on. -/
def sampleSpans (sampleIndex : Nat) (mask : List Bool) :
    Nat → List (Fin trace.nodes.length) → List TrainableSpan
  | _, [] => []
  | sampleOffset, node :: rest =>
      let nodeLength := (trace.node node).tokenIds.length
      let nodeMask := (mask.drop sampleOffset).take nodeLength
      (trueRuns nodeMask).map (fun run =>
          { nodeIndex := node
            sampleIndex := sampleIndex
            nodeStart := run.1
            sampleStart := sampleOffset + run.1
            length := run.2 - run.1 }) ++
        sampleSpans sampleIndex mask (sampleOffset + nodeLength) rest

/-- Collect spans under their nodes, keeping the order of arrival. -/
def spansByNode (size : Nat) (spans : List TrainableSpan) : List (List TrainableSpan) :=
  Buckets.collect size TrainableSpan.nodeIndex id spans

/-- Token provenance of a branch, when some of its nodes carry versions. Traces are
admitted first, so that the steps of their nodes always encode. -/
def branchPolicyVersions (branch : Branch Scalar trace.nodes.length) : Option EncodedTensor :=
  if branch.nodes.any (fun node => !((trace.node node).weightVersions.getD []).isEmpty) then
    (encodePolicyVersions
      (branch.nodes.flatMap (fun node => stepVersions (trace.node node)))).toOption.join
  else none

/-- In an admitted trace the nodes of a branch decode, and the versions of the
branch are the encoding of their steps. -/
theorem branch_policy_versions_encoded (admitted : validateTrainingTrace trace = .ok ())
    (branch : Branch Scalar trace.nodes.length) :
    ∃ steps, Fallible.collect (fun node => nodePolicyVersions (trace.node node)) branch.nodes = .ok steps ∧
      (if branch.nodes.any (fun node => !((trace.node node).weightVersions.getD []).isEmpty) then
        encodePolicyVersions steps.flatten else .ok none) = .ok (branchPolicyVersions trace branch) := by
  have decoded : ∀ node, nodePolicyVersions (trace.node node) = .ok (stepVersions (trace.node node)) := by
    intro node
    have valid : validateWeightVersions (trace.node node) = .ok () :=
      admitted_versions trace admitted _ (List.get_mem trace.nodes node)
    rw [nodePolicyVersions, valid]
    rfl
  have each : Fallible.collect (fun node => nodePolicyVersions (trace.node node)) branch.nodes =
      .ok (branch.nodes.map (fun node => stepVersions (trace.node node))) := by
    rw [Fallible.collect_ok_iff, List.forall₂_map_right_iff]
    exact List.forall₂_same.mpr (fun node _ => decoded node)
  have words : StepWords (branch.nodes.flatMap (fun node => stepVersions (trace.node node))) := by
    intro value member
    obtain ⟨node, -, listed⟩ := List.mem_flatMap.mp member
    obtain ⟨low, high⟩ := node_versions_range _ _ (decoded node) value listed
    exact ⟨⟨Int.le_trans (by decide) low, high⟩, low⟩
  refine ⟨_, each, ?_⟩
  rw [← List.flatMap_def, branchPolicyVersions]
  split_ifs with versioned
  · rw [encode_policy_versions_eq words]
    rfl
  · rfl

/-- The training sample of a branch. -/
def branchSample (envName : String) (capturePolicyVersions : Bool)
    (item : TrainableBranch Scalar trace.nodes.length) : TrainingSample Scalar :=
  { tokenIds := item.branch.tokenIds
    mask := item.mask
    logprobs := item.branch.logprobs
    temperatures := []
    envName := envName
    refLogprobs := none
    rlWeights := none
    ceWeights := none
    refKlWeights := none
    advantages := none
    tokenPolicyVersions := if capturePolicyVersions then branchPolicyVersions trace item.branch else none }

/-- The layout of a forked trace. -/
def trainingLayout (items : List (TrainableBranch Scalar trace.nodes.length)) : TrainingLayout :=
  { sampleBranchIndices := items.map (fun item => item.branch.index)
    sampleNodeIndices := items.map (fun item => item.nodeIndices.map Fin.val)
    trainableSpans := (spansByNode trace.nodes.length
      (items.zipIdx.flatMap (fun (item, sampleIndex) =>
        sampleSpans trace sampleIndex item.mask 0 item.nodeIndices))).flatten }

/-- Convert a trace into training samples, one for each branch with trainable
tokens, and the layout of its trainable runs when the trace is forked. -/
def materializeTrainingData (envName : String) (captureSampledMasks capturePolicyVersions : Bool) :
    Except String (TrainingMaterialization Scalar) :=
  match validateTrainingTrace trace with
  | .error message => .error message
  | .ok () =>
      let items := iterTrainableBranches trace trace.branches
      if items.any (fun item => !trace.mmTokenTypeIdMap.isEmpty ||
          (item.branch.mmTokenTypeIds.getD []).any (fun kind => decide (kind ≠ 0))) then
        .error "Multimodal training requires the native physical-media adapter"
      else
        .ok
          { samples := items.map (branchSample trace envName capturePolicyVersions)
            layout := if 1 < trace.branches.length then some (trainingLayout trace items) else none
            sampledMasks :=
              if captureSampledMasks then items.map (fun item => item.branch.sampledMask) else [] }

end

end PrimeRl.Orchestrator.Trajectories
