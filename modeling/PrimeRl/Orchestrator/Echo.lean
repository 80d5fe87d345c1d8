import PrimeRl.Orchestrator.Trajectories

/-!
# Weights of echoed observations, and the routing of action tokens

Echo gives the tokens that the environment provided after the first response the
weight of their message's role in the cross-entropy stream, narrowed by message
content and by a filter. Routing then writes the action tokens into the stream
of the component that the algorithm declares, on top of what echo wrote.
-/

namespace PrimeRl.Orchestrator.Echo

open PrimeRl.Orchestrator.MessageGraph PrimeRl.Orchestrator.Trajectories PrimeRl.Transport

universe u
variable {Scalar : Type u}

/-! ## Observations -/

/-- What echo reads of a message: its role, and which tokens are its body where the renderer
attributed them. -/
structure MessageText where
  role : String
  isContent : List Bool
deriving DecidableEq, Repr

/-- A trace with the message behind each node. -/
structure EchoTrace (Scalar : Type u) extends Trace Scalar where
  text : Fin nodes.length → MessageText

/-- The weight of each role that trains. -/
structure EchoRoles (Scalar : Type u) where
  system : Option Scalar
  user : Option Scalar
  assistant : Option Scalar
  tool : Option Scalar

def EchoRoles.roleWeights (roles : EchoRoles Scalar) : List (String × Scalar) :=
  [("system", roles.system), ("user", roles.user), ("assistant", roles.assistant),
    ("tool", roles.tool)].filterMap (fun entry => entry.2.map (fun alpha => (entry.1, alpha)))

/-- One mask as a filter returns it, or something else of a named type. -/
inductive FilterMask where
  | list (keep : List Bool)
  | other (typeName : String)
deriving DecidableEq

inductive FilterResult where
  | list (masks : List FilterMask)
  | other (typeName : String)
deriving DecidableEq

/-- Each mask spans the tokens of its branch. -/
def checkMasks {size : Nat} : Nat → List (Branch Scalar size) → List FilterMask →
    Except String (List (List Bool))
  | index, branch :: branches, mask :: masks =>
      match mask with
      | .other typeName =>
          .error s!"echo filter mask for branch {index} must span the branch's tokens: got {typeName}, expected {branch.tokenIds.length}"
      | .list keep =>
          if keep.length ≠ branch.tokenIds.length then
            .error s!"echo filter mask for branch {index} must span the branch's tokens: got {keep.length}, expected {branch.tokenIds.length}"
          else (checkMasks (index + 1) branches masks).map (keep :: ·)
  | _, _, _ => .ok []

def filterMasks {size : Nat} (masks : FilterResult)
    (trainableBranches : List (Branch Scalar size)) : Except String (List (List Bool)) :=
  match masks with
  | .other typeName =>
      .error s!"echo filter must return one keep-mask per trainable branch: got {typeName}, expected {trainableBranches.length}"
  | .list masks =>
      if masks.length ≠ trainableBranches.length then
        .error s!"echo filter must return one keep-mask per trainable branch: got {masks.length}, expected {trainableBranches.length}"
      else checkMasks 0 trainableBranches masks

section
variable [Zero Scalar] [DecidableEq Scalar] (trace : EchoTrace Scalar)
  (roleWeights : List (String × Scalar)) (keepMask : Option (List Bool))

/-- Whether a token of a node passes the attribution of the renderer and the filter. -/
def keeps (node : Fin trace.nodes.length) (offset inner : Nat) : Bool :=
  let hasContent := (trace.text node).isContent.length = (trace.node node).tokenIds.length
  !(hasContent && !(trace.text node).isContent.getD inner false) &&
    keepMask.all (fun keep => keep.getD (offset + inner) false)

/-- Write the weight at the tokens of one node. -/
def weighNode (weight : Scalar) (node : Fin trace.nodes.length) (offset : Nat)
    (weights : List Scalar) : List Scalar :=
  (List.range (trace.node node).tokenIds.length).foldl
    (fun weights inner =>
      if keeps trace keepMask node offset inner then weights.set (offset + inner) weight
      else weights) weights

/-- Walk a branch: only observations after the first response get a weight. -/
def weighNodes (offset : Nat) (seenResponse : Bool) (weights : List Scalar) :
    List (Fin trace.nodes.length) → List Scalar
  | [] => weights
  | node :: rest =>
      let weighed :=
        match roleWeights.lookup (trace.text node).role with
        | some weight =>
            if seenResponse && !(trace.node node).sampled then
              weighNode trace keepMask weight node offset weights
            else weights
        | none => weights
      weighNodes (offset + (trace.node node).tokenIds.length)
        (seenResponse || (trace.node node).sampled) weighed rest

/-- A sample ships a stream only if some token of it has a weight. -/
def weighSample (sample : TrainingSample Scalar) (branch : Branch Scalar trace.nodes.length) :
    TrainingSample Scalar :=
  let weights := weighNodes trace roleWeights keepMask 0 false
    (List.replicate sample.tokenIds.length 0) branch.nodes
  if weights.any (fun weight => decide (weight ≠ 0)) then { sample with ceWeights := some weights }
  else sample

end

section
variable [Zero Scalar] [DecidableEq Scalar] (trace : EchoTrace Scalar)
  (roleWeights : List (String × Scalar))

/-- Samples and branches, paired by their places. -/
def weighSamples (filterMasks : Option (List (List Bool))) (sampleIdx : Nat) :
    List (TrainingSample Scalar) → List (Branch Scalar trace.nodes.length) →
      List (TrainingSample Scalar)
  | sample :: samples, branch :: branches =>
      weighSample trace roleWeights (filterMasks.map (fun masks => masks.getD sampleIdx [])) sample
          branch ::
        weighSamples filterMasks (sampleIdx + 1) samples branches
  | samples, _ => samples

def weightObservations (filterFn : Option (EchoTrace Scalar → FilterResult))
    (samples : List (TrainingSample Scalar)) : Except String (List (TrainingSample Scalar)) :=
  let trainableBranches :=
    (iterTrainableBranches trace.toTrace trace.branches).map TrainableBranch.branch
  match filterFn with
  | none => .ok (weighSamples trace roleWeights none 0 samples trainableBranches)
  | some filterFn =>
      (filterMasks (filterFn trace) trainableBranches).map (fun masks =>
        weighSamples trace roleWeights (some masks) 0 samples trainableBranches)

end

/-! ## Routing -/

inductive ActionLossType where
  | rl
  | ce
  | refKl
deriving DecidableEq, Repr

/-- Weight the action tokens of a mask with one. -/
def markActions [One Scalar] (index : Nat) : List Bool → List Scalar → List Scalar
  | [], weights => weights
  | trains :: rest, weights =>
      markActions (index + 1) rest (if trains then weights.set index 1 else weights)

def stampLossRouting [Zero Scalar] [One Scalar] (sample : TrainingSample Scalar) :
    ActionLossType → TrainingSample Scalar
  | .rl => sample
  | .ce =>
      { sample with
        rlWeights := some (List.replicate sample.tokenIds.length 0)
        ceWeights := some (markActions 0 sample.mask
          (sample.ceWeights.getD (List.replicate sample.tokenIds.length 0))) }
  | .refKl =>
      { sample with
        rlWeights := some (List.replicate sample.tokenIds.length 0)
        refKlWeights := some (markActions 0 sample.mask
          (List.replicate sample.tokenIds.length 0)) }

/-- What an echo algorithm is configured with. -/
structure EchoConfig (Scalar : Type u) where
  roles : EchoRoles Scalar
  filterFn : Option (EchoTrace Scalar → FilterResult)

/-- The samples of a rollout once its observations are weighed, where the algorithm does so, and
its actions routed. -/
def routeSamples [Zero Scalar] [One Scalar] [DecidableEq Scalar] (trace : EchoTrace Scalar)
    (echo : Option (EchoConfig Scalar)) (actionLossType : ActionLossType)
    (samples : List (TrainingSample Scalar)) : Except String (List (TrainingSample Scalar)) :=
  let weighed : Except String (List (TrainingSample Scalar)) :=
    match echo with
    | none => .ok samples
    | some config =>
        weightObservations trace config.roles.roleWeights config.filterFn samples
  weighed.map (List.map (fun sample => stampLossRouting sample actionLossType))

end PrimeRl.Orchestrator.Echo
