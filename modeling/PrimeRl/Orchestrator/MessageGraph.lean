import Mathlib.Data.List.Basic

/-!
# Message graphs

A rollout arrives as a graph of messages. Nodes are listed in creation order and
every branch is a path of nodes from the root to a leaf, given by their places
in that list, together with the flat streams the graph library reads off it.
-/

namespace PrimeRl.Orchestrator.MessageGraph

universe u

/-- One part of a message whose content is a list. -/
inductive ContentPart where
  | text
  | media
deriving DecidableEq, Repr

/-- Engine version of an interval of a node's sampled tokens. -/
structure WeightVersion where
  start : Int
  stop : Int
  version : String
deriving DecidableEq, Repr

/-- A message with its physical tokens. `content` is present when it is a list of
parts, tools and calls are listed by their namespaces, and `stampedStreams` says
whether the producer attached any sampling or credit stream. -/
structure MessageNode where
  tokenIds : List Nat
  mask : List Bool
  sampled : Bool
  semanticParents : List Nat
  content : Option (List ContentPart)
  tools : List (Option String)
  toolCalls : List (Option String)
  weightVersions : Option (List WeightVersion)
  stampedStreams : Bool
deriving DecidableEq, Repr

/-- A path through a graph of the given size with its flat streams. -/
structure Branch (Scalar : Type u) (size : Nat) where
  index : Nat
  nodes : List (Fin size)
  tokenIds : List Nat
  sampledMask : List Bool
  logprobs : List Scalar
  mmTokenTypeIds : Option (List Int)
  trainable : Bool
deriving DecidableEq, Repr

structure Trace (Scalar : Type u) where
  id : String
  stopCondition : Option String
  mmTokenTypeIdMap : List (Int × Int)
  tools : List (Option String)
  nodes : List MessageNode
  branches : List (Branch Scalar nodes.length)

variable {Scalar : Type u}

def Trace.node (trace : Trace Scalar) (index : Fin trace.nodes.length) : MessageNode :=
  trace.nodes.get index

/-- What the graph library promises about its flat streams: node masks are
aligned with node tokens, and the streams of a branch concatenate those of its
nodes. -/
structure Trace.Flat (trace : Trace Scalar) : Prop where
  aligned : ∀ node, (trace.node node).mask.length = (trace.node node).tokenIds.length
  tokens : ∀ branch ∈ trace.branches,
    branch.tokenIds = branch.nodes.flatMap (fun node => (trace.node node).tokenIds)
  sampledMask : ∀ branch ∈ trace.branches,
    branch.sampledMask = branch.nodes.flatMap (fun node => (trace.node node).mask)

end PrimeRl.Orchestrator.MessageGraph
