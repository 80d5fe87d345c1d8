import Mathlib.Algebra.Ring.Int.Defs
import Mathlib.Algebra.Ring.Nat
import PrimeRl.Orchestrator.Episodes
import PrimeRl.Support.Heap
import PrimeRl.Support.OrderedDict

/-!
# Projection of a single turn

A single-turn text trace can be cut to a prefix of its tokens before training.
The cut is made on a deep copy, so the objects of the store are modelled with
their addresses: nodes, information dictionaries and traces that refer to both.
The branches of a trace are a reading the graph library takes of its nodes.
-/

namespace PrimeRl.Orchestrator.Projection

open PrimeRl.Orchestrator.MessageGraph PrimeRl.Orchestrator.Provenance PrimeRl.Orchestrator.Episodes

universe u
variable {Scalar : Type u}

inductive MessageKind where
  | system
  | user
  | assistant
  | tool
deriving DecidableEq, Repr

/-- A node as it comes over the wire. Only assistant messages have tool calls. -/
structure WireNode (Scalar : Type u) extends MessageNode where
  parent : Option Int
  kind : MessageKind
  logprobs : List Scalar
  isContent : List Bool
  rendererTokenIds : Option (List Nat)
  routedExperts : Option (List UInt8)
  assistantCalls : kind ≠ .assistant → toolCalls = []

/-- A model call with the node it produced. -/
structure ModelCall where
  error : Option String
  node : Option Int
deriving DecidableEq, Repr

/-- What the projection records about itself. -/
structure ProjectionReceipt where
  type : String
  recordKind : String
  maxSeqLen : Int
  clipped : Bool
  sourceTraceId : String
  originalStopCondition : Option String
  originalIsCompleted : Bool
  originalIsTruncated : Bool
  physicalTokens : Nat
  physicalSampledTokens : Nat
  retainedTokens : Int
  retainedSampledTokens : Nat
deriving DecidableEq, Repr

inductive InfoValue where
  | recorded (value : String)
  | projection (receipt : ProjectionReceipt)
deriving DecidableEq, Repr

/-- A trace object: its nodes and its information dictionary are references. -/
structure WireTrace where
  id : String
  stopCondition : Option String
  mmTokenTypeIdMap : List (Int × Int)
  tools : List (Option String)
  nodes : List Nat
  calls : List ModelCall
  info : Nat
  isCompleted : Bool
  isTruncated : Bool
deriving DecidableEq, Repr

/-- The objects alive while traces are projected. No trace refers to an object
that does not exist. -/
structure Store (Scalar : Type u) where
  nodes : Heap (WireNode Scalar)
  infos : Heap (OrderedDict String InfoValue)
  traces : Heap WireTrace
  closed : ∀ trace < traces.next, (∀ node ∈ (traces.cell trace).nodes, node < nodes.next) ∧
    (traces.cell trace).info < infos.next

namespace Store

/-- The nodes of a trace in order. -/
def nodesOf (store : Store Scalar) (trace : Nat) : List (WireNode Scalar) :=
  (store.traces.cell trace).nodes.map store.nodes.cell

def infoOf (store : Store Scalar) (trace : Nat) : OrderedDict String InfoValue :=
  store.infos.cell (store.traces.cell trace).info

/-- A deep copy of a trace with its nodes and its information. -/
def copyTrace (store : Store Scalar) (trace : Nat) : Store Scalar × Nat :=
  let object := store.traces.cell trace
  let nodes := store.nodes.copy object.nodes
  ({ nodes := nodes.1
     infos := store.infos.extend [store.infos.cell object.info]
     traces := store.traces.extend [{ object with nodes := nodes.2, info := store.infos.next }]
     closed := by
      intro other used
      by_cases known : other < store.traces.next
      · obtain ⟨inside, info⟩ := store.closed other known
        rw [Heap.extend_used _ _ known]
        exact ⟨fun node member => Nat.lt_of_lt_of_le (inside node member) (Heap.copy_next _ _),
          Nat.lt_succ_of_lt info⟩
      · have isCopy : other = store.traces.next + 0 := by
          have bound : other < store.traces.next + 1 := used
          omega
        subst isCopy
        rw [Heap.extend_fresh _ _ 0 (by exact Nat.one_pos)]
        exact ⟨fun node member => (Heap.copy_fresh _ _ node member).2, Nat.lt_succ_self _⟩ },
    store.traces.next)

/-- Assign to the nodes of a store; no reference changes. -/
def withNodes (store : Store Scalar) (nodes : Heap (WireNode Scalar))
    (sameNext : nodes.next = store.nodes.next) : Store Scalar :=
  { store with
    nodes := nodes
    closed := fun trace used => sameNext ▸ store.closed trace used }

/-- Assign to the information of a trace, and to its stop condition. -/
def markProjected (store : Store Scalar) (trace : Nat) (info : OrderedDict String InfoValue)
    (stopCondition : Option String) : Store Scalar :=
  let object := store.traces.cell trace
  { store with
    infos := store.infos.write object.info info
    traces := store.traces.write trace { object with stopCondition := stopCondition }
    closed := by
      intro other used
      obtain ⟨inside, known⟩ := store.closed other used
      by_cases same : other = trace
      · subst same
        rw [Heap.write_same]
        exact ⟨inside, known⟩
      · rw [Heap.write_other _ _ _ same]
        exact ⟨inside, known⟩ }

end Store

/-- What the projection requires of a node at its place, in the order of the checks. -/
def nodeProjectionReason (node : WireNode Scalar) (index : Nat) : Option String :=
  if node.parent ≠ (if index = 0 then none else some ((index : Int) - 1)) then
    some "requires a single linear branch in node order"
  else if node.kind = .tool then
    some "supports text messages only"
  else if (node.content.getD []).any (fun part => decide (part ≠ .text)) then
    some "does not support non-text message content"
  else if node.kind = .assistant ∧ node.toolCalls ≠ [] then
    some "does not support tool calls"
  else if node.sampled = true ∧ node.kind ≠ .assistant then
    some "requires a sampled assistant response"
  else if node.rendererTokenIds ≠ none then
    some "requires a completed wire trace without live renderer coordinates"
  else if node.routedExperts ≠ none then
    some "does not support routing sidecars"
  else if node.mask.length ≠ node.tokenIds.length then
    some "requires token-aligned boolean masks"
  else if node.logprobs.length ≠ node.mask.count true then
    some "requires one logprob per sampled token"
  else if node.isContent ≠ [] ∧ node.isContent.length ≠ node.tokenIds.length then
    some "requires token-aligned content masks when present"
  else if node.sampled = false ∧ node.mask.any id then
    some "does not support sampled tokens on prompt nodes"
  else none

/-- Cut a node to a prefix of its tokens. -/
def cutNode (node : WireNode Scalar) (retained : Nat) (versions : Option (List WeightVersion)) :
    WireNode Scalar :=
  { node with
    toMessageNode := cutMessage node.toMessageNode retained versions
    isContent := node.isContent.take retained
    logprobs := node.logprobs.take ((node.mask.take retained).count true) }

/-- The loop over the nodes of the copy: each keeps what is left of the limit. -/
def cutEach : List Nat → Nat → Heap (WireNode Scalar) → Except String (Heap (WireNode Scalar))
  | [], _, nodes => .ok nodes
  | address :: rest, remaining, nodes =>
      let node := nodes.cell address
      let retained := min node.tokenIds.length remaining
      match clipWeightVersions node.toMessageNode ((node.mask.take retained).count true) with
      | .error message => .error message
      | .ok versions =>
          cutEach rest (remaining - retained) (nodes.write address (cutNode node retained versions))

/-- Assignments leave the addresses in use as they are. -/
theorem cut_each_next (addresses : List Nat) (remaining : Nat) (nodes after : Heap (WireNode Scalar))
    (accepted : cutEach addresses remaining nodes = .ok after) : after.next = nodes.next := by
  induction addresses generalizing remaining nodes with
  | nil => exact congrArg Heap.next (Except.ok.inj accepted).symm
  | cons address rest inductionHypothesis =>
    rw [cutEach] at accepted
    split at accepted
    · cases accepted
    · have kept := inductionHypothesis _ _ accepted
      exact kept

section
variable (branchesOf : (nodes : List (WireNode Scalar)) →
  List (Branch Scalar (nodes.map WireNode.toMessageNode).length))

/-- The message graph that admission to training looks at. -/
def graphOf (store : Store Scalar) (trace : Nat) : Trace Scalar :=
  let object := store.traces.cell trace
  { id := object.id
    stopCondition := object.stopCondition
    mmTokenTypeIdMap := object.mmTokenTypeIdMap
    tools := object.tools
    nodes := (store.nodesOf trace).map WireNode.toMessageNode
    branches := branchesOf (store.nodesOf trace) }

/-- All that is checked before anything is copied. -/
def checkProjection (store : Store Scalar) (trace : Nat) (maxSeqLen : Int) : Except String Unit :=
  let object := store.traces.cell trace
  let nodes := store.nodesOf trace
  let reject (reason : String) : Except String Unit :=
    .error s!"trace '{object.id}': single_turn training projection {reason}"
  if maxSeqLen ≤ 0 then reject "requires a resolved positive integer max_seq_len"
  else if ((store.infoOf trace).get? "prime_rl_training_projection").isSome then
    reject "cannot be applied to an already projected trace"
  else if nodes = [] ∨ object.calls.length ≠ 1 then
    reject "requires one model call and one nonempty linear branch"
  else if object.calls.any (fun call =>
      call.error.isSome || decide (call.node ≠ some ((nodes.length : Int) - 1))) then
    reject "requires one successful call linked to the final node"
  else
    match validateTrainingTrace (graphOf branchesOf store trace) with
    | .error message => .error message
    | .ok () =>
        if object.tools ≠ [] ∨ nodes.any (fun node => decide (node.tools ≠ [])) then
          reject "does not support tools"
        else if (nodes.zipIdx.filter (fun entry => entry.1.sampled)).map Prod.snd ≠
            [nodes.length - 1] then
          reject "requires exactly one final sampled assistant node"
        else
          match nodes.zipIdx.findSome? (fun entry => nodeProjectionReason entry.1 entry.2) with
          | some reason => reject reason
          | none => .ok ()

/-- Project a trace: the new store and the address of the projected trace. -/
def projectTrainingTrace (store : Store Scalar) (trace : Nat) (maxSeqLen : Int) :
    Except String (Store Scalar × Nat) :=
  match checkProjection branchesOf store trace maxSeqLen with
  | .error message => .error message
  | .ok () =>
      let object := store.traces.cell trace
      let physicalTokens : Nat := ((store.nodesOf trace).map (fun node => node.tokenIds.length)).sum
      let physicalSampledTokens : Nat :=
        ((store.nodesOf trace).map (fun node => node.mask.count true)).sum
      let copied := store.copyTrace trace
      let projected := copied.1.traces.cell copied.2
      match cut : cutEach projected.nodes maxSeqLen.toNat copied.1.nodes with
      | .error message => .error message
      | .ok nodes =>
          let written := copied.1.withNodes nodes (cut_each_next _ _ _ _ cut)
          let clipped := decide (maxSeqLen < physicalTokens)
          let receipt : ProjectionReceipt :=
            { type := "single_turn"
              recordKind := "projected_training_trace"
              maxSeqLen := maxSeqLen
              clipped := clipped
              sourceTraceId := object.id
              originalStopCondition := object.stopCondition
              originalIsCompleted := object.isCompleted
              originalIsTruncated := object.isTruncated
              physicalTokens := physicalTokens
              physicalSampledTokens := physicalSampledTokens
              retainedTokens := min physicalTokens maxSeqLen
              retainedSampledTokens :=
                ((written.nodesOf copied.2).map (fun node => node.mask.count true)).sum }
          .ok (written.markProjected copied.2
            ((written.infoOf copied.2).set "prime_rl_training_projection" (.projection receipt))
            (if clipped then some "max_total_tokens" else projected.stopCondition), copied.2)

end

end PrimeRl.Orchestrator.Projection
