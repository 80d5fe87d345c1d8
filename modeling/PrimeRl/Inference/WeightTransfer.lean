import Mathlib.Data.List.Dedup
import PrimeRl.Support.Argsort
import PrimeRl.Support.Fallible
import PrimeRl.Support.OrderedDict
import PrimeRl.Support.Tensor

/-!
# Kernel weight transfer

A worker holds some of the physical experts of a layer, each in a local slot,
and every physical expert is a replica of a logical one. A received tensor
lists its rows by logical expert. The source indices say, slot by slot, which
row belongs there, and a tensor whose shape is not its parameter's is rearranged
by them before it is copied.
-/

namespace PrimeRl.Inference.WeightTransfer

open Fallible

/-! ## Source indices -/

/-- What a layer knows of its experts: for each physical expert its local slot, or -1. -/
structure RoutedExperts where
  expertMap : Option (List Int)
  globalNumExperts : Nat
deriving DecidableEq

structure EplbLayerState where
  /-- For each logical expert its physical replicas, padded with -1. -/
  logicalToPhysicalMap : Option (List (List Int))
deriving DecidableEq

structure Router where
  eplbState : Option EplbLayerState
deriving DecidableEq

def Router.logicalToPhysicalMap (router : Router) : Option (List (List Int)) :=
  router.eplbState.bind EplbLayerState.logicalToPhysicalMap

/-- Each entry of the map beside the logical expert it is listed for, row by row. -/
def replicaEntries (logicalToPhysicalMap : List (List Int)) : List (Int × Nat) :=
  logicalToPhysicalMap.zipIdx.flatMap
    (fun listed => listed.1.map (fun physical => (physical, listed.2)))

def invalidIndices (physicalIndices : List Int) (numPhysicalExperts : Nat) : List Int :=
  physicalIndices.filter
    (fun physical => decide (physical < -1 ∨ (numPhysicalExperts : Int) ≤ physical))

/-- Write each logical expert at its replicas. -/
def scatterReplicas (table : List Int) : List (Int × Nat) → List Int
  | [] => table
  | (physical, logical) :: rest =>
      scatterReplicas (if 0 ≤ physical then table.set physical.toNat logical else table) rest

def invertLogicalToPhysicalMap (logicalToPhysicalMap : List (List Int))
    (numPhysicalExperts : Nat) : Except String (List Int) :=
  let entries := replicaEntries logicalToPhysicalMap
  let invalid := invalidIndices (entries.map Prod.fst) numPhysicalExperts
  if invalid ≠ [] then
    .error s!"EPLB maps to invalid physical experts: {invalid.dedup.insertionSort (· ≤ ·)}"
  else .ok (scatterReplicas (List.replicate numPhysicalExperts (-1)) entries)

/-- The local physical experts, in the order of their slots. -/
def localPhysicalExperts (expertMap : List Int) : List Nat :=
  let physicalIndices :=
    (List.range expertMap.length).filter (fun physical => decide (0 ≤ expertMap.getD physical (-1)))
  let localIndices := physicalIndices.map (fun physical => expertMap.getD physical (-1))
  (Argsort.argsort localIndices).map (fun place => physicalIndices.getD place 0)

/-- Read a table at an index. -/
def readIndex (table : List Int) (index : Nat) : Except String Int :=
  match table[index]? with
  | some value => .ok value
  | none =>
      .error s!"index {index} is out of bounds for dimension 0 with size {table.length}"

def buildExpertSourceIndices (routedExperts : RoutedExperts) (router : Router) :
    Except String (Option (List Nat)) :=
  match routedExperts.expertMap with
  | none => .ok none
  | some expertMap =>
      let physicalIndices := localPhysicalExperts expertMap
      match router.logicalToPhysicalMap with
      | none => .ok (some physicalIndices)
      | some logicalToPhysicalMap => do
          let physicalToLogical ←
            invertLogicalToPhysicalMap logicalToPhysicalMap routedExperts.globalNumExperts
          let logicalIndices ← collect (readIndex physicalToLogical) physicalIndices
          let missing :=
            ((physicalIndices.zip logicalIndices).filter (fun pair => decide (pair.2 < 0))).map
              Prod.fst
          if missing ≠ [] then
            .error s!"EPLB has no logical mapping for local physical experts: {missing}"
          else .ok (some (logicalIndices.map Int.toNat))

/-! ## The model of a worker -/

inductive Module where
  | moeRunner (routedExperts : RoutedExperts) (router : Router)
  | other
deriving DecidableEq

/-- Whether a dotted name starts with a module's name and a dot. -/
def Inside (name moduleName : String) : Prop := (moduleName ++ ".").toList <+: name.toList

instance (name moduleName : String) : Decidable (Inside name moduleName) := by
  unfold Inside
  infer_instance

/-- Named parameters and modules. No layer of experts lies inside another one. -/
structure Model (Value : Type) where
  params : OrderedDict String (Tensor Value)
  modules : OrderedDict String Module
  runners_apart : ∀ outer inner, outer ∈ modules.entries → inner ∈ modules.entries →
    outer.2 ≠ .other → inner.2 ≠ .other → Inside (inner.1 ++ ".") outer.1 → outer.1 = inner.1

/-- Layers of experts with their source indices, in the order of the modules. -/
def sourceIndicesByModule : List (String × Module) → Except String (List (String × List Nat))
  | [] => .ok []
  | (_, .other) :: rest => sourceIndicesByModule rest
  | (moduleName, .moeRunner routedExperts router) :: rest => do
      let found ← buildExpertSourceIndices routedExperts router
      let others ← sourceIndicesByModule rest
      return match found with
        | none => others
        | some sourceIndices => (moduleName, sourceIndices) :: others

variable {Value : Type}

def buildExpertMap (model : Model Value) : Except String (List (String × List Nat)) :=
  sourceIndicesByModule model.modules.entries

/-! ## Loading -/

/-- The state of the loading loop. -/
structure Loading (Value : Type) where
  params : OrderedDict String (Tensor Value)
  loaded : Nat
  skipped : List String
  shapeMismatches : List String

/-- The tensor's rows as the layer around the parameter wants them. -/
def sourceRows (expertSourceIndices : List (String × List Nat)) (name : String)
    (tensor : Tensor Value) : Except String (Tensor Value) :=
  match expertSourceIndices.find? (fun entry => decide (Inside name entry.1)) with
  | none => .ok tensor
  | some (_, sourceIndices) =>
      match tensor.gather sourceIndices with
      | some gathered => .ok gathered
      | none => .error s!"index is out of bounds for dimension with size {tensor.shape.headD 0}"

/-- `param.copy_(tensor)` for a tensor of the parameter's shape. -/
def Loading.copy (state : Loading Value) (name : String) (tensor : Tensor Value) :
    Loading Value :=
  { state with params := state.params.set name tensor, loaded := state.loaded + 1 }

/-- One turn of the loop. -/
def loadOne (expertSourceIndices : List (String × List Nat)) (state : Loading Value)
    (name : String) (tensor : Tensor Value) : Except String (Loading Value) :=
  match state.params.get? name with
  | none => .ok { state with skipped := state.skipped ++ [name] }
  | some param =>
      if param.shape ≠ tensor.shape then do
        let tensor ← sourceRows expertSourceIndices name tensor
        if param.shape ≠ tensor.shape then
          .ok { state with
            shapeMismatches := state.shapeMismatches ++
              [s!"{name}: param={param.shape} != received={tensor.shape}"] }
        else .ok (state.copy name tensor)
      else .ok (state.copy name tensor)

/-- Load tensor after tensor; an exception keeps what is loaded so far. -/
def loadEach (expertSourceIndices : List (String × List Nat)) :
    Loading Value → List (String × Tensor Value) → Loading Value × Except String Unit
  | state, [] => (state, .ok ())
  | state, (name, tensor) :: rest =>
      match loadOne expertSourceIndices state name tensor with
      | .error message => (state, .error message)
      | .ok next => loadEach expertSourceIndices next rest

/-- What the call raises for after the loop. -/
def reportProblems (state : Loading Value) : Except String Unit :=
  if state.shapeMismatches ≠ [] then
    .error s!"Kernel weight transfer had {state.shapeMismatches.length} shape mismatches: {state.shapeMismatches}"
  else if state.skipped ≠ [] then
    .error s!"Kernel weight transfer skipped {state.skipped.length} weights not found in model: {state.skipped}"
  else .ok ()

/-- The parameters afterwards, and whether the call returns. `remapMoeExpertWeights` renames the
received tensors to the names of the model. -/
def loadWeightsKernel
    (remapMoeExpertWeights : List (String × Tensor Value) →
      OrderedDict String (Tensor Value) → List (String × Tensor Value))
    (model : Model Value) (stateIter : List (String × Tensor Value)) :
    OrderedDict String (Tensor Value) × Except String Unit :=
  match buildExpertMap model with
  | .error message => (model.params, .error message)
  | .ok expertSourceIndices =>
      let (state, ended) := loadEach expertSourceIndices ⟨model.params, 0, [], []⟩
        (remapMoeExpertWeights stateIter model.params)
      (state.params, ended.bind (fun _ => reportProblems state))

end PrimeRl.Inference.WeightTransfer
