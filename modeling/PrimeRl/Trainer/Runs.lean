import Mathlib.Data.Finmap
import Mathlib.Data.PNat.Basic
import Mathlib.Data.Rat.Defs
import PrimeRl.Support.Iteration
import PrimeRl.Support.SlotTable

/-!
# Runs and their slots

The manager assigns each concurrent run a slot. The master discovers and
forgets runs as their directories come and go; the other ranks learn of it at
the next synchronization, where each replays the difference by run name.
A raised exception ends the computation with its message.
-/

namespace PrimeRl.Trainer.Runs

structure Progress where
  step : Int
  totalTokens : Nat
  totalSamples : Nat
deriving DecidableEq, Repr

namespace OrchestratorConfig

/-- Adapter settings of one run; an absent value means the trainer's. -/
structure LoRAConfig where
  rank : Option ℕ+
  alpha : Option Rat
deriving DecidableEq, Repr

structure ModelConfig where
  lora : Option LoRAConfig
deriving DecidableEq, Repr

structure CheckpointConfig where
  resumeStep : Option Int
deriving DecidableEq, Repr

end OrchestratorConfig

/-- The fields of a run's configuration that its slot depends on. -/
structure OrchestratorConfig where
  ckpt : Option OrchestratorConfig.CheckpointConfig
  model : OrchestratorConfig.ModelConfig
deriving DecidableEq, Repr

/-- The trainer's own adapter settings. -/
structure LoRAConfig where
  rank : ℕ+
  alpha : Rat
deriving DecidableEq, Repr

/-- What a rank's modules and hooks have been called with. -/
inductive HookCall
  | deletion (idx : Nat) (runId : String)
  | resetParameters (idx : Nat)
  | creation (idx : Nat) (runId : String)
deriving DecidableEq, Repr

structure MultiRunManager where
  rank : Nat
  maxRuns : Nat
  idx2Id : Finmap (fun _ : Nat => String)
  id2Idx : Finmap (fun _ : String => Nat)
  unusedIdxs : Finset Nat
  progress : Finmap (fun _ : Nat => Progress)
  config : Finmap (fun _ : Nat => OrchestratorConfig)
  readyToUpdate : List Bool
  scalingFactors : List Rat
  lastSyncedId2Idx : Finmap (fun _ : String => Nat)
  calls : List HookCall
deriving DecidableEq

/-- A dictionary subscript. -/
def subscript {Key Value : Type} [DecidableEq Key] (dict : Finmap (fun _ : Key => Value))
    (key : Key) : Except String Value :=
  match dict.lookup key with
  | some value => .ok value
  | none => .error "KeyError"

theorem subscript_ok {Key Value : Type} [DecidableEq Key] {dict : Finmap (fun _ : Key => Value)}
    {key : Key} {value : Value} (found : dict.lookup key = some value) :
    subscript dict key = .ok value := by
  rw [subscript, found]

/-! ## Configuration -/

/-- The validation hook for adapters. Unset values become the trainer's. -/
def validateLoraRank (trainerLora : LoRAConfig) (orchConfig : OrchestratorConfig) :
    Except String OrchestratorConfig :=
  match orchConfig.model.lora with
  | none => .error "orchestrator.model.lora is required when trainer is configured with LoRA"
  | some lora =>
      let rank := lora.rank.getD trainerLora.rank
      let alpha := lora.alpha.getD trainerLora.alpha
      if trainerLora.rank < rank then
        .error ("orchestrator.model.lora.rank (" ++ toString (rank : Nat) ++
          ") exceeds trainer max rank (" ++ toString (trainerLora.rank : Nat) ++ ")")
      else .ok { orchConfig with model := { lora := some { rank := some rank, alpha := some alpha } } }

/-- A missing or unreadable file and a rejected configuration both give none. -/
def getOrchestratorConfig (loraConfig : Option LoRAConfig)
    (parsed : String → Option OrchestratorConfig) (runId : String) : Option OrchestratorConfig :=
  match parsed runId with
  | none => none
  | some config =>
      match loraConfig with
      | none => some config
      | some trainerLora => (validateLoraRank trainerLora config).toOption

/-- The quotient an adapter's output is scaled by. -/
def loraScaling (config : OrchestratorConfig) : Option Rat :=
  match config.model.lora with
  | some { rank := some rank, alpha := some alpha } => some (alpha / (rank : Nat))
  | _ => none

/-- An accepted configuration names its own scaling. -/
theorem validated_scaling (trainerLora : LoRAConfig) (orchConfig config : OrchestratorConfig)
    (accepted : validateLoraRank trainerLora orchConfig = .ok config) :
    ∃ scaling, loraScaling config = some scaling := by
  unfold validateLoraRank at accepted
  cases given : orchConfig.model.lora with
  | none => simp [given] at accepted
  | some lora =>
    simp only [given] at accepted
    split at accepted
    · cases accepted
    · obtain rfl := Except.ok.inj accepted
      exact ⟨_, rfl⟩

/-! ## Slots of one rank -/

section Manager

/- Storing a number in the table of scaling factors rounds it to the table's format. -/
variable (bf16 : Rat → Rat)

/-- Slots of no run hold this value. -/
def poison : Rat := bf16 1000000

def MultiRunManager.init (rank maxRuns : Nat) : MultiRunManager where
  rank := rank
  maxRuns := maxRuns
  idx2Id := ∅
  id2Idx := ∅
  unusedIdxs := Finset.range maxRuns
  progress := ∅
  config := ∅
  readyToUpdate := List.replicate maxRuns false
  scalingFactors := List.replicate maxRuns (poison bf16)
  lastSyncedId2Idx := ∅
  calls := []

/-- Step `s` on disk means step `s` is finished; training resumes behind it. -/
def resumeProgress (ckptSteps : List Int) (config : OrchestratorConfig) : Progress :=
  let step :=
    match config.ckpt with
    | none => 1
    | some ckpt =>
        match ckpt.resumeStep with
        | none => 1
        | some resumeStep =>
            if resumeStep = -1 then
              match ckptSteps.max? with
              | some latest => latest + 1
              | none => 1
            else resumeStep + 1
  { step := step, totalTokens := 0, totalSamples := 0 }

def MultiRunManager.createRunData (ckptSteps : List Int) (manager : MultiRunManager)
    (newRun : String) (newId : Nat) (config : OrchestratorConfig) :
    Except String MultiRunManager :=
  if newId ∈ manager.unusedIdxs then
    .ok { manager with
      id2Idx := manager.id2Idx.insert newRun newId
      unusedIdxs := manager.unusedIdxs.erase newId
      idx2Id := manager.idx2Id.insert newId newRun
      progress := manager.progress.insert newId (resumeProgress ckptSteps config)
      config := manager.config.insert newId config }
  else .error "KeyError"

def MultiRunManager.deleteRunData (manager : MultiRunManager) (deletedRun : String)
    (deletedIdx : Nat) : Except String MultiRunManager :=
  if deletedIdx ∉ manager.progress then .error "KeyError"
  else if manager.scalingFactors.length ≤ deletedIdx then .error "IndexError"
  else if deletedIdx ∉ manager.idx2Id ∨ deletedRun ∉ manager.id2Idx then .error "KeyError"
  else
    .ok { manager with
      progress := manager.progress.erase deletedIdx
      config := manager.config.erase deletedIdx
      scalingFactors := manager.scalingFactors.set deletedIdx (poison bf16)
      unusedIdxs := insert deletedIdx manager.unusedIdxs
      idx2Id := manager.idx2Id.erase deletedIdx
      id2Idx := manager.id2Idx.erase deletedRun }

def MultiRunManager.createRunHooks (manager : MultiRunManager) (newId : Nat) (newRun : String) :
    MultiRunManager :=
  { manager with
    calls := manager.calls ++ [HookCall.resetParameters newId, HookCall.creation newId newRun] }

def MultiRunManager.deleteRunHooks (manager : MultiRunManager) (deletedIdx : Nat)
    (deletedRun : String) : MultiRunManager :=
  { manager with calls := manager.calls ++ [HookCall.deletion deletedIdx deletedRun] }

/-! ## Discovery on the master -/

/-- What the master finds on disk in one discovery, and the orders in which the
interpreter then happens to list the sets involved. -/
structure Scan where
  runDirs : Finset String
  evicted : Finset String
  parsed : String → Option OrchestratorConfig
  ckptSteps : String → List Int
  runOrder : Iteration String
  idxOrder : Iteration Nat

/-- The discovery hook for adapters. -/
def onRunDiscovered (loraConfig : Option LoRAConfig) (manager : MultiRunManager) (idx : Nat)
    (config : OrchestratorConfig) : Except String MultiRunManager :=
  match loraConfig with
  | none => .ok manager
  | some _ =>
      match loraScaling config with
      | none => .error "TypeError"
      | some scaling =>
          if manager.scalingFactors.length ≤ idx then .error "IndexError"
          else .ok { manager with scalingFactors := manager.scalingFactors.set idx (bf16 scaling) }

def forgetRun (manager : MultiRunManager) (deletedRun : String) :
    Except String MultiRunManager := do
  let deletedIdx ← subscript manager.id2Idx deletedRun
  manager.deleteRunData bf16 deletedRun deletedIdx

/-- A run with no free slot, or with no valid configuration, is passed over. -/
def discoverRun (loraConfig : Option LoRAConfig) (scan : Scan) (manager : MultiRunManager)
    (newRun : String) : Except String MultiRunManager :=
  match (scan.idxOrder.order manager.unusedIdxs).head? with
  | none => .ok manager
  | some newId =>
      match getOrchestratorConfig loraConfig scan.parsed newRun with
      | none => .ok manager
      | some config => do
          let manager ← manager.createRunData (scan.ckptSteps newRun) newRun newId config
          onRunDiscovered bf16 loraConfig manager newId config

def MultiRunManager.discoverRuns (loraConfig : Option LoRAConfig) (scan : Scan)
    (manager : MultiRunManager) : Except String MultiRunManager := do
  if manager.rank ≠ 0 then .error "discover_runs() must only be called on the master rank"
  let runIds := scan.runDirs \ scan.evicted
  let deletedRuns := scan.runOrder.order (manager.id2Idx.keys \ runIds)
  let newRuns := scan.runOrder.order (runIds \ manager.id2Idx.keys)
  let manager ← deletedRuns.foldlM (forgetRun bf16) manager
  newRuns.foldlM (discoverRun bf16 loraConfig scan) manager

/-! ## Synchronization of all ranks -/

/-- What the master leaves in the store for the other ranks. -/
structure SyncData where
  id2Idx : Finmap (fun _ : String => Nat)
  readyToUpdate : List Bool
  scalingFactors : List Rat
  newConfigs : List (String × OrchestratorConfig)
  progress : Finmap (fun _ : Nat => Progress)

def MultiRunManager.newConfig (manager : MultiRunManager) (newRun : String) :
    Except String (String × OrchestratorConfig) := do
  let idx ← subscript manager.id2Idx newRun
  let config ← subscript manager.config idx
  return (newRun, config)

/-- Configurations travel for the names that are new since the last synchronization. -/
def MultiRunManager.syncData (order : Iteration String) (manager : MultiRunManager) :
    Except String SyncData := do
  let newRuns := order.order (manager.id2Idx.keys \ manager.lastSyncedId2Idx.keys)
  let newConfigs ← newRuns.mapM manager.newConfig
  return {
    id2Idx := manager.id2Idx
    readyToUpdate := manager.readyToUpdate
    scalingFactors := manager.scalingFactors
    newConfigs := newConfigs
    progress := manager.progress }

/-- The slots of the deleted names, read where they are still recorded. -/
def deletedRunIdxs (id2Idx : Finmap (fun _ : String => Nat)) (deletedRuns : List String) :
    Except String (List (String × Nat)) :=
  deletedRuns.mapM (fun run => do return (run, ← subscript id2Idx run))

def MultiRunManager.callCreateHooks (manager : MultiRunManager) (newRun : String) :
    Except String MultiRunManager := do
  let newId ← subscript manager.id2Idx newRun
  return manager.createRunHooks newId newRun

/-- Hooks run last, deletions before creations. -/
def MultiRunManager.callHooks (deletedRuns : List (String × Nat)) (newRuns : List String)
    (manager : MultiRunManager) : Except String MultiRunManager :=
  newRuns.foldlM callCreateHooks
    (deletedRuns.foldl (fun manager deleted => manager.deleteRunHooks deleted.2 deleted.1) manager)

def MultiRunManager.synchronizeMaster (order : Iteration String) (manager : MultiRunManager) :
    Except String MultiRunManager := do
  let newRuns := order.order (manager.id2Idx.keys \ manager.lastSyncedId2Idx.keys)
  let deletedRuns := order.order (manager.lastSyncedId2Idx.keys \ manager.id2Idx.keys)
  let deleted ← deletedRunIdxs manager.lastSyncedId2Idx deletedRuns
  let manager ← manager.callHooks deleted newRuns
  return { manager with lastSyncedId2Idx := manager.id2Idx }

def MultiRunManager.createFrom (data : SyncData) (ckptSteps : String → List Int)
    (manager : MultiRunManager) (newRun : String) : Except String MultiRunManager := do
  let newId ← subscript data.id2Idx newRun
  match data.newConfigs.lookup newRun with
  | none => .error "KeyError"
  | some config => manager.createRunData (ckptSteps newRun) newRun newId config

/-- The scaling factors are copied before the deletions are replayed. -/
def MultiRunManager.synchronizeOther (data : SyncData) (order : Iteration String)
    (ckptSteps : String → List Int) (manager : MultiRunManager) :
    Except String MultiRunManager := do
  let newRuns := order.order (data.id2Idx.keys \ manager.id2Idx.keys)
  let deletedRuns := order.order (manager.id2Idx.keys \ data.id2Idx.keys)
  let deleted ← deletedRunIdxs manager.id2Idx deletedRuns
  let manager := { manager with
    readyToUpdate := data.readyToUpdate
    scalingFactors := data.scalingFactors }
  let manager ← deleted.foldlM
    (fun manager deleted => manager.deleteRunData bf16 deleted.1 deleted.2) manager
  let manager ← newRuns.foldlM (createFrom data ckptSteps) manager
  ({ manager with progress := data.progress }).callHooks deleted newRuns

/-- The orders and the checkpoint listings each rank finds in one synchronization. -/
structure Meeting where
  order : Nat → Iteration String
  ckptSteps : Nat → String → List Int

/-- All ranks of one trainer. `created` keeps the runs the master created since
the last synchronization and still holds; no rank reads it. -/
structure Fleet where
  master : MultiRunManager
  others : List MultiRunManager
  created : Finset String
deriving DecidableEq

/-- Ranks after the master are numbered from one. -/
def Fleet.init (maxRuns otherRanks : Nat) : Fleet where
  master := .init bf16 0 maxRuns
  others := (List.range otherRanks).map (fun rank => .init bf16 (rank + 1) maxRuns)
  created := ∅

def Fleet.discoverRuns (loraConfig : Option LoRAConfig) (scan : Scan) (fleet : Fleet) :
    Except String Fleet := do
  let master ← fleet.master.discoverRuns bf16 loraConfig scan
  return {
    master := master
    others := fleet.others
    created := (fleet.created ∩ master.id2Idx.keys) ∪
      (master.id2Idx.keys \ fleet.master.id2Idx.keys) }

/-- The store is written before the barrier and read behind it. Nothing stands
behind the reading, so this assumes that the ranks move in lock step: every one
has read the store before the master writes it again. -/
def Fleet.synchronizeState (meeting : Meeting) (fleet : Fleet) : Except String Fleet := do
  let data ← fleet.master.syncData (meeting.order fleet.master.rank)
  let master ← fleet.master.synchronizeMaster (meeting.order fleet.master.rank)
  let others ← fleet.others.mapM (fun manager =>
    manager.synchronizeOther bf16 data (meeting.order manager.rank) (meeting.ckptSteps manager.rank))
  return { master := master, others := others, created := ∅ }

inductive Event
  | discover (scan : Scan)
  | synchronize (meeting : Meeting)

/-- A raised exception stops the trainer. -/
def Fleet.step (loraConfig : Option LoRAConfig) (fleet : Fleet) : Event → Option Fleet
  | .discover scan => (fleet.discoverRuns bf16 loraConfig scan).toOption
  | .synchronize meeting => (fleet.synchronizeState bf16 meeting).toOption

end Manager

end PrimeRl.Trainer.Runs
