import Mathlib.Data.PNat.Basic
import PrimeRl.Support.Collective
import PrimeRl.Trainer.Runs

/-!
# Checkpoints of several runs

Every rank saves its part of each run that is due, inside a block that swallows
every exception. The ranks meet inside the block once all has been written, after
the block, and after the last run. The step is marked stable behind the first of
these barriers.
-/

namespace PrimeRl.Trainer.MultiCkpt

open Collective

/-- Checkpoint settings of a run. -/
structure RunCheckpointConfig extends Runs.OrchestratorConfig.CheckpointConfig where
  interval : Option ℕ+
  keepLast : Option ℕ+
  keepInterval : Option ℕ+
deriving DecidableEq, Repr

/-- Checkpoint settings of a manager. -/
structure CheckpointConfig where
  interval : Option ℕ+
  resumeStep : Option Int
  keepLast : Option ℕ+
  keepInterval : Option ℕ+
deriving DecidableEq, Repr

structure CheckpointManager where
  config : CheckpointConfig
  ckptSteps : List Int
deriving DecidableEq, Repr

/-- The steps that have a directory. -/
structure StepDirs where
  steps : List Int
  distinct : steps.Nodup

/-- Steps with a directory, in ascending order. -/
def getAllCkptSteps (stepDirs : StepDirs) : List Int :=
  stepDirs.steps.mergeSort (fun step other => decide (step ≤ other))

def CheckpointManager.init (config : CheckpointConfig) (stepDirs : StepDirs) : CheckpointManager :=
  let allSteps := getAllCkptSteps stepDirs
  { config := config
    ckptSteps :=
      match config.resumeStep with
      | some resumeStep =>
          if 0 ≤ resumeStep then allSteps.filter (fun step => decide (step ≤ resumeStep)) else allSteps
      | none => allSteps }

/-- The settings of a run's manager. The step the run resumes from is not among
them. -/
def managerConfig (ckptConfig : RunCheckpointConfig) : CheckpointConfig where
  interval := ckptConfig.interval
  resumeStep := none
  keepLast := ckptConfig.keepLast
  keepInterval := ckptConfig.keepInterval

def maybeCreateManager (ckptConfig : Option RunCheckpointConfig) (stepDirs : StepDirs) :
    Option CheckpointManager :=
  ckptConfig.map (fun config => .init (managerConfig config) stepDirs)

/-- A step is saved when it is due and not recorded. -/
def shouldSave (ckptConfig : Option RunCheckpointConfig) (ckptSteps : List Int) (step : Int) : Bool :=
  match ckptConfig.bind RunCheckpointConfig.interval with
  | none => false
  | some interval =>
      if decide (step ≤ 0) || decide (step % (interval : Nat) ≠ 0) then false
      else decide (step ∉ ckptSteps)

/-! ## Saving -/

/-- What a rank does for one run and step. -/
inductive Operation where
  | stateDict
  | mkdir
  | save
  | copytree
  | markStable
  | append
  | removeRunDir
deriving DecidableEq, Repr

/-- Where in the code a barrier stands. -/
inductive Place where
  | afterWriting
  | afterTry
  | atEnd
deriving DecidableEq, Repr

/-- An operation on a run and step. -/
structure Action where
  idx : Nat
  step : Int
  operation : Operation
deriving DecidableEq, Repr

/-- The run a barrier is for, and where it stands. -/
abbrev Barrier := Option Nat × Place

abbrev Program := List (Instruction Action Barrier)

/-- A used run, as every rank knows it. Its next step is behind the one just
finished. -/
structure Run where
  idx : Nat
  progress : Int
  ckpt : Option RunCheckpointConfig
  configMissing : Bool
deriving DecidableEq, Repr

/-- No two used runs have one index. -/
structure UsedRuns where
  runs : List Run
  distinct : (runs.map Run.idx).Nodup

/-- A rank with the steps its managers have recorded, and the operations that raise
on it. A missing broadcast folder is logged and does not raise. -/
structure Rank where
  isMaster : Bool
  ckptSteps : Nat → List Int
  raises : Nat → Operation → Bool

/-- The block that swallows exceptions, when nothing raises. -/
def tryBody (isMaster : Bool) (idx : Nat) (step : Int) : Program :=
  [.act ⟨idx, step, .stateDict⟩, .act ⟨idx, step, .mkdir⟩, .act ⟨idx, step, .save⟩] ++
    (if isMaster then [.act ⟨idx, step, .copytree⟩] else []) ++
    [.barrier (some idx, .afterWriting), .act ⟨idx, step, .markStable⟩, .act ⟨idx, step, .append⟩]

/-- Recording a step in a list cannot raise. -/
def raises (operations : Operation → Bool) : Instruction Action Barrier → Bool
  | .act ⟨_, _, .append⟩ => false
  | .act ⟨_, _, operation⟩ => operations operation
  | .barrier _ => false

/-- The first exception leaves the block. -/
def attempt (operations : Operation → Bool) (body : Program) : Program :=
  body.takeWhile (fun instruction => !raises operations instruction)

def saveRun (rank : Rank) (run : Run) : Program :=
  let step := run.progress - 1
  if shouldSave run.ckpt (rank.ckptSteps run.idx) step then
    attempt (rank.raises run.idx) (tryBody rank.isMaster run.idx step) ++
      [.barrier (some run.idx, .afterTry)] ++
      (if run.configMissing && rank.isMaster then [.act ⟨run.idx, step, .removeRunDir⟩] else [])
  else []

def save (rank : Rank) (used : UsedRuns) : Program :=
  used.runs.flatMap (saveRun rank) ++ [.barrier (none, .atEnd)]

/-! ## Cleaning -/

/-- The last steps of a list. -/
def lastSteps (count : Nat) (steps : List Int) : List Int := steps.drop (steps.length - count)

/-- Steps that a policy keeps. -/
def stepsToKeep (config : CheckpointConfig) (ckptSteps : List Int) : List Int :=
  (match config.keepLast with
    | some keepLast => lastSteps keepLast ckptSteps
    | none => []) ++
  (match config.keepInterval with
    | some keepInterval => ckptSteps.filter (fun step => decide (step % (keepInterval : Nat) = 0))
    | none => [])

/-- Forget the steps that the policies do not keep. -/
def CheckpointManager.maybeClean (manager : CheckpointManager) : Except String CheckpointManager :=
  if manager.config.keepLast.isNone && manager.config.keepInterval.isNone then .ok manager
  else if manager.ckptSteps ≠ manager.ckptSteps.mergeSort (fun step other => decide (step ≤ other)) then
    .error "AssertionError"
  else
    .ok { manager with
      ckptSteps := manager.ckptSteps.filter
        (fun step => decide (step ∈ stepsToKeep manager.config manager.ckptSteps)) }

/-! ## A run on one rank -/

/-- A run on one rank, with the steps this rank has written and marked since the
session started. -/
structure Session where
  isMaster : Bool
  ckpt : RunCheckpointConfig
  manager : CheckpointManager
  progress : Int
  written : List Int
  stable : List Int

/-- The run is created: its manager lists the steps on disk and its progress is
behind the step it resumes from. -/
def Session.start (isMaster : Bool) (ckpt : RunCheckpointConfig) (stepDirs : StepDirs)
    (stableSteps : List Int) : Session where
  isMaster := isMaster
  ckpt := ckpt
  manager := .init (managerConfig ckpt) stepDirs
  progress := (Runs.resumeProgress stableSteps
    { ckpt := some ckpt.toCheckpointConfig, model := { lora := none } }).step
  written := []
  stable := []

/-- What an instruction of the save leaves behind. -/
def Session.perform (session : Session) : Instruction Action Barrier → Session
  | .act ⟨_, step, .save⟩ => { session with written := session.written ++ [step] }
  | .act ⟨_, step, .markStable⟩ =>
      if session.isMaster then { session with stable := session.stable ++ [step] } else session
  | .act ⟨_, step, .append⟩ =>
      { session with
        manager := { session.manager with ckptSteps := session.manager.ckptSteps ++ [step] } }
  | _ => session

/-- A save in which nothing raises. -/
def Session.save (session : Session) : Session :=
  (saveRun
      { isMaster := session.isMaster
        ckptSteps := fun _ => session.manager.ckptSteps
        raises := fun _ _ => false }
      ⟨0, session.progress, some session.ckpt, false⟩).foldl Session.perform session

/-- Only the master cleans. -/
def Session.maybeClean (session : Session) : Except String Session :=
  if session.isMaster then
    session.manager.maybeClean.map (fun manager => { session with manager := manager })
  else .ok session

inductive Event where
  | advance
  | save
  | maybeClean
deriving DecidableEq, Repr

def Session.step (session : Session) : Event → Option Session
  | .advance => some { session with progress := session.progress + 1 }
  | .save => some session.save
  | .maybeClean => session.maybeClean.toOption

end PrimeRl.Trainer.MultiCkpt
