import PrimeRl.Support.Machine

/-!
# Batches and policy updates between orchestrator and trainer

The orchestrator ships one batch per step and the trainer publishes one policy per
step. The watcher of the orchestrator adopts what is published, and the dispatch
gate pauses the orchestrator while the policy lags behind. Over NCCL a policy is
handed over in a rendezvous that the marker files prepare; over the filesystem it
is read from a directory, and directories of old policies are removed.

Rollouts are left out: a batch may be completed in every state, since rollouts may
be in flight, and is bound to be completed only while the gate is open.
-/

namespace PrimeRl.PolicyUpdates

inductive WeightBroadcastType where
  | nccl
  | filesystem
deriving DecidableEq

/-- What the parties share: the last step if there is one, the step of a restored checkpoint,
and the interval of checkpoints. -/
structure PipelineConfig where
  weightBroadcast : WeightBroadcastType
  maxSteps : Option Nat
  resumeStep : Option Nat
  ckptInterval : Option Nat

/-- How far `apply_policy_update` has come. -/
inductive WatcherPhase where
  /-- Setup receives the restored policy. -/
  | restoring
  | idle
  | waiting (nextStep : Nat)
  | pending (nextStep : Nat)
  | pausing (nextStep : Nat)
  | receiving (nextStep : Nat)
  | received (nextStep : Nat)
  | announcing (nextStep : Nat)
deriving DecidableEq

/-- How far the training loop has come in its step. -/
inductive TrainerPhase where
  | restoring
  | waiting
  | trained
  | announced
  | sending
  | published
  | broadcast
  | exited
deriving DecidableEq

/-- The parties, what is on the way between them and the marker files. `step` is the next batch of
the orchestrator, `weights` the policy in the engines. -/
structure Pipeline where
  step : Nat
  shipping : Bool
  draining : Bool
  stopped : Bool
  version : Nat
  ckptStep : Nat
  dispatchAllowed : Bool
  watcher : WatcherPhase
  weights : Nat
  sent : List Nat
  stable : List Nat
  ncclReady : List Nat
  trainerStep : Nat
  trainer : TrainerPhase
deriving DecidableEq

inductive Event where
  /-- A batch is completed and goes to the trainer. -/
  | send
  /-- The step of a shipped batch is counted. -/
  | ship
  | stop
  | poll
  | confirm
  | drain
  | pause
  | load
  | adopt
  | notify
  | take
  | publish
  | proceed
  | transfer
  | clean
  | finish
deriving DecidableEq

/-- Maximum batches the orchestrator may run ahead of the trainer. -/
def targetLag : Int := 1

/-- The gate that a step and a version call for. -/
def gateOpen (step version : Nat) : Bool := ¬((step : Int) - 1) - version > targetLag

def Pipeline.updateDispatchGate (state : Pipeline) : Pipeline :=
  { state with dispatchAllowed := gateOpen state.step state.version }

/-- The newest step with a marker, or zero. -/
def latestCkptStep (stable : List Nat) : Nat := stable.foldr max 0

def computeNextCkptStep (state : Pipeline) : Nat := max state.version (latestCkptStep state.stable)

def requiredBroadcastsAdopted (config : PipelineConfig) (version : Nat) : Bool :=
  match config.weightBroadcast, config.maxSteps with
  | .nccl, some maxSteps => decide (maxSteps - 2 ≤ version)
  | _, _ => true

/-- The last broadcasts over NCCL have no receiver. -/
def ncclBroadcastUnused (config : PipelineConfig) (step : Nat) : Bool :=
  match config.weightBroadcast, config.maxSteps with
  | .nccl, some maxSteps => decide (maxSteps - 1 ≤ step)
  | _, _ => false

/-- The directory of two steps ago goes, unless it falls on the interval of checkpoints. -/
def maybeClean (stable : List Nat) (step : Nat) (intervalToKeep : Option Nat) : List Nat :=
  let candidateStep := step - 2
  match intervalToKeep with
  | some interval =>
      if interval ≠ 0 ∧ candidateStep % interval = 0 then stable
      else stable.filter (fun published => decide (published ≠ candidateStep))
  | none => stable.filter (fun published => decide (published ≠ candidateStep))

def pastLastStep (config : PipelineConfig) (step : Nat) : Bool :=
  match config.maxSteps with
  | some maxSteps => decide (maxSteps < step)
  | none => false

def reachesLastStep (config : PipelineConfig) (step : Nat) : Bool :=
  match config.maxSteps with
  | some maxSteps => decide (maxSteps ≤ step)
  | none => false

/-- One event. Everything the orchestrator does ends when it has stopped, where in
the source the watcher goes on until the teardown cancels it. -/
def Pipeline.next (config : PipelineConfig) (state : Pipeline) : Event → Option Pipeline
  | .send =>
      if state.stopped || state.draining || state.shipping || state.watcher = .restoring then none
      else if pastLastStep config state.step then some { state with draining := true }
      else some { state with sent := state.sent ++ [state.step], shipping := true }
  | .ship =>
      if state.stopped || !state.shipping then none
      else
        some { { state with step := state.step + 1 }.updateDispatchGate with
          shipping := false
          draining := reachesLastStep config state.step }
  | .stop =>
      if !state.stopped && state.draining && requiredBroadcastsAdopted config state.version then
        some { state with stopped := true }
      else none
  | .poll =>
      if state.stopped then none
      else
        match state.watcher with
        | .idle =>
            if state.ckptStep < computeNextCkptStep state then
              some { state with watcher := .waiting (computeNextCkptStep state) }
            else none
        | _ => none
  | .confirm =>
      if state.stopped then none
      else
        match state.watcher with
        | .waiting nextStep =>
            if nextStep ∈ state.stable then some { state with watcher := .pending nextStep } else none
        | _ => none
  | .drain =>
      if state.stopped then none
      else
        match state.watcher with
        | .pending nextStep => some { state with watcher := .pausing nextStep }
        | _ => none
  | .pause =>
      if state.stopped then none
      else
        match state.watcher with
        | .pausing nextStep =>
            some { state with
              ncclReady := state.ncclReady ++ [nextStep]
              watcher := .receiving nextStep }
        | _ => none
  | .load =>
      if state.stopped then none
      else
        match config.weightBroadcast, state.watcher with
        | .filesystem, .receiving nextStep =>
            if nextStep ∈ state.stable then
              some { state with weights := nextStep, watcher := .received nextStep }
            else none
        | _, _ => none
  | .adopt =>
      if state.stopped then none
      else
        match state.watcher with
        | .received nextStep =>
            some { state with
              ckptStep := nextStep
              version := nextStep
              watcher := .announcing nextStep }
        | _ => none
  | .notify =>
      if state.stopped then none
      else
        match state.watcher with
        | .announcing _ => some { state.updateDispatchGate with watcher := .idle }
        | _ => none
  | .take =>
      match state.trainer, state.sent with
      | .waiting, _ :: rest => some { state with sent := rest, trainer := .trained }
      | _, _ => none
  | .publish =>
      match state.trainer with
      | .trained =>
          if ncclBroadcastUnused config state.trainerStep then
            some { state with trainer := .broadcast }
          else
            match config.weightBroadcast with
            | .nccl =>
                some { state with
                  stable := state.stable ++ [state.trainerStep]
                  trainer := .announced }
            | .filesystem =>
                some { state with
                  stable := state.stable ++ [state.trainerStep]
                  trainer := .published }
      | _ => none
  | .proceed =>
      match state.trainer with
      | .announced =>
          if state.trainerStep ∈ state.ncclReady then some { state with trainer := .sending } else none
      | _ => none
  | .transfer =>
      if state.stopped then none
      else
        match state.trainer, state.watcher with
        | .restoring, .restoring =>
            some { state with
              weights := config.resumeStep.getD 0
              version := config.resumeStep.getD 0
              ckptStep := config.resumeStep.getD 0
              trainer := .waiting
              watcher := .idle }
        | .sending, .receiving nextStep =>
            some { state with
              weights := state.trainerStep
              trainer := .broadcast
              watcher := .received nextStep }
        | _, _ => none
  | .clean =>
      match state.trainer with
      | .published =>
          some { state with
            stable := maybeClean state.stable state.trainerStep config.ckptInterval
            trainer := .broadcast }
      | _ => none
  | .finish =>
      match state.trainer with
      | .broadcast =>
          if config.maxSteps = some state.trainerStep then some { state with trainer := .exited }
          else some { state with trainerStep := state.trainerStep + 1, trainer := .waiting }
      | _ => none

/-- The parties at their start, with the markers that earlier runs have left. -/
def Pipeline.init (config : PipelineConfig) (stable ncclReady : List Nat) : Pipeline :=
  let restored := config.resumeStep.getD 0
  let live := config.weightBroadcast = .nccl ∧ config.resumeStep.isSome
  { step := restored + 1
    shipping := false
    draining := false
    stopped := false
    version := if live then 0 else restored
    ckptStep := if live then 0 else restored
    dispatchAllowed := true
    watcher := if live then .restoring else .idle
    weights := if live then 0 else restored
    sent := []
    stable := stable
    ncclReady := ncclReady
    trainerStep := restored + 1
    trainer := if live then .restoring else .waiting }

end PrimeRl.PolicyUpdates
