import Mathlib.Algebra.Ring.Int.Defs
import Mathlib.Algebra.Ring.Nat
import Mathlib.Data.List.Dedup
import PrimeRl.Support.OrderedDict

/-!
# The rollout dispatcher

Groups of rollouts are opened from a source, scheduled one task at a time under
a shared permit counter and emitted to a bounded queue. A group leaves the
dictionary of live groups once all its rollouts are emitted, or when it is
dropped. Coroutines that already hold a group keep reading and writing it, so
every group ever opened keeps its state here and its identifier is its position.
-/

namespace PrimeRl.Orchestrator.Dispatcher

universe u
variable {Trace Failure TaskData Client : Type u}

inductive RolloutKind where
  | train
  | eval
deriving DecidableEq, Repr

structure Policy where
  version : Int := 0
  modelName : String := ""
deriving DecidableEq, Repr

/-- What a marker carries of the task it stands for. -/
inductive Payload (TaskData : Type u) where
  | data (taskData : TaskData)
  | index (taskIdx : Int)

/-- The operations of traces that the dispatcher uses. -/
structure TraceOps (Trace Failure TaskData : Type u) where
  hasError : Trace → Bool
  numTurns : Trace → Nat
  dispatchTask : Payload TaskData → List (String × String) → Option String → Trace
  appendError : Trace → String → String → Trace
  setOk : Trace → Bool → Trace
  recordError : Trace → Failure → Trace
  stop : Trace → String → Trace

/-- The per-group state: what is left to schedule and the pinned client. -/
structure GroupState (TaskData Client : Type u) where
  kind : RolloutKind
  envName : String
  taskIdx : Int
  rolloutsToSchedule : Nat
  targetRollouts : Nat
  taskData : Option TaskData
  emitted : Nat := 0
  evalStep : Option Int
  pinnedClient : Option Client := none
  policyVersionAtStart : Int

/-- The per-task state of a task in flight. -/
structure InflightRollout (Client : Type u) where
  kind : RolloutKind
  envName : String
  groupId : Nat
  policyVersion : Int
  rolloutCount : Nat
  clientConfig : Option Client := none
  offPolicySteps : Int := 0
  evalStep : Option Int

/-- A trace with the metadata that the dispatcher stamps on it. -/
structure Rollout (Trace : Type u) where
  trace : Trace
  kind : RolloutKind
  envName : String
  groupId : Nat
  policyVersion : Int
  offPolicySteps : Int
  evalStep : Option Int

/-- An environment, whose group size is configured positive. -/
structure Env where
  requiresGroupScoring : Bool
  groupSize : Nat
  positive : 1 ≤ groupSize

/-- A train environment with what its sampler knows of its source. -/
structure TrainEnv extends Env where
  samplesFromLivePolicy : Bool
  poolModelName : String

/-- An example of a source. Evaluation examples carry the step they are for. -/
structure Example (TaskData : Type u) where
  envName : String
  taskIdx : Int
  task : Option TaskData
  evalStep : Option Int

/-- How a task was started. -/
inductive Call (TaskData Client : Type u) where
  | runRollout (client : Client) (taskIdx : Int) (taskData : Option TaskData) (modelName : String)
      (cacheSalt : Option String)
  | runGroup (client : Client) (taskIdx : Int) (modelName : String) (groupSize : Nat)
      (cacheSalt : Option String)

structure DispatcherMetrics where
  cancelledByKindEnv : OrderedDict (RolloutKind × String) Nat := .empty
  erroredByKindEnv : OrderedDict (RolloutKind × String) Nat := .empty

namespace DispatcherMetrics

def recordCancellation (metrics : DispatcherMetrics) (kind : RolloutKind) (envName : String)
    (n : Nat) : DispatcherMetrics :=
  let counts := metrics.cancelledByKindEnv
  { metrics with
    cancelledByKindEnv := counts.set (kind, envName) ((counts.get? (kind, envName)).getD 0 + n) }

def recordError (metrics : DispatcherMetrics) (kind : RolloutKind) (envName : String) :
    DispatcherMetrics :=
  let counts := metrics.erroredByKindEnv
  { metrics with
    erroredByKindEnv := counts.set (kind, envName) ((counts.get? (kind, envName)).getD 0 + 1) }

end DispatcherMetrics

structure DispatcherConfig where
  trainEnvs : String → TrainEnv
  evalEnvs : Option (String → Env)
  maxInflightRollouts : Int
  rateLimited : Bool
  maxOffPolicySteps : Int

structure RolloutDispatcher (Trace TaskData Client : Type u) where
  config : DispatcherConfig
  policy : Policy := {}
  inflightPermits : Int := 0
  inflight : OrderedDict Nat (InflightRollout Client) := .empty
  opened : List (GroupState TaskData Client) := []
  groups : List Nat := []
  outQ : List (Rollout Trace) := []
  trainSchedulingDisabled : Bool := false
  metrics : DispatcherMetrics := {}
  calls : List (Call TaskData Client) := []

/-- Where the scheduling call of the dispatch loop is suspended. -/
inductive Scheduler (TaskData Client : Type u) where
  | idle
  | selecting (groupId : Nat) (modelName : String) (liveSourced : Bool)
  | acquiring (groupId : Nat) (client : Client) (permits left : Nat) (call : Call TaskData Client)

/-- The local state of a drop. The group is the one it popped, and `unscheduled`
is set once the markers of claimed tasks are emitted. -/
structure Drop (Client : Type u) where
  groupId : Nat
  group : Option Nat
  taskIdx : Int
  tasks : List Nat
  inflightCancelled : Nat
  lastMeta : Option (InflightRollout Client)
  unscheduled : Option Nat := none

/-- Where the emission loop of a drop gets to. -/
inductive Marked (Trace Client : Type u) where
  | putting (drop : Drop Client) (rollout : Rollout Trace) (rest : List (InflightRollout Client))
  | finished (drop : Drop Client)
  | raised

/-- Where a coroutine is suspended: at a put of its emission loop, while tasks it
cancelled wind down, or for good. -/
inductive Coroutine (Trace Client : Type u) where
  | completing (metadata : InflightRollout Client) (group : Option Nat) (putting : Rollout Trace)
      (rest : List Trace)
  | dropping (drop : Drop Client) (putting : Rollout Trace) (rest : List (InflightRollout Client))
      (later : List Nat)
  | cancelling (later : List Nat)
  | returned
  | raised

/-- How a task ends. -/
inductive TaskOutcome (Trace Failure : Type u) where
  | returned (rollouts : List Trace)
  | failed (error : Failure)
  | unsupported
  | cancelled

/-- A non-trainable marker with the dispatched task's own data. -/
def failureRollout (traces : TraceOps Trace Failure TaskData)
    (group : Option (GroupState TaskData Client)) (taskIdx : Int) (cancelled : Bool) : Trace :=
  let payload :=
    match group.bind GroupState.taskData with
    | some taskData => .data taskData
    | none => .index taskIdx
  traces.dispatchTask payload
    (if cancelled then [("Cancelled", "Off-policy cancel")] else [])
    (if cancelled then some "error" else none)

namespace RolloutDispatcher

/-- The group a reference points at. -/
def object (dispatcher : RolloutDispatcher Trace TaskData Client) (group : Option Nat) :
    Option (GroupState TaskData Client) :=
  group.bind (fun groupId => dispatcher.opened[groupId]?)

/-- A reference to a live group. -/
def lookup (dispatcher : RolloutDispatcher Trace TaskData Client) (groupId : Nat) : Option Nat :=
  if groupId ∈ dispatcher.groups then some groupId else none

def availablePermits (dispatcher : RolloutDispatcher Trace TaskData Client) : Int :=
  dispatcher.config.maxInflightRollouts - dispatcher.inflightPermits

def release (dispatcher : RolloutDispatcher Trace TaskData Client) (n : Nat) :
    RolloutDispatcher Trace TaskData Client :=
  { dispatcher with inflightPermits := dispatcher.inflightPermits - n }

/-- The bound of the output queue. -/
def maxsize (dispatcher : RolloutDispatcher Trace TaskData Client) : Int :=
  max 8 dispatcher.config.maxInflightRollouts

/-! ## Emission -/

/-- Stamp the metadata on a rollout. An evaluation rollout must have its step. -/
def stamp (metadata : InflightRollout Client) (evalStep : Option Int) (policyVersion : Int)
    (trace : Trace) : Option (Rollout Trace) :=
  if metadata.kind = .eval ∧ evalStep = none then none
  else
    some
      { trace := trace
        kind := metadata.kind
        envName := metadata.envName
        groupId := metadata.groupId
        policyVersion := policyVersion
        offPolicySteps := metadata.offPolicySteps
        evalStep := if metadata.kind = .eval then evalStep else none }

/-- Emit a rollout up to its put. A group leaves the live groups with its last
member. Without an answer the assertion on the evaluation step failed. -/
def emitRollout (dispatcher : RolloutDispatcher Trace TaskData Client)
    (metadata : InflightRollout Client) (group : Option Nat) (trace : Trace) :
    RolloutDispatcher Trace TaskData Client × Option (Rollout Trace) :=
  match group, dispatcher.object group with
  | some groupId, some state =>
    let counted := { state with emitted := state.emitted + 1 }
    ({ dispatcher with
        opened := dispatcher.opened.set groupId counted
        groups :=
          if state.targetRollouts ≤ counted.emitted then
            dispatcher.groups.filter (fun live => live ≠ metadata.groupId)
          else dispatcher.groups },
      stamp metadata state.evalStep state.policyVersionAtStart trace)
  | _, _ => (dispatcher, stamp metadata metadata.evalStep metadata.policyVersion trace)

/-- An empty trajectory is promoted to an error. -/
def promote (traces : TraceOps Trace Failure TaskData) (trace : Trace) : Trace :=
  if !traces.hasError trace && traces.numTurns trace == 0 then
    traces.setOk
      (traces.appendError trace "EmptyTrajectory" "Rollout returned with no trajectory steps") false
  else trace

/-- Count a rollout that has an error. -/
def countError (dispatcher : RolloutDispatcher Trace TaskData Client)
    (traces : TraceOps Trace Failure TaskData) (metadata : InflightRollout Client) (trace : Trace) :
    RolloutDispatcher Trace TaskData Client :=
  if traces.hasError trace then
    { dispatcher with
      metrics := dispatcher.metrics.recordError metadata.kind metadata.envName }
  else dispatcher

/-- The emission loop of a completed task, up to its next put. -/
def completeNext (dispatcher : RolloutDispatcher Trace TaskData Client)
    (traces : TraceOps Trace Failure TaskData) (metadata : InflightRollout Client)
    (group : Option Nat) :
    List Trace → RolloutDispatcher Trace TaskData Client × Coroutine Trace Client
  | [] => (dispatcher, .returned)
  | trace :: rest =>
    let promoted := promote traces trace
    match (dispatcher.countError traces metadata promoted).emitRollout metadata group promoted with
    | (emitted, some rollout) => (emitted, .completing metadata group rollout rest)
    | (emitted, none) => (emitted, .raised)

/-- Handle a finished task, up to the first put. A task that a drop popped is
already handled. -/
def handleCompletedRollout (dispatcher : RolloutDispatcher Trace TaskData Client)
    (traces : TraceOps Trace Failure TaskData) (task : Nat) (outcome : TaskOutcome Trace Failure) :
    RolloutDispatcher Trace TaskData Client × Coroutine Trace Client :=
  match dispatcher.inflight.get? task with
  | none => (dispatcher, .returned)
  | some metadata =>
    let popped :=
      { dispatcher with inflight := dispatcher.inflight.erase task }.release metadata.rolloutCount
    let group := popped.lookup metadata.groupId
    match outcome with
    | .returned rollouts => popped.completeNext traces metadata group rollouts
    | .cancelled => (popped, .returned)
    | .unsupported => (popped, .raised)
    | .failed error =>
      let taskIdx := ((popped.object group).map GroupState.taskIdx).getD (-1)
      let marker :=
        traces.stop
          (traces.recordError (failureRollout traces (popped.object group) taskIdx false) error)
          "error"
      popped.completeNext traces metadata group (List.replicate metadata.rolloutCount marker)

/-! ## Dropping groups -/

/-- Pop a group and claim its tasks, without yielding. -/
def claim (dispatcher : RolloutDispatcher Trace TaskData Client) (groupId : Nat) :
    RolloutDispatcher Trace TaskData Client × Drop Client × List (InflightRollout Client) :=
  let group := dispatcher.lookup groupId
  let claimed := dispatcher.inflight.entries.filter (fun entry => entry.2.groupId = groupId)
  let metas := claimed.map Prod.snd
  let count := (metas.map InflightRollout.rolloutCount).sum
  ({ dispatcher with
      groups := dispatcher.groups.filter (fun live => live ≠ groupId)
      inflight := dispatcher.inflight.discard (fun metadata => metadata.groupId = groupId) }.release count,
    { groupId := groupId
      group := group
      taskIdx := ((dispatcher.object group).map GroupState.taskIdx).getD (-1)
      tasks := claimed.map Prod.fst
      inflightCancelled := count
      lastMeta := metas.getLast? },
    metas.flatMap (fun metadata => List.replicate metadata.rolloutCount metadata))

/-- Emit the next marker of a drop, up to its put. -/
def mark (dispatcher : RolloutDispatcher Trace TaskData Client)
    (traces : TraceOps Trace Failure TaskData) (drop : Drop Client) :
    List (InflightRollout Client) →
      RolloutDispatcher Trace TaskData Client × Marked Trace Client
  | [] => (dispatcher, .finished drop)
  | metadata :: rest =>
    let marker := failureRollout traces (dispatcher.object drop.group) drop.taskIdx true
    match dispatcher.emitRollout metadata drop.group marker with
    | (emitted, some rollout) => (emitted, .putting drop rollout rest)
    | (emitted, none) => (emitted, .raised)

/-- Metadata made up from a group. -/
def standIn (groupId : Nat) (state : GroupState TaskData Client) : InflightRollout Client :=
  { kind := state.kind
    envName := state.envName
    groupId := groupId
    policyVersion := state.policyVersionAtStart
    rolloutCount := 1
    evalStep := state.evalStep }

/-- Continue the emission loop of a drop. Behind the markers of claimed tasks come
those of the rollouts that were never dispatched. -/
def markNext (dispatcher : RolloutDispatcher Trace TaskData Client)
    (traces : TraceOps Trace Failure TaskData) (drop : Drop Client)
    (rest : List (InflightRollout Client)) :
    RolloutDispatcher Trace TaskData Client × Marked Trace Client :=
  if rest = [] ∧ drop.unscheduled = none then
    match dispatcher.object drop.group with
    | none => (dispatcher, .finished { drop with unscheduled := some 0 })
    | some state =>
      let fallbackMeta := drop.lastMeta.getD (standIn drop.groupId state)
      dispatcher.mark traces { drop with unscheduled := some state.rolloutsToSchedule }
        (List.replicate state.rolloutsToSchedule fallbackMeta)
  else dispatcher.mark traces drop rest

/-- Count what a drop cancelled. -/
def recordDropped (dispatcher : RolloutDispatcher Trace TaskData Client) (drop : Drop Client) :
    RolloutDispatcher Trace TaskData Client :=
  let cancelled := drop.inflightCancelled + drop.unscheduled.getD 0
  let metaForLog := drop.lastMeta.or ((dispatcher.object drop.group).map (standIn drop.groupId))
  match metaForLog with
  | some metadata =>
    if 0 < cancelled then
      { dispatcher with
        metrics := dispatcher.metrics.recordCancellation metadata.kind metadata.envName cancelled }
    else dispatcher
  | none => dispatcher

/-- Where a drop goes on from its emission loop, with the groups to drop later. -/
def afterMark (dropLater : RolloutDispatcher Trace TaskData Client →
      RolloutDispatcher Trace TaskData Client × Coroutine Trace Client)
    (later : List Nat) :
    RolloutDispatcher Trace TaskData Client × Marked Trace Client →
      RolloutDispatcher Trace TaskData Client × Coroutine Trace Client
  | (dispatcher, .putting drop rollout rest) => (dispatcher, .dropping drop rollout rest later)
  | (dispatcher, .raised) => (dispatcher, .raised)
  | (dispatcher, .finished drop) =>
    let recorded := dispatcher.recordDropped drop
    if drop.tasks = [] then dropLater recorded else (recorded, .cancelling later)

/-- Drop groups one after another, up to the first suspension. -/
def dropGroups (traces : TraceOps Trace Failure TaskData) :
    List Nat → RolloutDispatcher Trace TaskData Client →
      RolloutDispatcher Trace TaskData Client × Coroutine Trace Client
  | [], dispatcher => (dispatcher, .returned)
  | groupId :: later, dispatcher =>
    let (claimed, drop, rest) := dispatcher.claim groupId
    afterMark (dropGroups traces later) later (claimed.markNext traces drop rest)

/-- A rollout ages with the policy unless its sampler is frozen. -/
def ages (dispatcher : RolloutDispatcher Trace TaskData Client) (metadata : InflightRollout Client) :
    Bool :=
  metadata.kind = .train && (dispatcher.config.trainEnvs metadata.envName).samplesFromLivePolicy

/-- Bump the off-policy counters. -/
def age (dispatcher : RolloutDispatcher Trace TaskData Client) :
    RolloutDispatcher Trace TaskData Client :=
  { dispatcher with
    inflight :=
      dispatcher.inflight.mapValues
        (fun metadata =>
          if dispatcher.ages metadata then { metadata with offPolicySteps := metadata.offPolicySteps + 1 }
          else metadata) }

/-- Groups with a rollout past the off-policy bound. -/
def staleGroups (dispatcher : RolloutDispatcher Trace TaskData Client) : List Nat :=
  ((dispatcher.inflight.values.filter (fun metadata =>
    dispatcher.ages metadata && dispatcher.config.maxOffPolicySteps < metadata.offPolicySteps)).map
      InflightRollout.groupId).dedup

/-! ## Scheduling -/

/-- Wrap the next example of a source. Its environment tells the group size. -/
def nextFreshGroup (dispatcher : RolloutDispatcher Trace TaskData Client) (kind : RolloutKind)
    (env : Env) (picked : Example TaskData) : GroupState TaskData Client :=
  { kind := kind
    envName := picked.envName
    taskIdx := picked.taskIdx
    taskData := picked.task
    rolloutsToSchedule := env.groupSize
    targetRollouts := env.groupSize
    evalStep := if kind = .eval then picked.evalStep else none
    policyVersionAtStart := dispatcher.policy.version }

/-- The environments of a kind. -/
def envs (dispatcher : RolloutDispatcher Trace TaskData Client) :
    RolloutKind → Option (String → Env)
  | .train => some (fun envName => (dispatcher.config.trainEnvs envName).toEnv)
  | .eval => dispatcher.config.evalEnvs

/-- Register a task that was started with its permits. -/
def register (dispatcher : RolloutDispatcher Trace TaskData Client) (groupId : Nat)
    (state : GroupState TaskData Client) (client : Client) (permits : Nat)
    (call : Call TaskData Client) : RolloutDispatcher Trace TaskData Client :=
  { dispatcher with
    calls := dispatcher.calls ++ [call]
    inflight :=
      dispatcher.inflight.set dispatcher.calls.length
        { kind := state.kind
          envName := state.envName
          groupId := groupId
          policyVersion := state.policyVersionAtStart
          rolloutCount := permits
          clientConfig := some client
          evalStep := state.evalStep } }

/-- The call of one task, and the permits it reserves. -/
def taskCall (env : Env) (state : GroupState TaskData Client) (client : Client)
    (modelName : String) (liveSourced : Bool) : Nat × Call TaskData Client :=
  let cacheSalt := if liveSourced then some (toString state.policyVersionAtStart) else none
  if env.requiresGroupScoring then
    (state.rolloutsToSchedule,
      .runGroup client state.taskIdx modelName state.rolloutsToSchedule cacheSalt)
  else (1, .runRollout client state.taskIdx state.taskData modelName cacheSalt)

/-- Take rollouts off a group and acquire their permits. Only a rate limiter
suspends, once for each permit. -/
def dispatch (dispatcher : RolloutDispatcher Trace TaskData Client) (groupId : Nat)
    (state : GroupState TaskData Client) (client : Client) (modelName : String)
    (liveSourced : Bool) :
    RolloutDispatcher Trace TaskData Client × Scheduler TaskData Client :=
  match dispatcher.envs state.kind with
  | none => (dispatcher, .idle)
  | some envs =>
    let (permits, call) := taskCall (envs state.envName) state client modelName liveSourced
    let reserved := { state with rolloutsToSchedule := state.rolloutsToSchedule - permits }
    let taken := { dispatcher with opened := dispatcher.opened.set groupId reserved }
    if dispatcher.config.rateLimited ∧ permits ≠ 0 then
      (taken, .acquiring groupId client permits permits call)
    else
      ({ taken with inflightPermits := taken.inflightPermits + permits }.register groupId reserved
        client permits call, .idle)

/-- Dispatch one task of a group. Without a pinned client one is selected first. -/
def scheduleGroupRollout (dispatcher : RolloutDispatcher Trace TaskData Client) (groupId : Nat)
    (state : GroupState TaskData Client) :
    RolloutDispatcher Trace TaskData Client × Scheduler TaskData Client :=
  let (modelName, liveSourced) :=
    match state.kind with
    | .eval => (dispatcher.policy.modelName, true)
    | .train =>
      let sampler := dispatcher.config.trainEnvs state.envName
      if sampler.samplesFromLivePolicy then (dispatcher.policy.modelName, true)
      else (sampler.poolModelName, false)
  match state.pinnedClient with
  | none => (dispatcher, .selecting groupId modelName liveSourced)
  | some client => dispatcher.dispatch groupId state client modelName liveSourced

/-- Continue with the selected client, unless the group was dropped meanwhile. -/
def clientSelected (dispatcher : RolloutDispatcher Trace TaskData Client) (groupId : Nat)
    (modelName : String) (liveSourced : Bool) (client : Client) :
    RolloutDispatcher Trace TaskData Client × Scheduler TaskData Client :=
  match dispatcher.opened[groupId]? with
  | none => (dispatcher, .idle)
  | some state =>
    if groupId ∈ dispatcher.groups then
      let pinned := { state with pinnedClient := some client }
      { dispatcher with opened := dispatcher.opened.set groupId pinned }.dispatch groupId pinned
        client modelName liveSourced
    else (dispatcher, .idle)

/-- One permit was rate-limited and reserved. The last one starts the task. -/
def permitAcquired (dispatcher : RolloutDispatcher Trace TaskData Client) (groupId : Nat)
    (client : Client) (permits left : Nat) (call : Call TaskData Client) :
    RolloutDispatcher Trace TaskData Client × Scheduler TaskData Client :=
  let reserved := { dispatcher with inflightPermits := dispatcher.inflightPermits + 1 }
  if left ≤ 1 then
    match dispatcher.opened[groupId]? with
    | none => (reserved, .idle)
    | some state => (reserved.register groupId state client permits call, .idle)
  else (reserved, .acquiring groupId client permits (left - 1) call)

/-- A live group of the kind with rollouts to schedule that fits the permits. -/
def continuable (dispatcher : RolloutDispatcher Trace TaskData Client) (kind : RolloutKind)
    (envs : String → Env) (groupId : Nat) : Bool :=
  match dispatcher.opened[groupId]? with
  | none => false
  | some state =>
    let cost := if (envs state.envName).requiresGroupScoring then state.rolloutsToSchedule else 1
    decide (state.kind = kind ∧ 0 < state.rolloutsToSchedule ∧
      (cost : Int) ≤ dispatcher.availablePermits)

/-- Continue a group, or open the next example of the source. -/
def trySchedule (dispatcher : RolloutDispatcher Trace TaskData Client) (kind : RolloutKind)
    (nextExample : Option (Example TaskData)) :
    RolloutDispatcher Trace TaskData Client × Scheduler TaskData Client :=
  if kind = .train ∧ dispatcher.trainSchedulingDisabled then (dispatcher, .idle)
  else
    match dispatcher.envs kind with
    | none => (dispatcher, .idle)
    | some envs =>
      match dispatcher.groups.find? (dispatcher.continuable kind envs) with
      | some groupId =>
        match dispatcher.opened[groupId]? with
        | none => (dispatcher, .idle)
        | some state => dispatcher.scheduleGroupRollout groupId state
      | none =>
        match nextExample with
        | none => (dispatcher, .idle)
        | some picked =>
          let fresh := dispatcher.nextFreshGroup kind (envs picked.envName) picked
          { dispatcher with
            opened := dispatcher.opened ++ [fresh]
            groups := dispatcher.groups ++ [dispatcher.opened.length] }.scheduleGroupRollout
              dispatcher.opened.length fresh

end RolloutDispatcher

end PrimeRl.Orchestrator.Dispatcher
