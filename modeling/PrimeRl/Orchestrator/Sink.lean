import PrimeRl.Orchestrator.TrainSink
import PrimeRl.Support.OrderedDict

/-!
# The training sink

Rollouts arrive one by one. Each is materialized on arrival, its group is
finalized when it is complete, survivors of the pre-filters queue for the next
batch, and a batch takes a cohort off the queue. A rollout is one object that
several collections hold, so collections list rollouts by the place of their
arrival and what a rollout carries is kept beside them.
-/

namespace PrimeRl.Orchestrator.Sink

open PrimeRl.Orchestrator.MessageGraph PrimeRl.Orchestrator.Trajectories
open PrimeRl.Orchestrator.ValueContext PrimeRl.Orchestrator.TrainSink PrimeRl.Transport
open PrimeRl.Value PrimeRl.Value.Trajectory

variable {Scalar : Type}

/-- A rollout with the metadata of its orchestration. -/
structure Rollout (Scalar : Type) extends TrainSink.Rollout Scalar where
  trace : Trace Scalar
  envName : String
  groupId : Nat
  taskIdx : Nat
  valueFunctionPrompt : Option String
  policyVersion : Int
  reward : Scalar
  hasError : Bool
  trainable : Bool
  numTotalTokens : Nat
  trainingLayout : Option TrainingLayout
  valuePrefix : Option TokenPrefix
  advantages : Option (List Scalar)
  isFiltered : Bool
  filterResults : List (String × Bool)

/-- What an algorithm writes on a rollout: streams of its samples, by their
position, and credit. -/
structure Scores (Scalar : Type) where
  stamp : Nat → TrainingSample Scalar → TrainingSample Scalar
  advantages : Option (List Scalar)
  valueTrajectory : Option (ValueTrajectory Scalar)
  valueReturns : Option (List (List Scalar))
  valueVersion : Option Int

def Rollout.score (rollout : Rollout Scalar) (scores : Scores Scalar) : Rollout Scalar :=
  { rollout with
    samples := rollout.samples.mapIdx scores.stamp
    advantages := scores.advantages
    valueTrajectory := scores.valueTrajectory
    valueReturns := scores.valueReturns
    valueVersion := scores.valueVersion }

/-- An environment with its sampler and its algorithm. -/
structure TrainEnv (Scalar : Type) where
  groupSize : Nat
  requiresGroupScoring : Bool
  samplesFromLivePolicy : Bool
  temperature : Scalar
  hasValueEvaluator : Bool
  minimumGroupSize : Nat
  finalizeRollout : Rollout Scalar → Except String (Scores Scalar)
  finalizeGroup : List (Rollout Scalar) → Except String (Nat → Scores Scalar)

structure RolloutFilter (Scalar : Type) where
  name : String
  enforce : Bool
  check : Rollout Scalar → Bool

inductive PrivilegedContext where
  | task
  | groupLeaveOneOut
deriving DecidableEq, Repr

/-- Exactly one of the two thresholds is set. -/
inductive Threshold where
  | batchSize (rollouts : Nat)
  | tokenBatchSize (tokens : Nat)
deriving DecidableEq, Repr

/-- What a sink is constructed with. `groupPrompts` gives the critic-only
contexts of a group. -/
structure Config (Scalar : Type) where
  trainEnvs : String → Option (TrainEnv Scalar)
  threshold : Threshold
  emptyBatchRolloutLimit : Nat
  preFilters : List (RolloutFilter Scalar)
  postFilters : List (RolloutFilter Scalar)
  plane : ValuePlane
  hasPublisher : Bool
  privilegedContext : PrivilegedContext
  groupPrompts : List (Rollout Scalar) → Except String (List String)

structure TrainSink (Scalar : Type) where
  rollouts : List (Rollout Scalar)
  pendingRollouts : List Nat
  pendingGroups : OrderedDict Nat (List Nat)
  pendingBatch : List Nat
  pendingTokens : Int
  scoringTasks : List Nat
  lastEmptyBatchProgress : Int
  nextValueRolloutId : Int
  published : List (ValueTrainingRollout Scalar)
  preFilterSeen : Nat
  preFilterDropped : Nat
  preFilterDroppedByName : OrderedDict String Nat

def TrainSink.init : TrainSink Scalar where
  rollouts := []
  pendingRollouts := []
  pendingGroups := .empty
  pendingBatch := []
  pendingTokens := 0
  scoringTasks := []
  lastEmptyBatchProgress := 0
  nextValueRolloutId := 0
  published := []
  preFilterSeen := 0
  preFilterDropped := 0
  preFilterDroppedByName := .empty

structure TrainBatch (Scalar : Type) where
  rollouts : List Nat
  samples : List (TrainingSample Scalar)
  shippedValueVersionMin : Option Int
  emptyBatchMadeProgress : Bool := false

/-- A rollout with its place. -/
abbrev Placed (Scalar : Type) := Nat × Rollout Scalar

/-- The rollouts at the listed places, as they are now. -/
def TrainSink.read (sink : TrainSink Scalar) (places : List Nat) : List (Placed Scalar) :=
  places.filterMap (fun place => sink.rollouts[place]?.map (fun rollout => (place, rollout)))

/-- What was changed on these rollouts is seen wherever they are held. -/
def TrainSink.write (sink : TrainSink Scalar) (placed : List (Placed Scalar)) : TrainSink Scalar :=
  { sink with rollouts := placed.foldl (fun rollouts entry => rollouts.set entry.1 entry.2) sink.rollouts }

/-! ## Filters -/

/-- The first filter that detects the rollout decides, and enforces or not. -/
def detect (rollout : Rollout Scalar) : List (RolloutFilter Scalar) → Rollout Scalar
  | [] => rollout
  | filter :: rest =>
      if filter.check rollout then
        { rollout with
          filterResults := rollout.filterResults.map
            (fun entry => if entry.1 = filter.name then (entry.1, true) else entry)
          isFiltered := filter.enforce }
      else detect rollout rest

/-- Annotations before any filter is asked. -/
def clearAnnotations (filters : List (RolloutFilter Scalar)) (rollout : Rollout Scalar) :
    Rollout Scalar :=
  { rollout with
    filterResults := (filters.map RolloutFilter.name).eraseDups.map (fun name => (name, false))
    isFiltered := false }

def applyFilters (filters : List (RolloutFilter Scalar)) (rollouts : List (Placed Scalar)) :
    List (Placed Scalar) :=
  rollouts.map (fun entry => (entry.1, detect (clearAnnotations filters entry.2) filters))

/-- Without filters the annotations are left as they are. -/
def runFilters (filters : List (RolloutFilter Scalar)) (rollouts : List (Placed Scalar)) :
    List (Placed Scalar) :=
  if filters.isEmpty then rollouts else applyFilters filters rollouts

section Sink
variable (config : Config Scalar)

def trainEnv (envName : String) : Except String (TrainEnv Scalar) :=
  match config.trainEnvs envName with
  | some env => .ok env
  | none => .error "KeyError"

def groupSizeFor (envName : String) : Except String Nat :=
  (trainEnv config envName).map TrainEnv.groupSize

/-! ## Arrival -/

/-- The samples of a rollout, built when it arrives, and whether its scoring
starts. Errored and untrainable rollouts are left alone. -/
def processRollout (rollout : Rollout Scalar) : Except String (Rollout Scalar × Bool) :=
  if rollout.hasError || !rollout.trainable then .ok (rollout, false)
  else do
    let env ← trainEnv config rollout.envName
    let valueEnabled := env.hasValueEvaluator
    let taskPrompt := if valueEnabled then rollout.valueFunctionPrompt else none
    if valueEnabled && decide (config.privilegedContext = .groupLeaveOneOut) && taskPrompt.isSome then
      .error s!"task value_function_prompt cannot be combined with value_function.privileged_context='group_leave_one_out' (env='{rollout.envName}', task={rollout.taskIdx})"
    else
      let materialization ← materializeTrainingData rollout.trace rollout.envName valueEnabled
        env.samplesFromLivePolicy
      let valuePrefix ← buildValuePrefix config.plane rollout.envName rollout.taskIdx
        materialization.samples (if config.privilegedContext = .task then taskPrompt else none)
        valueEnabled
      let valueTrajectory ←
        if valueEnabled then
          (snapshotValueTrajectory materialization.samples materialization.sampledMasks
            materialization.layout rollout.reward valuePrefix rollout.envName
            (toString rollout.groupId) rollout.policyVersion).map some
        else .ok rollout.valueTrajectory
      return ({ rollout with
        samples := materialization.samples
        trainingLayout := materialization.layout
        valuePrefix := valuePrefix
        valueTrajectory := valueTrajectory }, true)

/-! ## Groups -/

/-- The result of the scoring task of a member, when it has one. -/
def scoreMember (scoringTasks : List Nat) (entry : Placed Scalar) : Except String (Placed Scalar) :=
  if entry.1 ∈ scoringTasks then do
    let env ← trainEnv config entry.2.envName
    let scores ← env.finalizeRollout entry.2
    .ok (entry.1, entry.2.score scores)
  else .ok entry

/-- Wait for the scoring of a group. -/
def awaitScoring (scoringTasks : List Nat) : List (Placed Scalar) →
    Except String (List (Placed Scalar))
  | [] => .ok []
  | entry :: rest => do
      let scored ← scoreMember config scoringTasks entry
      let others ← awaitScoring scoringTasks rest
      return scored :: others

/-- A survivor has no error and some sample. -/
def survives (rollout : Rollout Scalar) : Bool :=
  !rollout.hasError && !rollout.samples.isEmpty

/-- A group-conditioned critic needs complete groups. -/
def groupValueContext (env : TrainEnv Scalar) : Bool :=
  decide (config.privilegedContext = .groupLeaveOneOut) && env.hasValueEvaluator

/-- The group is dropped as a whole: an unusable member of a group-scored one, no
survivor, or too few. -/
def dropsGroup (env : TrainEnv Scalar) (members survivors : Nat) : Bool :=
  (env.requiresGroupScoring && decide (survivors < members)) || decide (survivors = 0) ||
    (groupValueContext config env && decide (survivors ≠ env.groupSize)) ||
    decide (survivors < env.minimumGroupSize)

/-- The contexts that the group gives its members. -/
def buildGroupValuePrefixes (rollouts : List (Rollout Scalar)) :
    Except String (List TokenPrefix) := do
  let prompts ← config.groupPrompts rollouts
  if prompts.length ≠ rollouts.length then .error "zip() arguments have different lengths"
  else
    let prefixes ← (rollouts.zip prompts).mapM (fun entry =>
      buildValuePrefix config.plane entry.1.envName entry.1.taskIdx entry.1.samples (some entry.2) true)
    if prefixes.any Option.isNone then
      .error "group_leave_one_out prompt unexpectedly produced no value prefix"
    else .ok (prefixes.filterMap id)

def attachPrefix (rollout : Rollout Scalar) (valuePrefix : TokenPrefix) : Rollout Scalar :=
  { rollout with
    valuePrefix := some valuePrefix
    valueTrajectory := rollout.valueTrajectory.map
      (fun trajectory => { trajectory with inserted := some valuePrefix }) }

/-- Attach the contexts of a group-conditioned critic. -/
def attachGroupContext (env : TrainEnv Scalar) (survivors : List (Placed Scalar)) :
    Except String (List (Placed Scalar)) :=
  if groupValueContext config env then do
    let prefixes ← buildGroupValuePrefixes config (survivors.map Prod.snd)
    if survivors.any (fun entry => entry.2.valueTrajectory.isNone) then
      .error "value trajectory was not captured before group finalization"
    else if prefixes.length ≠ survivors.length then .error "zip() arguments have different lengths"
    else .ok (List.zipWith (fun entry valuePrefix => (entry.1, attachPrefix entry.2 valuePrefix))
      survivors prefixes)
  else .ok survivors

/-- The single sampling temperature of the environment, for every token. -/
def stampTemperature (temperature : Scalar) (rollout : Rollout Scalar) : Rollout Scalar :=
  { rollout with samples := rollout.samples.map (fun sample =>
      { sample with temperatures := List.replicate sample.tokenIds.length temperature }) }

/-- Count the filters that hit a dropped rollout. -/
def countHits (results : List (String × Bool)) (counts : OrderedDict String Nat) :
    OrderedDict String Nat :=
  results.foldl
    (fun counts entry =>
      if entry.2 then counts.set entry.1 ((counts.get? entry.1).getD 0 + 1) else counts)
    counts

/-- A filtered survivor is counted; another one is queued with clean annotations. -/
def queueSurvivor (sink : TrainSink Scalar) (entry : Placed Scalar) : TrainSink Scalar :=
  let seen := { sink with preFilterSeen := sink.preFilterSeen + 1 }
  if entry.2.isFiltered then
    { seen with
      preFilterDropped := seen.preFilterDropped + 1
      preFilterDroppedByName := countHits entry.2.filterResults seen.preFilterDroppedByName }
  else
    let queued := seen.write [(entry.1, { entry.2 with filterResults := [], isFiltered := false })]
    { queued with
      pendingBatch := queued.pendingBatch ++ [entry.1]
      pendingTokens :=
        match config.threshold with
        | .batchSize _ => queued.pendingTokens
        | .tokenBatchSize _ => queued.pendingTokens + entry.2.numTotalTokens }

/-- A finalized group, for the record: its members, and the survivors that were
scored, as the pre-filters judged them. -/
structure Finalized (Scalar : Type) where
  groupId : Nat
  members : List Nat
  judged : List (Placed Scalar)

/-- Publish the survivors for the critic; what is left of the ids counts on. -/
def publishSurvivors [Zero Scalar] (sink : TrainSink Scalar) (survivors : List (Placed Scalar)) :
    Except String (TrainSink Scalar) :=
  match publishValueRollouts config.hasPublisher config.plane.valueSeqLen sink.nextValueRolloutId
      (survivors.map (fun entry => entry.2.toRollout)) with
  | (_, _, some message) => .error message
  | (published, nextId, none) =>
      .ok { sink with nextValueRolloutId := nextId, published := sink.published ++ published }

/-- Write what an algorithm gives each survivor. -/
def scoreSurvivors (scores : Nat → Scores Scalar) (survivors : List (Placed Scalar)) :
    List (Placed Scalar) :=
  survivors.mapIdx (fun position entry => (entry.1, entry.2.score (scores position)))

/-- Score the survivors of a group that is not dropped, publish them for the
critic, judge and queue them. -/
def finalizeSurvivors [Zero Scalar] (sink : TrainSink Scalar) (env : TrainEnv Scalar)
    (survivors : List (Placed Scalar)) : Except String (TrainSink Scalar × List (Placed Scalar)) := do
  let conditioned ← attachGroupContext config env survivors
  let scores ← env.finalizeGroup (conditioned.map Prod.snd)
  let scored := scoreSurvivors scores conditioned
  let sink ← publishSurvivors config sink scored
  let stamped := scored.map (fun entry => (entry.1, stampTemperature env.temperature entry.2))
  let judged := runFilters config.preFilters stamped
  return (judged.foldl (queueSurvivor config) (sink.write judged), judged)

def processGroup [Zero Scalar] (sink : TrainSink Scalar) (groupId : Nat) :
    Except String (TrainSink Scalar × Finalized Scalar) :=
  let group := (sink.pendingGroups.get? groupId).getD []
  let popped := { sink with pendingGroups := sink.pendingGroups.erase groupId }
  match sink.read group with
  | [] => .ok (popped, ⟨groupId, group, []⟩)
  | first :: rest => do
      let members ← awaitScoring config sink.scoringTasks (first :: rest)
      let awaited := { popped.write members with
        scoringTasks := sink.scoringTasks.filter (fun place => decide (place ∉ group)) }
      let env ← trainEnv config first.2.envName
      let survivors := members.filter (fun entry => survives entry.2)
      if groupValueContext config env && !(env.requiresGroupScoring && decide (survivors.length < members.length)) &&
          decide (survivors.length ≠ 0) && decide (members.length ≠ env.groupSize) then
        .error s!"group_leave_one_out value context reached an invalid group barrier (env='{first.2.envName}', task={first.2.taskIdx}, rollouts={members.length}, expected={env.groupSize})"
      else if dropsGroup config env members.length survivors.length then
        return (awaited, ⟨groupId, group, []⟩)
      else
        let (queued, judged) ← finalizeSurvivors config awaited env survivors
        return (queued, ⟨groupId, group, judged⟩)

/-! ## Batches -/

/-- Finalized arrivals that no future batch can take, if there are enough. -/
def popSettledRollouts (minimum : Nat) (sink : TrainSink Scalar) : TrainSink Scalar × List Nat :=
  let retained := sink.pendingBatch ++ sink.pendingGroups.values.flatten
  let settled := sink.pendingRollouts.filter (fun place => decide (place ∉ retained))
  if settled.length < minimum then (sink, [])
  else
    ({ sink with
      pendingRollouts := sink.pendingRollouts.filter (fun place => decide (place ∈ retained)) },
      settled)

def queuedBatchProgress (sink : TrainSink Scalar) : Int :=
  match config.threshold with
  | .batchSize _ => sink.pendingBatch.length
  | .tokenBatchSize _ => sink.pendingTokens

/-- Walk the queue until enough tokens are taken: the cut and the tokens. -/
def tokenCut (tokenBatchSize : Nat) : Nat → Nat → List (Placed Scalar) → Nat × Nat
  | cut, running, [] => (cut, running)
  | cut, running, entry :: rest =>
      if tokenBatchSize ≤ running + entry.2.numTotalTokens then
        (cut + 1, running + entry.2.numTotalTokens)
      else tokenCut tokenBatchSize (cut + 1) (running + entry.2.numTotalTokens) rest

/-- Pop a cohort off the queue. -/
def popCohort (sink : TrainSink Scalar) : TrainSink Scalar × List Nat :=
  match config.threshold with
  | .batchSize batchSize =>
      ({ sink with pendingBatch := sink.pendingBatch.drop batchSize }, sink.pendingBatch.take batchSize)
  | .tokenBatchSize tokenBatchSize =>
      let (cut, running) := tokenCut tokenBatchSize 0 0 (sink.read sink.pendingBatch)
      ({ sink with
        pendingBatch := sink.pendingBatch.drop cut
        pendingTokens := sink.pendingTokens - running }, sink.pendingBatch.take cut)

/-- The batch of the next cohort, which is returned for the record. -/
def processBatch (sink : TrainSink Scalar) : TrainSink Scalar × TrainBatch Scalar × List Nat :=
  let (popped, cohort) := popCohort config sink
  let judged := runFilters config.postFilters (popped.read cohort)
  let written := popped.write judged
  let shippedRollouts := judged.filter (fun entry => !entry.2.isFiltered)
  let samples := shippedRollouts.flatMap (fun entry => entry.2.samples)
  let valueVersions := shippedRollouts.filterMap (fun entry => entry.2.valueVersion)
  let (consumed, rollouts) :=
    if samples.isEmpty then popSettledRollouts 1 written
    else ({ written with pendingRollouts := [] }, written.pendingRollouts)
  ({ consumed with lastEmptyBatchProgress := queuedBatchProgress config consumed },
    { rollouts := rollouts, samples := samples, shippedValueVersionMin := valueVersions.min? }, cohort)

/-! ## One arrival -/

/-- What a call does: the sink after it and the batch it returns, and for the
record the group it finalized and the cohort it popped. -/
structure Added (Scalar : Type) where
  sink : TrainSink Scalar
  batch : Option (TrainBatch Scalar)
  finalized : Option (Finalized Scalar)
  cohort : Option (List Nat)

def batchReady (sink : TrainSink Scalar) : Bool :=
  match config.threshold with
  | .batchSize batchSize => decide (batchSize ≤ sink.pendingBatch.length)
  | .tokenBatchSize tokenBatchSize => decide ((tokenBatchSize : Int) ≤ sink.pendingTokens)

/-- Record an arrival in the window and in its group. -/
def recordArrival (sink : TrainSink Scalar) (rollout : Rollout Scalar) (scoring : Bool) :
    TrainSink Scalar :=
  let place := sink.rollouts.length
  { sink with
    rollouts := sink.rollouts ++ [rollout]
    pendingRollouts := sink.pendingRollouts ++ [place]
    pendingGroups := sink.pendingGroups.set rollout.groupId
      ((sink.pendingGroups.get? rollout.groupId).getD [] ++ [place])
    scoringTasks := if scoring then sink.scoringTasks ++ [place] else sink.scoringTasks }

/-- The batch of settled drops that a finalized group leaves, if there are enough. -/
def flushSettled (sink : TrainSink Scalar) : TrainSink Scalar × Option (TrainBatch Scalar) :=
  let (popped, settled) := popSettledRollouts config.emptyBatchRolloutLimit sink
  if settled.isEmpty then (popped, none)
  else
    let progress := queuedBatchProgress config popped
    ({ popped with lastEmptyBatchProgress := progress },
      some
        { rollouts := settled
          samples := []
          shippedValueVersionMin := none
          emptyBatchMadeProgress := decide (popped.lastEmptyBatchProgress < progress) })

/-- Finalize the group of the last arrival when it is complete. -/
def completeGroup [Zero Scalar] (sink : TrainSink Scalar) (rollout : Rollout Scalar) :
    Except String (TrainSink Scalar × Option (Finalized Scalar)) := do
  let groupSize ← groupSizeFor config rollout.envName
  if groupSize ≤ ((sink.pendingGroups.get? rollout.groupId).getD []).length then
    let (processed, finalized) ← processGroup config sink rollout.groupId
    return (processed, some finalized)
  else return (sink, none)

/-- Process one arrival. -/
def TrainSink.add [Zero Scalar] (sink : TrainSink Scalar) (rollout : Rollout Scalar) :
    Except String (Added Scalar) := do
  let (processed, scoring) ← processRollout config rollout
  let (completed, finalized) ← completeGroup config (recordArrival sink processed scoring) rollout
  if batchReady config completed then
    let (next, batch, cohort) := processBatch config completed
    return ⟨next, some batch, finalized, some cohort⟩
  else if finalized.isSome then
    let (next, batch) := flushSettled config completed
    return ⟨next, batch, finalized, none⟩
  else return ⟨completed, none, finalized, none⟩

end Sink

end PrimeRl.Orchestrator.Sink
