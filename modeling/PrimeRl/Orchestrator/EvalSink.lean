import PrimeRl.Orchestrator.EvalSource
import PrimeRl.Support.Gather

/-!
# The sink of evaluation rollouts

Rollouts gather in their group, complete groups gather in the batch of their
environment and step, and a batch leaves with its last group. Reading a batch
that does not exist stores an empty one.
-/

namespace PrimeRl.Orchestrator.Eval

variable {Task : Type}

/-- A rollout with its number within its group, which the sink does not read. -/
structure Rollout where
  envName : String
  evalStep : Int
  groupId : Nat
  number : Nat
deriving DecidableEq, Repr

def Rollout.key (rollout : Rollout) : EpochKey := (rollout.envName, rollout.evalStep)

structure EvalBatch where
  envName : String
  step : Int
  rollouts : List Rollout
deriving DecidableEq, Repr

def EvalBatch.key (batch : EvalBatch) : EpochKey := (batch.envName, batch.step)

structure EvalSink where
  pendingGroups : OrderedDict Nat (List Rollout)
  pendingBatches : OrderedDict EpochKey (List Rollout)

def EvalSink.init : EvalSink where
  pendingGroups := .empty
  pendingBatches := .empty

def groupSizeFor (envs : EvalEnvs Task) (envName : String) : Except String Nat :=
  match envs.get? envName with
  | none => .error "KeyError"
  | some env => .ok env.groupSize

def batchSizeFor (envs : EvalEnvs Task) (envName : String) : Except String Nat :=
  match envs.get? envName with
  | none => .error "KeyError"
  | some env => .ok (env.examples.length * env.groupSize)

/-- The rollouts gathered under a key, none when there is no entry. -/
def bucket {Key : Type} [DecidableEq Key] (pending : OrderedDict Key (List Rollout)) (key : Key) :
    List Rollout :=
  (pending.get? key).getD []

/-- Move a group into the batch of its environment and step. -/
def EvalSink.processGroup (sink : EvalSink) (groupId : Nat) : EvalSink :=
  match bucket sink.pendingGroups groupId with
  | [] => { sink with pendingGroups := sink.pendingGroups.erase groupId }
  | first :: rest =>
      { pendingGroups := sink.pendingGroups.erase groupId
        pendingBatches := sink.pendingBatches.set first.key
          (bucket sink.pendingBatches first.key ++ first :: rest) }

def EvalSink.processBatch (sink : EvalSink) (key : EpochKey) : EvalBatch × EvalSink :=
  ({ envName := key.1, step := key.2, rollouts := bucket sink.pendingBatches key },
    { sink with pendingBatches := sink.pendingBatches.erase key })

def EvalSink.add (envs : EvalEnvs Task) (sink : EvalSink) (rollout : Rollout) :
    Except String (Option EvalBatch × EvalSink) := do
  let group := bucket sink.pendingGroups rollout.groupId ++ [rollout]
  let gathered := { sink with pendingGroups := sink.pendingGroups.set rollout.groupId group }
  let groupSize ← groupSizeFor envs rollout.envName
  let grouped := if groupSize ≤ group.length then gathered.processGroup rollout.groupId else gathered
  let batch := bucket grouped.pendingBatches rollout.key
  let looked := { grouped with pendingBatches := grouped.pendingBatches.set rollout.key batch }
  let batchSize ← batchSizeFor envs rollout.envName
  if batchSize ≤ batch.length then
    let (finished, next) := looked.processBatch rollout.key
    return (some finished, next)
  else return (none, looked)

section Buckets
variable {Key : Type} [DecidableEq Key] (pending : OrderedDict Key (List Rollout)) (key other : Key)

theorem bucket_set (rollouts : List Rollout) : bucket (pending.set key rollouts) other =
    if other = key then rollouts else bucket pending other := by
  rw [bucket, OrderedDict.get?_set]
  split
  · rfl
  · rfl

theorem bucket_erase : bucket (pending.erase key) other =
    if other = key then [] else bucket pending other := by
  rw [bucket, OrderedDict.get?_erase]
  split
  · rfl
  · rfl

end Buckets

/-! ## One arrival -/

section Add
variable {envs : EvalEnvs Task} {sink : EvalSink} {rollout : Rollout} {env : EvalEnv Task}

/-- The sink after an arrival that leaves its group incomplete. -/
def EvalSink.wait (sink : EvalSink) (rollout : Rollout) : EvalSink where
  pendingGroups := sink.pendingGroups.set rollout.groupId
    (bucket sink.pendingGroups rollout.groupId ++ [rollout])
  pendingBatches := sink.pendingBatches.set rollout.key (bucket sink.pendingBatches rollout.key)

theorem add_wait (found : envs.get? rollout.envName = some env)
    (incomplete : (bucket sink.pendingGroups rollout.groupId ++ [rollout]).length < env.groupSize)
    (few : (bucket sink.pendingBatches rollout.key).length < env.examples.length * env.groupSize) :
    sink.add envs rollout = .ok (none, sink.wait rollout) := by
  have groupSize : groupSizeFor envs rollout.envName = .ok env.groupSize := by
    rw [groupSizeFor, found]
  have batchSize : batchSizeFor envs rollout.envName = .ok (env.examples.length * env.groupSize) := by
    rw [batchSizeFor, found]
  simp only [EvalSink.add, groupSize, batchSize, bind, Except.bind, if_neg (Nat.not_le.mpr incomplete),
    if_neg (Nat.not_le.mpr few)]
  rfl

/-- The sink after an arrival that completes its group. -/
def EvalSink.group (sink : EvalSink) (rollout : Rollout) : EvalSink where
  pendingGroups := (sink.pendingGroups.set rollout.groupId
    (bucket sink.pendingGroups rollout.groupId ++ [rollout])).erase rollout.groupId
  pendingBatches := sink.pendingBatches.set rollout.key
    (bucket sink.pendingBatches rollout.key ++ (bucket sink.pendingGroups rollout.groupId ++ [rollout]))

/-- A complete group joins the batch of its environment and step. -/
theorem process_group_joins
    (alike : ∀ member ∈ bucket sink.pendingGroups rollout.groupId, member.key = rollout.key) :
    EvalSink.processGroup ⟨sink.pendingGroups.set rollout.groupId
        (bucket sink.pendingGroups rollout.groupId ++ [rollout]), sink.pendingBatches⟩ rollout.groupId =
      sink.group rollout := by
  rw [EvalSink.processGroup, bucket_set, if_pos rfl]
  cases members : bucket sink.pendingGroups rollout.groupId with
  | nil => rw [EvalSink.group, members]; rfl
  | cons first rest =>
    have same : first.key = rollout.key := alike first (members ▸ List.mem_cons_self)
    rw [EvalSink.group, members]
    change EvalSink.mk _ (sink.pendingBatches.set first.key
      (bucket sink.pendingBatches first.key ++ (first :: rest ++ [rollout]))) = _
    rw [same]

theorem add_group (found : envs.get? rollout.envName = some env)
    (alike : ∀ member ∈ bucket sink.pendingGroups rollout.groupId, member.key = rollout.key)
    (complete : env.groupSize ≤ (bucket sink.pendingGroups rollout.groupId ++ [rollout]).length) :
    ∃ result, sink.add envs rollout = .ok result ∧
      result.2.pendingGroups = (sink.group rollout).pendingGroups ∧
      if (bucket (sink.group rollout).pendingBatches rollout.key).length <
          env.examples.length * env.groupSize then
        result.1 = none ∧
          ∀ key, result.2.pendingBatches.get? key = (sink.group rollout).pendingBatches.get? key
      else
        result.1 = some ⟨rollout.envName, rollout.evalStep,
          bucket (sink.group rollout).pendingBatches rollout.key⟩ ∧
        ∀ key, result.2.pendingBatches.get? key =
          if key = rollout.key then none else (sink.group rollout).pendingBatches.get? key := by
  have groupSize : groupSizeFor envs rollout.envName = .ok env.groupSize := by
    rw [groupSizeFor, found]
  have batchSize : batchSizeFor envs rollout.envName = .ok (env.examples.length * env.groupSize) := by
    rw [batchSizeFor, found]
  have stored : (sink.group rollout).pendingBatches.get? rollout.key =
      some (bucket (sink.group rollout).pendingBatches rollout.key) := by
    rw [bucket, EvalSink.group, OrderedDict.get?_set, if_pos rfl]
    rfl
  simp only [EvalSink.add, groupSize, batchSize, bind, Except.bind, if_pos complete,
    process_group_joins alike]
  by_cases few : (bucket (sink.group rollout).pendingBatches rollout.key).length <
      env.examples.length * env.groupSize
  · simp only [if_neg (Nat.not_le.mpr few), if_pos few]
    refine ⟨_, rfl, rfl, rfl, ?_⟩
    intro key
    rw [OrderedDict.get?_set]
    split
    · rename_i same
      rw [same, stored]
    · rfl
  · simp only [if_pos (Nat.not_lt.mp few), if_neg few]
    refine ⟨_, rfl, rfl, ?_, ?_⟩
    · change some (EvalBatch.mk _ _ (bucket (OrderedDict.set _ _ _) rollout.key)) = _
      rw [bucket_set, if_pos rfl]
      rfl
    · intro key
      change (OrderedDict.erase (OrderedDict.set _ _ _) _).get? key = _
      rw [OrderedDict.get?_erase, OrderedDict.get?_set]
      split
      · rfl
      · rfl

end Add

end PrimeRl.Orchestrator.Eval
