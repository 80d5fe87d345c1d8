import PrimeRl.Support.OrderedDict
import PrimeRl.Trainer.Packer

/-!
# Receivers of training batches

Each returns at most one batch for every used run that is not waiting for an
update, and marks it with the run's index. The queueing one buffers batches under
run identifiers. The file one remembers, under run indices, which step to read
next.
-/

namespace PrimeRl.Transport.Receivers

open PrimeRl.Trainer PrimeRl.Trainer.Runs PrimeRl.Trainer.Packer

variable {Scalar : Type}

/-- A batch with the number of the producer that sent it, which no receiver reads. -/
structure Sent (Scalar : Type) extends TrainingBatch Scalar where
  sender : Nat

def Sent.mark (batch : Sent Scalar) (idx : Nat) : Sent Scalar := { batch with runIdx := some idx }

/-- A run waits for its update. -/
def isReady (manager : MultiRunManager) (idx : Nat) : Bool := manager.readyToUpdate.getD idx false

/-! ## Over a socket -/

/-- Batches of one run identifier by step. -/
abbrev Bucket (Scalar : Type) := OrderedDict Int (Sent Scalar)

abbrev Pending (Scalar : Type) := OrderedDict String (Bucket Scalar)

/-- Buffer one message. No step may be buffered twice. -/
def drainMessage (pending : Pending Scalar) (message : String × Sent Scalar) :
    Except String (Pending Scalar) :=
  let perIdBatches := (pending.get? message.1).getD .empty
  if message.2.step ∈ perIdBatches.keys then
    .error s!"Step {message.2.step} already in pending for {message.1}, this should not happen"
  else .ok (pending.set message.1 (perIdBatches.set message.2.step message.2))

/-- Buffer everything that has arrived. -/
def drainIntoPending (pending : Pending Scalar) (available : List (String × Sent Scalar)) :
    Except String (Pending Scalar) :=
  available.foldlM drainMessage pending

/-- Pop the batch of the smallest step. -/
def popOldest (perIdBatches : Bucket Scalar) : Option (Sent Scalar × Bucket Scalar) :=
  perIdBatches.keys.min?.bind (fun oldestStep =>
    (perIdBatches.get? oldestStep).map (fun batch => (batch, perIdBatches.erase oldestStep)))

/-- The oldest batch of one used run. An empty bucket is forgotten. -/
def receiveRun (manager : MultiRunManager) (received : Pending Scalar × List (Sent Scalar))
    (idx : Nat) : Except String (Pending Scalar × List (Sent Scalar)) := do
  let runId ← subscript manager.idx2Id idx
  if isReady manager idx then .ok received
  else
    match (received.1.get? runId).bind popOldest with
    | none => .ok received
    | some (batch, perIdBatches) =>
        .ok
          (if perIdBatches.entries.isEmpty then received.1.erase runId
            else received.1.set runId perIdBatches,
            received.2 ++ [batch.mark idx])

/-- Buffer what has arrived, then one batch for each run that can take one. -/
def zmqReceive (manager : MultiRunManager) (pending : Pending Scalar)
    (available : List (String × Sent Scalar)) : Except String (List (Sent Scalar) × Pending Scalar) := do
  let drained ← drainIntoPending pending available
  let received ← (usedIdxs manager).foldlM (receiveRun manager) (drained, [])
  return (received.2, received.1)

/-! ## Over files -/

/-- The batch files of every run directory. -/
abbrev Files (Scalar : Type) := String → Int → Option (Sent Scalar)

abbrev ReceivedSteps := Finmap (fun _ : Nat => Int)

/-- The next step to read, at first the run's own progress. -/
def getReceivedStep (manager : MultiRunManager) (receivedSteps : ReceivedSteps) (idx : Nat) :
    Except String (ReceivedSteps × Int) :=
  match receivedSteps.lookup idx with
  | some step => .ok (receivedSteps, step)
  | none => do
      let progress ← subscript manager.progress idx
      return (receivedSteps.insert idx progress.step, progress.step)

/-- Listing the paths looks up the next step of every used run. -/
def currentPaths (manager : MultiRunManager) (receivedSteps : ReceivedSteps) :
    List Nat → Except String ReceivedSteps
  | [] => .ok receivedSteps
  | idx :: rest => do
      let (looked, _) ← getReceivedStep manager receivedSteps idx
      currentPaths manager looked rest

/-- The file of the next step of one used run. -/
def readRun (manager : MultiRunManager) (files : Files Scalar)
    (received : ReceivedSteps × List (Sent Scalar)) (idx : Nat) :
    Except String (ReceivedSteps × List (Sent Scalar)) :=
  if isReady manager idx then .ok received
  else do
    let runId ← subscript manager.idx2Id idx
    let (receivedSteps, step) ← getReceivedStep manager received.1 idx
    match files runId step with
    | none => .ok (receivedSteps, received.2)
    | some batch => .ok (receivedSteps.insert idx (step + 1), received.2 ++ [batch.mark idx])

def fileReceive (manager : MultiRunManager) (receivedSteps : ReceivedSteps) (files : Files Scalar) :
    Except String (List (Sent Scalar) × ReceivedSteps) := do
  let looked ← currentPaths manager receivedSteps (usedIdxs manager)
  let received ← (usedIdxs manager).foldlM (readRun manager files) (looked, [])
  return (received.2, received.1)

/-- Forget the next step of a run index. -/
def fileResetRun (receivedSteps : ReceivedSteps) (idx : Nat) : ReceivedSteps := receivedSteps.erase idx

end PrimeRl.Transport.Receivers
