import PrimeRl.Value.TrainLoop

/-!
# The master loop of a trainer that also serves

Each turn decides one control command, or none when it idles before the
heartbeat is due, broadcasts it and executes it. A batch is reserved as soon as a
cohort is full and is held while inference commands pass, until a train command
carries it. The other ranks only execute what the master broadcasts.
-/

namespace PrimeRl.Value

open Replay

universe u
variable {Link Scalar : Type u}

inductive Operation where
  | infer
  | train
deriving DecidableEq, Repr

def chooseNextOperation (hasInference hasTraining : Bool) (lastOperation : Option Operation) :
    Option Operation :=
  if hasInference && hasTraining then
    some (if lastOperation = some .infer then .train else .infer)
  else if hasInference then some .infer
  else if hasTraining then some .train
  else none

inductive ControlKind where
  | train
  | infer
  | idle
  | stop
deriving DecidableEq, Repr

/-- What the encoded payload of a command decodes to. -/
inductive ControlPayload (Scalar : Type u) where
  | batch (batch : ValueTrainingBatch Scalar)
  | request (request : ValueEvaluationRequest)
deriving DecidableEq, Repr

structure ControlCommand (Scalar : Type u) where
  commandId : Nat
  kind : ControlKind
  payload : Option (ControlPayload Scalar)
deriving DecidableEq, Repr

/-- The batch of a train command. -/
def ControlCommand.trained (command : ControlCommand Scalar) : Option (ValueTrainingBatch Scalar) :=
  match command.kind, command.payload with
  | .train, some (.batch batch) => some batch
  | _, _ => none

structure Colocated (Scalar : Type u) where
  runtime : ValueTrainerRuntime Scalar
  receiverOpen : Bool
  replay : Option (ValueReplayBuffer Scalar)
  serveOnly : Bool
  pendingBatch : Option (ValueTrainingBatch Scalar) := none
  lastOperation : Option Operation := none
  nextCommandId : Nat := 0
  status : LoopStatus := .running
  delivered : List (ValueTrainingRollout Scalar) := []
  sampled : List (ValueTrainingBatch Scalar) := []
  commands : List (ControlCommand Scalar) := []

namespace Colocated

/-- What the surroundings decide in one turn: the run file, what the receiver
finds at the reservation and at a later admission, the draws, the request queue,
the heartbeat and whether inference or the update raise. -/
structure Turn (Link Scalar : Type u) where
  runDone : Bool
  link : Link
  laterLink : Link
  generator : RandomSample Scalar
  hasQueued : Bool
  taken : Option ValueEvaluationRequest
  heartbeatDue : Bool
  inference : Except String Unit
  update : Except String Unit

/-- The state before the first turn. Receiver and replay exist only while there
are updates left to do. -/
def start (runtime : ValueTrainerRuntime Scalar) (replay : ValueReplayBuffer Scalar) :
    Colocated Scalar :=
  { runtime := runtime
    receiverOpen := !runtime.maxStepsReached
    replay := if runtime.maxStepsReached then none else some replay
    serveOnly := runtime.maxStepsReached }

def raise (loop : Colocated Scalar) (message : String) : Colocated Scalar :=
  { loop with status := .raised message }

/-- Drop receiver and replay once the last update is done. -/
def closeAtMaxSteps (loop : Colocated Scalar) : Except String (Colocated Scalar) :=
  if loop.runtime.maxStepsReached && !loop.serveOnly then
    if loop.receiverOpen then
      .ok { loop with receiverOpen := false, replay := none, serveOnly := true }
    else .error "AssertionError"
  else .ok loop

/-- Sample one batch and hold it. -/
def hold (loop : Colocated Scalar) (replay : ValueReplayBuffer Scalar)
    (generator : RandomSample Scalar) : Except String (Colocated Scalar) :=
  match replay.sample (generator.draw replay) with
  | .error message => .error message
  | .ok (batch, drained) =>
    .ok { loop with
      replay := some drained
      pendingBatch := some batch
      sampled := loop.sampled ++ [batch] }

/-- Admit one slice into the replay. -/
def admitSlice (receive : ReceiveAvailable Link Scalar) (link : Link) (loop : Colocated Scalar)
    (replay : ValueReplayBuffer Scalar) :
    Except String (Colocated Scalar × ValueReplayBuffer Scalar) :=
  match admitAvailableRollouts (recorded receive) ⟨link, loop.delivered⟩ replay false with
  | .error message => .error message
  | .ok (_, tape, admitted) =>
    .ok ({ loop with replay := some admitted, delivered := tape.delivered }, admitted)

/-- Reserve a batch as soon as the buffer is ready, so that inference cannot
displace a cohort of single updates. -/
def reserve (receive : ReceiveAvailable Link Scalar) (turn : Turn Link Scalar)
    (loop : Colocated Scalar) : Except String (Colocated Scalar) :=
  if !loop.serveOnly && loop.pendingBatch.isNone then
    match loop.receiverOpen, loop.replay with
    | true, some replay =>
      if replay.canSample then .ok loop
      else
        match loop.admitSlice receive turn.link replay with
        | .error message => .error message
        | .ok (filled, admitted) =>
          if admitted.canSample then filled.hold admitted turn.generator else .ok filled
    | _, _ => .error "AssertionError"
  else .ok loop

/-- Sample for a train command that finds no reserved batch. -/
def sampleNow (receive : ReceiveAvailable Link Scalar) (turn : Turn Link Scalar)
    (loop : Colocated Scalar) : Except String (Colocated Scalar) :=
  match loop.receiverOpen, loop.replay with
  | true, some replay =>
    if replay.canSample then
      match loop.admitSlice receive turn.laterLink replay with
      | .error message => .error message
      | .ok (filled, admitted) => filled.hold admitted turn.generator
    else .error "AssertionError"
  | _, _ => .error "AssertionError"

/-- Put the held batch into the command of this turn. -/
def sendPending (loop : Colocated Scalar) (batch : ValueTrainingBatch Scalar) :
    Colocated Scalar × Option (ControlKind × Option (ControlPayload Scalar)) :=
  ({ loop with pendingBatch := none }, some (.train, some (.batch batch)))

def hasTraining (loop : Colocated Scalar) : Bool :=
  loop.pendingBatch.isSome ||
    (!loop.serveOnly && loop.replay.any ValueReplayBuffer.canSample)

/-- The command of the chosen operation. Idling before the heartbeat is due
sends none. -/
def operate (receive : ReceiveAvailable Link Scalar) (turn : Turn Link Scalar)
    (loop : Colocated Scalar) :
    Except String (Colocated Scalar × Option (ControlKind × Option (ControlPayload Scalar))) :=
  match chooseNextOperation turn.hasQueued loop.hasTraining loop.lastOperation with
  | some .infer =>
    match turn.taken with
    | some request => .ok (loop, some (.infer, some (.request request)))
    | none => .ok (loop, some (.idle, none))
  | some .train =>
    match loop.pendingBatch with
    | some batch => .ok (loop.sendPending batch)
    | none =>
      match loop.sampleNow receive turn with
      | .error message => .error message
      | .ok held =>
        match held.pendingBatch with
        | some batch => .ok (held.sendPending batch)
        | none => .error "AssertionError"
  | none => .ok (loop, if turn.heartbeatDue then some (.idle, none) else none)

/-- The master's decision. A finished policy run first trains on a held batch. -/
def decide (receive : ReceiveAvailable Link Scalar) (turn : Turn Link Scalar)
    (loop : Colocated Scalar) :
    Except String (Colocated Scalar × Option (ControlKind × Option (ControlPayload Scalar))) :=
  if turn.runDone then
    match loop.pendingBatch with
    | none => .ok (loop, some (.stop, none))
    | some batch => .ok (loop.sendPending batch)
  else
    match loop.closeAtMaxSteps with
    | .error message => .error message
    | .ok opened =>
      match opened.reserve receive turn with
      | .error message => .error message
      | .ok reserved => reserved.operate receive turn

/-- Every rank receives the command the master sent. -/
def broadcastCommand (loop : Colocated Scalar) (command : ControlCommand Scalar) :
    Colocated Scalar :=
  { loop with commands := loop.commands ++ [command] }

/-- Prepare the batch of a train command and update on it when there is anything
to train on. -/
def train [Zero Scalar] (loop : Colocated Scalar) (turn : Turn Link Scalar)
    (batch : ValueTrainingBatch Scalar) : Colocated Scalar :=
  match loop.runtime.prepareBatch batch with
  | .error message => loop.raise message
  | .ok (_, prepared) =>
    if prepared.canStep then
      match prepared.step turn.update with
      | .error message => { loop with runtime := prepared }.raise message
      | .ok stepped => { loop with runtime := stepped, lastOperation := some .train }
    else { loop with runtime := prepared, lastOperation := some .train }

def execute [Zero Scalar] (loop : Colocated Scalar) (turn : Turn Link Scalar)
    (command : ControlCommand Scalar) : Colocated Scalar :=
  if command.commandId ≠ loop.nextCommandId then
    loop.raise s!"value trainer expected control command {loop.nextCommandId}, got {command.commandId}"
  else
    let counted := { loop with nextCommandId := loop.nextCommandId + 1 }
    match command.kind, command.payload with
    | .stop, _ => { counted with status := .finished }
    | .idle, _ => counted
    | .infer, some (.request _) =>
      match turn.inference with
      | .error message => counted.raise message
      | .ok _ => { counted with lastOperation := some .infer }
    | .infer, _ => counted.raise "inference command is missing its request"
    | .train, some (.batch batch) => counted.train turn batch
    | .train, _ => counted.raise "training command is missing its batch"

/-- One pass through the loop body. -/
def turn [Zero Scalar] (receive : ReceiveAvailable Link Scalar) (loop : Colocated Scalar)
    (given : Turn Link Scalar) : Colocated Scalar :=
  match loop.decide receive given with
  | .error message => loop.raise message
  | .ok (decided, none) => decided
  | .ok (decided, some (kind, payload)) =>
    let command : ControlCommand Scalar := ⟨decided.nextCommandId, kind, payload⟩
    (decided.broadcastCommand command).execute given command

/-- A loop that was left, by a stop command or by a raise, takes no further turn. -/
def step [Zero Scalar] (receive : ReceiveAvailable Link Scalar) (loop : Colocated Scalar)
    (given : Turn Link Scalar) : Option (Colocated Scalar) :=
  match loop.status with
  | .running => some (loop.turn receive given)
  | _ => none

end Colocated

end PrimeRl.Value
