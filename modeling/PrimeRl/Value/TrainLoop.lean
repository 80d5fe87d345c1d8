import PrimeRl.Value.Cadence
import PrimeRl.Value.Trainer

/-!
# The dedicated training loop

One turn broadcasts a coordinator control and trains on the batch it carries. A
run chooses for each turn what the receiver finds on its link, how the generator
draws, whether the policy run has finished and whether the update raises. The
batches returned so far and the rollouts delivered so far are kept beside the
loop's own state.
-/

namespace PrimeRl.Value

open Replay

universe u
variable {Link Scalar : Type u}

/-- Whether a loop still takes turns, left its loop, or raised. -/
inductive LoopStatus where
  | running
  | finished
  | raised (message : String)
deriving DecidableEq, Repr

structure TrainLoop (Scalar : Type u) where
  runtime : ValueTrainerRuntime Scalar
  replay : ValueReplayBuffer Scalar
  status : LoopStatus := .running
  delivered : List (ValueTrainingRollout Scalar) := []
  batches : List (ValueTrainingBatch Scalar) := []

namespace TrainLoop

/-- What the surroundings decide in one turn. -/
structure Turn (Link Scalar : Type u) where
  policyRunFinished : Bool
  link : Link
  generator : RandomSample Scalar
  update : Except String Unit

def raise (loop : TrainLoop Scalar) (message : String) : TrainLoop Scalar :=
  { loop with status := .raised message }

/-- Admit one slice, waiting for its first rollout while filling, and sample when
that is allowed. The result is the batch, if any, and whether to stop. -/
def broadcastBatch (receive : ReceiveAvailable Link Scalar) (turn : Turn Link Scalar)
    (loop : TrainLoop Scalar) :
    Except String (TrainLoop Scalar × Option (ValueTrainingBatch Scalar) × Bool) :=
  if turn.policyRunFinished then .ok (loop, none, true)
  else
    let filling := !loop.replay.canSample
    match admitAvailableRollouts (recorded receive) ⟨turn.link, loop.delivered⟩ loop.replay
        filling with
    | .error message => .error message
    | .ok (_, tape, admitted) =>
      let loop := { loop with replay := admitted, delivered := tape.delivered }
      if admitted.canSample then
        match admitted.sample (turn.generator.draw admitted) with
        | .error message => .error message
        | .ok (batch, drained) =>
          .ok ({ loop with replay := drained, batches := loop.batches ++ [batch] }, some batch, false)
      else .ok (loop, none, false)

/-- Prepare the batch and, unless it has no trainable token, update on it. -/
def train [Zero Scalar] (loop : TrainLoop Scalar) (turn : Turn Link Scalar)
    (batch : ValueTrainingBatch Scalar) : TrainLoop Scalar :=
  match loop.runtime.prepareBatch batch with
  | .error message => loop.raise message
  | .ok (false, prepared) => { loop with runtime := prepared }
  | .ok (true, prepared) =>
    match prepared.step turn.update with
    | .error message => { loop with runtime := prepared }.raise message
    | .ok stepped => { loop with runtime := stepped }

/-- One evaluation of the loop condition and, when it holds, of the loop body. -/
def turn [Zero Scalar] (receive : ReceiveAvailable Link Scalar) (loop : TrainLoop Scalar)
    (turn : Turn Link Scalar) : TrainLoop Scalar :=
  if loop.runtime.maxStepsReached then { loop with status := .finished }
  else
    match loop.broadcastBatch receive turn with
    | .error message => loop.raise message
    | .ok (controlled, _, true) => { controlled with status := .finished }
    | .ok (controlled, none, false) => controlled
    | .ok (controlled, some batch, false) => controlled.train turn batch

/-- A loop that was left, normally or by a raise, takes no further turn. -/
def step [Zero Scalar] (receive : ReceiveAvailable Link Scalar) (loop : TrainLoop Scalar)
    (turn : Turn Link Scalar) : Option (TrainLoop Scalar) :=
  match loop.status with
  | .running => some (loop.turn receive turn)
  | _ => none

/-- Between two turns the loop keeps the cadence and waits for a full cohort. -/
structure Steady (config : ReplayConfig) (loop : TrainLoop Scalar) : Prop where
  cadence : Cadence config loop.replay loop.delivered loop.batches
  filling : loop.replay.canSample = false

variable {config : ReplayConfig} {loop : TrainLoop Scalar} {receive : ReceiveAvailable Link Scalar}

/-- Training touches only the runtime and the status. -/
theorem train_steady [Zero Scalar] (steady : Steady config loop) (turn : Turn Link Scalar)
    (batch : ValueTrainingBatch Scalar) : Steady config (loop.train turn batch) := by
  simp only [train]
  split
  · exact ⟨steady.cadence, steady.filling⟩
  · exact ⟨steady.cadence, steady.filling⟩
  · split
    · exact ⟨steady.cadence, steady.filling⟩
    · exact ⟨steady.cadence, steady.filling⟩

/-- A broadcast turn either leaves the cohort unfinished or returns it whole. -/
theorem broadcast_steady {turn : Turn Link Scalar} {controlled : TrainLoop Scalar}
    {batch : Option (ValueTrainingBatch Scalar)} {stop : Bool} (steady : Steady config loop)
    (default : DefaultReplay config) (bounded : Bounded receive)
    (broadcast : loop.broadcastBatch receive turn = .ok (controlled, batch, stop)) :
    Steady config controlled := by
  simp only [broadcastBatch] at broadcast
  by_cases finished : turn.policyRunFinished = true
  · simp only [finished, if_true, Except.ok.injEq, Prod.mk.injEq] at broadcast
    exact broadcast.1 ▸ steady
  · simp only [finished, Bool.false_eq_true, if_false] at broadcast
    cases admission : admitAvailableRollouts (recorded receive) ⟨turn.link, loop.delivered⟩
        loop.replay (!loop.replay.canSample) with
    | error message => simp [admission] at broadcast
    | ok result =>
      obtain ⟨count, tape, admitted⟩ := result
      have cadence := steady.cadence.admit_slice default bounded steady.filling admission
      simp only [admission] at broadcast
      by_cases allowed : admitted.canSample = true
      · simp only [allowed, if_true] at broadcast
        cases selected : admitted.sample (turn.generator.draw admitted) with
        | error message => simp [selected] at broadcast
        | ok result =>
          obtain ⟨sampled, drained⟩ := result
          simp only [selected, Except.ok.injEq, Prod.mk.injEq] at broadcast
          obtain ⟨next, filling⟩ :=
            cadence.sample default (turn.generator.draws admitted allowed) selected
          exact broadcast.1 ▸ ⟨next, filling⟩
      · simp only [allowed, Bool.false_eq_true, if_false, Except.ok.injEq, Prod.mk.injEq]
          at broadcast
        exact broadcast.1 ▸ ⟨cadence, Bool.not_eq_true _ ▸ allowed⟩

theorem step_steady [Zero Scalar] (default : DefaultReplay config) (bounded : Bounded receive)
    (loop : TrainLoop Scalar) (given : Turn Link Scalar) (next : TrainLoop Scalar)
    (steady : Steady config loop) (accepted : step receive loop given = some next) :
    Steady config next := by
  simp only [step] at accepted
  split at accepted
  · obtain rfl := Option.some.inj accepted
    simp only [turn]
    split
    · exact ⟨steady.cadence, steady.filling⟩
    · cases broadcast : loop.broadcastBatch receive given with
      | error message => exact ⟨steady.cadence, steady.filling⟩
      | ok control =>
        obtain ⟨controlled, batch, stop⟩ := control
        have kept := broadcast_steady steady default bounded broadcast
        cases stop with
        | true => exact ⟨kept.cadence, kept.filling⟩
        | false =>
          cases batch with
          | none => exact kept
          | some batch => exact train_steady kept given batch
  · cases accepted

theorem train_delivered [Zero Scalar] (loop : TrainLoop Scalar) (turn : Turn Link Scalar)
    (batch : ValueTrainingBatch Scalar) : (loop.train turn batch).delivered = loop.delivered := by
  simp only [train]
  split
  · rfl
  · rfl
  · split
    · rfl
    · rfl

/-- While updates are left to do, a turn asks the receiver for the rest of the cohort,
waiting for its first rollout, and admits all that it returns. -/
theorem step_admits [Zero Scalar] {given : Turn Link Scalar} {after : Link}
    {rollouts : List (ValueTrainingRollout Scalar)} (default : DefaultReplay config)
    (steady : Steady config loop) (running : loop.status = .running)
    (unreached : loop.runtime.maxStepsReached = false)
    (unfinished : given.policyRunFinished = false)
    (received : receive given.link
      ((config.batchSize : Int) - (loop.delivered.length : Int) % config.batchSize) true =
        .ok (rollouts, after))
    (usable : ∀ rollout ∈ rollouts, rollout.samples ≠ []) :
    ∃ next, step receive loop given = some next ∧ next.delivered = loop.delivered ++ rollouts := by
  obtain ⟨admitted, admission⟩ := steady.cadence.admits default steady.filling received usable
  rw [step, running]
  refine ⟨_, rfl, ?_⟩
  simp only [turn, unreached, broadcastBatch, unfinished, steady.filling, Bool.not_false, admission,
    Bool.false_eq_true, if_false]
  by_cases allowed : admitted.canSample = true
  · simp only [allowed, if_true, ValueReplayBuffer.sample, train_delivered]
  · simp only [allowed, Bool.false_eq_true, if_false]

/-- The invariant along every run of the loop. -/
theorem run_steady [Zero Scalar] (default : DefaultReplay config) (bounded : Bounded receive)
    (runtime : ValueTrainerRuntime Scalar) (turns : List (Turn Link Scalar))
    (ran : Machine.run (step receive) { runtime := runtime, replay := { config := config } } turns =
      some loop) : Steady config loop :=
  Machine.run_invariant (Steady config) (step_steady default bounded)
    ⟨Cadence.init config, rfl⟩ ran

end TrainLoop

end PrimeRl.Value
