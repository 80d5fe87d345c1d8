import PrimeRl.Value.Colocated

/-!
# Reserved batches along runs of the master loop

The replay of a running loop is always filling between two turns, because a full
cohort is reserved in the turn that completes it. Everything sampled is therefore
what the train commands carried, then the held batch, and a stop command is only
decided when nothing is held.
-/

namespace PrimeRl.Value

open Replay

universe u
variable {Link Scalar : Type u}

/-- Training is only chosen when there is something to train on. -/
theorem choose_train (hasInference hasTraining : Bool) (lastOperation : Option Operation)
    (chosen : chooseNextOperation hasInference hasTraining lastOperation = some .train) :
    hasTraining = true := by
  cases hasTraining with
  | true => rfl
  | false =>
    cases hasInference with
    | true => simp [chooseNextOperation] at chosen
    | false => simp [chooseNextOperation] at chosen

namespace Colocated

/-- Batches of the train commands sent so far. -/
def trained (loop : Colocated Scalar) : List (ValueTrainingBatch Scalar) :=
  loop.commands.filterMap ControlCommand.trained

/-- The batch that a decided command carries. -/
def carried (sent : Option (ControlKind × Option (ControlPayload Scalar))) :
    List (ValueTrainingBatch Scalar) :=
  (sent.bind (fun command => ControlCommand.trained ⟨0, command.1, command.2⟩)).toList

/-- Between two turns: the delivered rollouts are cut into the sampled cohorts
and a cohort under assembly, which is what a live replay holds, and every sampled
batch was sent or is held. Receiver and replay are there until the loop only serves. -/
structure Reserved (config : ReplayConfig) (loop : Colocated Scalar) : Prop where
  cadence : ∃ buffer, Cadence config buffer loop.delivered loop.sampled ∧
    buffer.canSample = false ∧ ∀ replay, loop.replay = some replay → replay = buffer
  accounted : loop.sampled = loop.trained ++ loop.pendingBatch.toList
  opened : loop.serveOnly = false → loop.receiverOpen = true ∧ loop.replay.isSome = true

variable {config : ReplayConfig} {loop next : Colocated Scalar}
  {receive : ReceiveAvailable Link Scalar} {given : Turn Link Scalar}

/-- A live replay is the cohort under assembly. -/
theorem Reserved.live {replay : ValueReplayBuffer Scalar} (reserved : Reserved config loop)
    (present : loop.replay = some replay) :
    Cadence config replay loop.delivered loop.sampled ∧ replay.canSample = false := by
  obtain ⟨buffer, cadence, filling, same⟩ := reserved.cadence
  obtain rfl := same replay present
  exact ⟨cadence, filling⟩

theorem close_reserved (reserved : Reserved config loop)
    (closed : loop.closeAtMaxSteps = .ok next) :
    Reserved config next ∧ next.commands = loop.commands ∧ next.status = loop.status := by
  simp only [closeAtMaxSteps] at closed
  split at closed
  · split at closed
    · obtain rfl := Except.ok.inj closed
      obtain ⟨buffer, cadence, filling, -⟩ := reserved.cadence
      exact ⟨⟨⟨buffer, cadence, filling, fun _ impossible => nomatch impossible⟩, reserved.accounted,
        by simp⟩, rfl, rfl⟩
    · cases closed
  · obtain rfl := Except.ok.inj closed
    exact ⟨reserved, rfl, rfl⟩

/-- A reservation is made in the turn that completes a cohort, so what it leaves
behind is filling again. -/
theorem reserve_reserved (default : DefaultReplay config) (bounded : Bounded receive)
    (reserved : Reserved config loop) (done : loop.reserve receive given = .ok next) :
    Reserved config next ∧ next.commands = loop.commands ∧ next.status = loop.status := by
  simp only [reserve] at done
  by_cases wanted : (!loop.serveOnly && loop.pendingBatch.isNone) = true
  · have nothingHeld : loop.pendingBatch = none :=
      Option.isNone_iff_eq_none.mp (Bool.and_eq_true_iff.mp wanted).2
    simp only [wanted, if_true] at done
    split at done
    · rename_i replay isOpen present
      obtain ⟨cadence, filling⟩ := reserved.live present
      simp only [filling, Bool.false_eq_true, if_false, admitSlice] at done
      cases admission : admitAvailableRollouts (recorded receive) ⟨given.link, loop.delivered⟩
          replay false with
      | error message => simp [admission] at done
      | ok result =>
        obtain ⟨count, tape, admitted⟩ := result
        have grown := cadence.admit_slice default bounded filling admission
        simp only [admission] at done
        by_cases allowed : admitted.canSample = true
        · simp only [allowed, if_true, hold] at done
          cases selected : admitted.sample (given.generator.draw admitted) with
          | error message => simp [selected] at done
          | ok result =>
            obtain ⟨batch, drained⟩ := result
            simp only [selected, Except.ok.injEq] at done
            subst done
            obtain ⟨after, emptied⟩ :=
              grown.sample default (given.generator.draws admitted allowed) selected
            refine ⟨⟨⟨drained, after, emptied, ?_⟩, ?_, fun _ => ⟨isOpen, rfl⟩⟩, rfl, rfl⟩
            · rintro replay' ⟨rfl⟩
              rfl
            · have before := reserved.accounted
              rw [nothingHeld, Option.toList_none, List.append_nil] at before
              simp only [trained, Option.toList_some] at before ⊢
              rw [before]
        · simp only [allowed, Bool.false_eq_true, if_false, Except.ok.injEq] at done
          subst done
          refine ⟨⟨⟨admitted, grown, Bool.not_eq_true _ ▸ allowed, ?_⟩, reserved.accounted,
            fun _ => ⟨isOpen, rfl⟩⟩, rfl, rfl⟩
          rintro replay' ⟨rfl⟩
          rfl
    · cases done
  · simp only [wanted, Bool.false_eq_true, if_false, Except.ok.injEq] at done
    exact done ▸ ⟨reserved, rfl, rfl⟩

/-- What a decision leaves: all that was sampled is what earlier commands carried,
what this command carries and what stays held. Nothing is held at a stop. -/
structure Decided (config : ReplayConfig) (before after : Colocated Scalar)
    (sent : Option (ControlKind × Option (ControlPayload Scalar))) : Prop where
  cadence : ∃ buffer, Cadence config buffer after.delivered after.sampled ∧
    buffer.canSample = false ∧ ∀ replay, after.replay = some replay → replay = buffer
  commands : after.commands = before.commands
  status : after.status = before.status
  accounted : after.sampled = before.trained ++ carried sent ++ after.pendingBatch.toList
  stopped : ∀ payload, sent = some (.stop, payload) → after.pendingBatch = none
  opened : after.serveOnly = false → after.receiverOpen = true ∧ after.replay.isSome = true

/-- A command without a batch leaves the reservation as it is. -/
theorem Reserved.decided (reserved : Reserved config loop)
    (sent : Option (ControlKind × Option (ControlPayload Scalar)))
    (empty : carried sent = [])
    (stopped : ∀ payload, sent = some (.stop, payload) → loop.pendingBatch = none) :
    Decided config loop loop sent where
  cadence := reserved.cadence
  commands := rfl
  status := rfl
  accounted := by rw [empty, List.append_nil]; exact reserved.accounted
  stopped := stopped
  opened := reserved.opened

/-- A train command takes the held batch over. -/
theorem Reserved.sendPending {batch : ValueTrainingBatch Scalar} (reserved : Reserved config loop)
    (held : loop.pendingBatch = some batch) :
    Decided config loop (loop.sendPending batch).1 (loop.sendPending batch).2 where
  cadence := reserved.cadence
  commands := rfl
  status := rfl
  accounted := by
    have before := reserved.accounted
    rw [held] at before
    exact before.trans (List.append_nil _).symm
  stopped := fun _ impossible => nomatch impossible
  opened := reserved.opened

theorem operate_decided {sent : Option (ControlKind × Option (ControlPayload Scalar))}
    (reserved : Reserved config loop) (done : loop.operate receive given = .ok (next, sent)) :
    Decided config loop next sent := by
  simp only [operate] at done
  split at done
  · split at done
    · obtain ⟨rfl, rfl⟩ := Prod.mk.inj (Except.ok.inj done)
      exact reserved.decided _ rfl (fun _ impossible => nomatch impossible)
    · obtain ⟨rfl, rfl⟩ := Prod.mk.inj (Except.ok.inj done)
      exact reserved.decided _ rfl (fun _ impossible => nomatch impossible)
  · rename_i chosen
    cases held : loop.pendingBatch with
    | some batch =>
      simp only [held] at done
      obtain ⟨rfl, rfl⟩ := Prod.mk.inj (Except.ok.inj done)
      exact reserved.sendPending held
    | none =>
      -- nothing is held and the replay is filling, so training was not available
      have available := choose_train _ _ _ chosen
      simp only [hasTraining, held, Option.isSome_none, Bool.false_or, Bool.and_eq_true,
        Option.any_eq_true] at available
      obtain ⟨-, replay, present, allowed⟩ := available
      rw [(reserved.live present).2] at allowed
      exact absurd allowed Bool.false_ne_true
  · obtain ⟨rfl, rfl⟩ := Prod.mk.inj (Except.ok.inj done)
    split
    · exact reserved.decided _ rfl (fun _ impossible => nomatch impossible)
    · exact reserved.decided _ rfl (fun _ impossible => nomatch impossible)

theorem decide_decided {sent : Option (ControlKind × Option (ControlPayload Scalar))}
    (default : DefaultReplay config) (bounded : Bounded receive) (reserved : Reserved config loop)
    (done : loop.decide receive given = .ok (next, sent)) : Decided config loop next sent := by
  simp only [decide] at done
  split at done
  · cases held : loop.pendingBatch with
    | none =>
      simp only [held] at done
      obtain ⟨rfl, rfl⟩ := Prod.mk.inj (Except.ok.inj done)
      exact reserved.decided _ rfl (fun _ _ => held)
    | some batch =>
      simp only [held] at done
      obtain ⟨rfl, rfl⟩ := Prod.mk.inj (Except.ok.inj done)
      exact reserved.sendPending held
  · cases closing : loop.closeAtMaxSteps with
    | error message => simp [closing] at done
    | ok opened =>
      simp only [closing] at done
      obtain ⟨openedReserved, sameCommands, sameStatus⟩ := close_reserved reserved closing
      cases reservation : opened.reserve receive given with
      | error message => simp [reservation] at done
      | ok held =>
        simp only [reservation] at done
        obtain ⟨heldReserved, heldCommands, heldStatus⟩ :=
          reserve_reserved default bounded openedReserved reservation
        have decided := operate_decided heldReserved done
        have allCommands := heldCommands.trans sameCommands
        exact
          { cadence := decided.cadence
            commands := decided.commands.trans allCommands
            status := decided.status.trans (heldStatus.trans sameStatus)
            accounted := by rw [decided.accounted, trained, allCommands, trained]
            stopped := decided.stopped
            opened := decided.opened }

/-- Executing a command changes the runtime, the operation and id counters and the
status, and a stop command is never executed into a running loop. -/
theorem execute_frame [Zero Scalar] (loop : Colocated Scalar) (given : Turn Link Scalar)
    (command : ControlCommand Scalar) :
    (loop.execute given command).replay = loop.replay ∧
      (loop.execute given command).delivered = loop.delivered ∧
      (loop.execute given command).sampled = loop.sampled ∧
      (loop.execute given command).pendingBatch = loop.pendingBatch ∧
      (loop.execute given command).commands = loop.commands ∧
      (loop.execute given command).serveOnly = loop.serveOnly ∧
      (loop.execute given command).receiverOpen = loop.receiverOpen ∧
      (command.kind = .stop → (loop.execute given command).status ≠ .running) := by
  obtain ⟨commandId, kind, payload⟩ := command
  by_cases expected : commandId = loop.nextCommandId
  · cases kind with
    | train =>
      rcases payload with _ | batch | request
      · simp [execute, expected, raise]
      · simp only [execute, expected, ne_eq, not_true_eq_false, if_false, train]
        split
        · simp [raise]
        · split
          · split
            · simp [raise]
            · simp
          · simp
      · simp [execute, expected, raise]
    | infer =>
      rcases payload with _ | batch | request
      · simp [execute, expected, raise]
      · simp [execute, expected, raise]
      · simp only [execute, expected, ne_eq, not_true_eq_false, if_false]
        split
        · simp [raise]
        · simp
    | idle => simp [execute, expected]
    | stop => simp [execute, expected]
  · simp [execute, expected, raise]

/-- A stop command is the last one sent, and with it everything sampled has been
carried by a train command before it. -/
def StopsLast (loop : Colocated Scalar) : Prop :=
  ∀ before command after, loop.commands = before ++ command :: after → command.kind = .stop →
    after = [] ∧ loop.sampled = before.filterMap ControlCommand.trained

/-- The invariant of the master loop. While it runs no stop command was sent. -/
structure Mastered (config : ReplayConfig) (loop : Colocated Scalar) : Prop where
  reserved : Reserved config loop
  unstopped : loop.status = .running → ∀ command ∈ loop.commands, command.kind ≠ .stop
  stops_last : StopsLast loop

/-- A loop that sent no stop command has nothing to show for one. -/
theorem stops_last_of_unstopped (loop : Colocated Scalar)
    (unstopped : ∀ command ∈ loop.commands, command.kind ≠ .stop) : StopsLast loop := by
  intro before command after sent isStop
  have member : command ∈ loop.commands := by
    rw [sent]
    exact List.mem_append_right before List.mem_cons_self
  exact absurd isStop (unstopped command member)

theorem start_mastered (runtime : ValueTrainerRuntime Scalar) (config : ReplayConfig) :
    Mastered config (start runtime { config := config }) where
  reserved := by
    refine ⟨⟨{ config := config }, Cadence.init config, rfl, ?_⟩, rfl, ?_⟩
    · intro replay present
      simp only [start] at present
      split at present
      · cases present
      · exact (Option.some.inj present).symm
    · intro serving
      simp only [start] at serving ⊢
      simp [serving]
  unstopped := fun _ _ impossible => absurd impossible List.not_mem_nil
  stops_last := stops_last_of_unstopped _ (fun _ impossible => absurd impossible List.not_mem_nil)

/-- Sending and executing the decided command keeps the invariant. -/
theorem send_mastered [Zero Scalar] {kind : ControlKind} {payload : Option (ControlPayload Scalar)}
    (commandId : Nat) (unstopped : ∀ command ∈ loop.commands, command.kind ≠ .stop)
    (decided : Decided config loop next (some (kind, payload))) :
    Mastered config ((next.broadcastCommand ⟨commandId, kind, payload⟩).execute given
      ⟨commandId, kind, payload⟩) := by
  obtain ⟨sameReplay, sameDelivered, sameSampled, samePending, sameCommands, sameServing, sameOpen,
      stopping⟩ :=
    execute_frame (next.broadcastCommand ⟨commandId, kind, payload⟩) given ⟨commandId, kind, payload⟩
  have listed : ((next.broadcastCommand ⟨commandId, kind, payload⟩).execute given
      ⟨commandId, kind, payload⟩).commands = loop.commands ++ [⟨commandId, kind, payload⟩] := by
    rw [sameCommands, broadcastCommand, decided.commands]
  have carriedOne : carried (some (kind, payload)) =
      List.filterMap ControlCommand.trained [⟨commandId, kind, payload⟩] := by
    have sameBatch : ControlCommand.trained ⟨0, kind, payload⟩ =
        ControlCommand.trained ⟨commandId, kind, payload⟩ := rfl
    simp only [carried, Option.bind_some, sameBatch, List.filterMap_cons, List.filterMap_nil]
    cases ControlCommand.trained ⟨commandId, kind, payload⟩ <;> rfl
  have accounted := decided.accounted
  refine ⟨⟨?_, ?_, ?_⟩, ?_, ?_⟩
  · rw [sameReplay, sameDelivered, sameSampled]
    exact decided.cadence
  · rw [sameSampled, samePending, trained, listed, List.filterMap_append, ← carriedOne]
    exact accounted
  · rw [sameServing, sameOpen, sameReplay]
    exact decided.opened
  · intro running command member isStop
    rw [listed] at member
    rcases List.mem_append.mp member with earlier | last
    · exact unstopped command earlier isStop
    · obtain rfl := List.mem_singleton.mp last
      exact stopping isStop running
  · intro before command after sent isStop
    rw [listed] at sent
    rcases List.eq_nil_or_concat after with rfl | ⟨others, last, rfl⟩
    · obtain ⟨rfl, same⟩ := List.append_inj' sent rfl
      obtain rfl := (List.cons.inj same).1
      refine ⟨rfl, ?_⟩
      have nothingHeld := decided.stopped payload (by rw [← isStop])
      have nothingCarried : carried (some (kind, payload)) = [] := by
        obtain rfl : kind = .stop := isStop
        rfl
      rw [sameSampled]
      rw [nothingHeld, nothingCarried, Option.toList_none, List.append_nil, List.append_nil]
        at accounted
      exact accounted
    · rw [List.concat_eq_append, ← List.cons_append, ← List.append_assoc] at sent
      obtain ⟨same, -⟩ := List.append_inj' sent rfl
      have earlier : command ∈ loop.commands := by
        rw [same]
        exact List.mem_append_right before List.mem_cons_self
      exact absurd isStop (unstopped command earlier)

theorem step_mastered [Zero Scalar] (default : DefaultReplay config) (bounded : Bounded receive)
    (loop : Colocated Scalar) (given : Turn Link Scalar) (next : Colocated Scalar)
    (mastered : Mastered config loop) (accepted : step receive loop given = some next) :
    Mastered config next := by
  simp only [step] at accepted
  cases running : loop.status with
  | finished => simp [running] at accepted
  | raised message => simp [running] at accepted
  | running =>
    simp only [running, Option.some.injEq] at accepted
    subst accepted
    have unstopped := mastered.unstopped running
    simp only [turn]
    cases decision : loop.decide receive given with
    | error message =>
      exact ⟨⟨mastered.reserved.cadence, mastered.reserved.accounted, mastered.reserved.opened⟩,
        fun _ => unstopped, mastered.stops_last⟩
    | ok result =>
      obtain ⟨decidedLoop, sent⟩ := result
      have decided := decide_decided default bounded mastered.reserved decision
      cases sent with
      | none =>
        have stillUnstopped : ∀ command ∈ decidedLoop.commands, command.kind ≠ .stop :=
          decided.commands ▸ unstopped
        refine ⟨⟨decided.cadence, ?_, decided.opened⟩, fun _ => stillUnstopped,
          stops_last_of_unstopped _ stillUnstopped⟩
        rw [decided.accounted, trained, trained, decided.commands]
        exact congrArg (· ++ _) (List.append_nil _)
      | some command =>
        obtain ⟨kind, payload⟩ := command
        exact send_mastered decidedLoop.nextCommandId unstopped decided

/-- With nothing held, the reservation asks the receiver for the rest of the cohort
and admits all that it returns. -/
theorem reserve_admits {after : Link} {rollouts : List (ValueTrainingRollout Scalar)}
    (default : DefaultReplay config) (reserved : Reserved config loop)
    (training : loop.serveOnly = false) (nothingHeld : loop.pendingBatch = none)
    (received : receive given.link
      ((config.batchSize : Int) - (loop.delivered.length : Int) % config.batchSize) false =
        .ok (rollouts, after))
    (usable : ∀ rollout ∈ rollouts, rollout.samples ≠ []) :
    ∃ filled, loop.reserve receive given = .ok filled ∧
      filled.delivered = loop.delivered ++ rollouts := by
  obtain ⟨isOpen, isLive⟩ := reserved.opened training
  obtain ⟨replay, present⟩ := Option.isSome_iff_exists.mp isLive
  obtain ⟨cadence, filling⟩ := reserved.live present
  obtain ⟨admitted, admission⟩ := cadence.admits default filling received usable
  simp only [reserve, training, nothingHeld, isOpen, present, filling, admitSlice, admission,
    Bool.not_false, Option.isNone_none, Bool.and_self, if_true, Bool.false_eq_true, if_false]
  by_cases allowed : admitted.canSample = true
  · simp only [allowed, if_true, hold, ValueReplayBuffer.sample]
    exact ⟨_, rfl, rfl⟩
  · simp only [allowed, Bool.false_eq_true, if_false]
    exact ⟨_, rfl, rfl⟩

/-- After a reservation every operation has what it needs, and none receives again. -/
theorem operate_accepted (receive : ReceiveAvailable Link Scalar) (given : Turn Link Scalar)
    (reserved : Reserved config loop) :
    ∃ next sent, loop.operate receive given = .ok (next, sent) ∧
      next.delivered = loop.delivered := by
  simp only [operate]
  split
  · split
    · exact ⟨_, _, rfl, rfl⟩
    · exact ⟨_, _, rfl, rfl⟩
  · rename_i chosen
    cases held : loop.pendingBatch with
    | some batch => exact ⟨_, _, rfl, rfl⟩
    | none =>
      have available := choose_train _ _ _ chosen
      simp only [hasTraining, held, Option.isSome_none, Bool.false_or, Bool.and_eq_true,
        Option.any_eq_true] at available
      obtain ⟨-, replay, present, allowed⟩ := available
      rw [(reserved.live present).2] at allowed
      exact absurd allowed Bool.false_ne_true
  · exact ⟨_, _, rfl, rfl⟩

theorem step_admits [Zero Scalar] {after : Link} {rollouts : List (ValueTrainingRollout Scalar)}
    (default : DefaultReplay config) (bounded : Bounded receive) (reserved : Reserved config loop)
    (running : loop.status = .running) (training : loop.serveOnly = false)
    (unreached : loop.runtime.maxStepsReached = false) (unfinished : given.runDone = false)
    (nothingHeld : loop.pendingBatch = none)
    (received : receive given.link
      ((config.batchSize : Int) - (loop.delivered.length : Int) % config.batchSize) false =
        .ok (rollouts, after))
    (usable : ∀ rollout ∈ rollouts, rollout.samples ≠ []) :
    ∃ next, step receive loop given = some next ∧ next.delivered = loop.delivered ++ rollouts := by
  obtain ⟨filled, reservation, grown⟩ :=
    reserve_admits default reserved training nothingHeld received usable
  obtain ⟨filledReserved, -, -⟩ := reserve_reserved default bounded reserved reservation
  obtain ⟨operated, sent, operation, same⟩ := operate_accepted receive given filledReserved
  have decision : loop.decide receive given = .ok (operated, sent) := by
    simp only [decide, unfinished, closeAtMaxSteps, unreached, Bool.false_and, Bool.false_eq_true,
      if_false, reservation, operation]
  rw [step, running]
  refine ⟨_, rfl, ?_⟩
  rw [turn, decision]
  cases sent with
  | none => exact same.trans grown
  | some command =>
    obtain ⟨kind, payload⟩ := command
    exact (execute_frame _ given _).2.1.trans (same.trans grown)

/-- The invariant along every run of the master loop. -/
theorem run_mastered [Zero Scalar] (default : DefaultReplay config) (bounded : Bounded receive)
    (runtime : ValueTrainerRuntime Scalar) (turns : List (Turn Link Scalar))
    (ran : Machine.run (step receive) (start runtime { config := config }) turns = some loop) :
    Mastered config loop :=
  Machine.run_invariant (Mastered config) (step_mastered default bounded)
    (start_mastered runtime config) ran

end Colocated

/-- Equal thresholds with one update for each rollout are the default ones. -/
theorem init_default (batchSize : Int) (buffer : ValueReplayBuffer Scalar)
    (accepted : ValueReplayBuffer.init batchSize batchSize batchSize 1 = .ok buffer) :
    ∃ config, buffer = { config := config } ∧ DefaultReplay config ∧
      batchSize = (config.batchSize : Int) := by
  obtain ⟨config, rfl, isBatch, isCapacity, isRefill, isUpdates⟩ :=
    ValueReplayBuffer.init_cases batchSize batchSize batchSize 1 buffer accepted
  refine ⟨config, rfl, ⟨?_, ?_, ?_⟩, ?_⟩
  · omega
  · omega
  · omega
  · omega

/-- With capacity and refill size of one batch and one update for each rollout,
both loops train on consecutive blocks of the admitted stream: batch `index` is
made of its rollouts from `index * batch_size` on, there are as many batches as
full blocks have arrived, and nothing is evicted. A turn that may train asks the
receiver for the rest of the block and admits all that it returns. The master loop
moreover puts each sampled batch into one train command, in order, before it sends
its only stop command. -/
theorem default_replay_cadence [Zero Scalar] (batchSize : Int)
    (buffer : ValueReplayBuffer Scalar)
    (accepted : ValueReplayBuffer.init batchSize batchSize batchSize 1 = .ok buffer)
    (receive : ReceiveAvailable Link Scalar) (bounded : Bounded receive)
    (runtime : ValueTrainerRuntime Scalar) :
    (∀ turns loop,
      Machine.run (TrainLoop.step receive) { runtime := runtime, replay := buffer } turns =
        some loop →
      loop.replay.evicted = 0 ∧ loop.replay.admitted = loop.delivered.length ∧
        loop.batches.length = loop.delivered.length / batchSize.toNat ∧
        (∀ (index : Nat) batch, loop.batches[index]? = some batch →
          index * batchSize.toNat + batchSize.toNat ≤ loop.delivered.length ∧
            batch = cohortBatch
              ((loop.delivered.drop (index * batchSize.toNat)).take batchSize.toNat)) ∧
        ∀ (given : TrainLoop.Turn Link Scalar) rollouts after, loop.status = .running →
          loop.runtime.maxStepsReached = false → given.policyRunFinished = false →
          receive given.link (batchSize - (loop.delivered.length : Int) % batchSize) true =
            .ok (rollouts, after) →
          (∀ rollout ∈ rollouts, rollout.samples ≠ []) →
          ∃ next, TrainLoop.step receive loop given = some next ∧
            next.delivered = loop.delivered ++ rollouts) ∧
      ∀ turns loop,
        Machine.run (Colocated.step receive) (Colocated.start runtime buffer) turns = some loop →
        (∀ replay, loop.replay = some replay →
          replay.evicted = 0 ∧ replay.admitted = loop.delivered.length) ∧
        loop.sampled.length = loop.delivered.length / batchSize.toNat ∧
        (∀ (index : Nat) batch, loop.sampled[index]? = some batch →
          index * batchSize.toNat + batchSize.toNat ≤ loop.delivered.length ∧
            batch = cohortBatch
              ((loop.delivered.drop (index * batchSize.toNat)).take batchSize.toNat)) ∧
        (∀ (given : Colocated.Turn Link Scalar) rollouts after, loop.status = .running →
          loop.serveOnly = false → loop.runtime.maxStepsReached = false →
          given.runDone = false → loop.pendingBatch = none →
          receive given.link (batchSize - (loop.delivered.length : Int) % batchSize) false =
            .ok (rollouts, after) →
          (∀ rollout ∈ rollouts, rollout.samples ≠ []) →
          ∃ next, Colocated.step receive loop given = some next ∧
            next.delivered = loop.delivered ++ rollouts) ∧
        loop.sampled = loop.commands.filterMap ControlCommand.trained ++
          loop.pendingBatch.toList ∧
        ∀ before command after, loop.commands = before ++ command :: after →
          command.kind = .stop →
          after = [] ∧ loop.sampled = before.filterMap ControlCommand.trained := by
  obtain ⟨config, rfl, default, rfl⟩ := init_default batchSize buffer accepted
  rw [Int.toNat_natCast]
  constructor
  · intro turns loop ran
    have steady := TrainLoop.run_steady default bounded runtime turns ran
    obtain ⟨count, -⟩ := steady.cadence.counts default steady.filling
    refine ⟨steady.cadence.assembling.complete, steady.cadence.arrived, count,
      steady.cadence.batch_at, ?_⟩
    intro given rollouts after running unreached unfinished received usable
    exact TrainLoop.step_admits default steady running unreached unfinished received usable
  · intro turns loop ran
    have mastered := Colocated.run_mastered default bounded runtime turns ran
    obtain ⟨stream, cadence, filling, -⟩ := mastered.reserved.cadence
    obtain ⟨count, -⟩ := cadence.counts default filling
    refine ⟨?_, count, cadence.batch_at, ?_, mastered.reserved.accounted, mastered.stops_last⟩
    · intro replay present
      obtain ⟨live, -⟩ := mastered.reserved.live present
      exact ⟨live.assembling.complete, live.arrived⟩
    · intro given rollouts after running training unreached unfinished nothingHeld received usable
      exact Colocated.step_admits default bounded mastered.reserved running training unreached
        unfinished nothingHeld received usable

/-- Cohorts of two from arrivals of one, none, one and three rollouts. The dedicated
loop trains when the second and the fourth have come. The master loop holds the
second cohort while an inference command passes, and sends it when the policy run
is done. Either loop would admit the next arrival too. -/
theorem default_replay_cadence_two_updates :
    let rollout (rolloutId : Int) : ValueTrainingRollout Int :=
      ⟨[⟨[3, 5], [true, true], [1, 1]⟩], rolloutId, 4, 2⟩
    let buffer : ValueReplayBuffer Int :=
      { config := ⟨2, 2, 2, 1, by decide, by decide, by decide, by decide⟩ }
    let receive : ReceiveAvailable (List (ValueTrainingRollout Int)) Int :=
      fun link limit _ =>
        if limit < 1 then .error "receive limit must be positive"
        else .ok (link.take limit.toNat, link.drop limit.toNat)
    let runtime : ValueTrainerRuntime Int := ⟨8, 1, 0, true, none, 0, none⟩
    let arrivals := [[rollout 0], [], [rollout 1], [rollout 2, rollout 3, rollout 4]]
    let dedicated (link : List (ValueTrainingRollout Int)) :
        TrainLoop.Turn (List (ValueTrainingRollout Int)) Int :=
      ⟨false, link, RandomSample.oldest, .ok ()⟩
    let master (hasQueued runDone : Bool) (link : List (ValueTrainingRollout Int)) :
        Colocated.Turn (List (ValueTrainingRollout Int)) Int :=
      { runDone := runDone
        link := link
        laterLink := []
        generator := RandomSample.oldest
        hasQueued := hasQueued
        taken := if hasQueued then some ⟨[[7]]⟩ else none
        heartbeatDue := false
        inference := .ok ()
        update := .ok () }
    let rolloutIds (batches : List (ValueTrainingBatch Int)) :=
      batches.map (fun batch => (batch.numRollouts, batch.rolloutIdMin, batch.rolloutIdMax))
    ValueReplayBuffer.init 2 2 2 1 = .ok buffer ∧
      (∃ loop next,
        Machine.run (TrainLoop.step receive) { runtime := runtime, replay := buffer }
          (arrivals.map dedicated) = some loop ∧
        rolloutIds loop.batches = [(2, 0, 1), (2, 2, 3)] ∧
        loop.batches.length = loop.delivered.length / 2 ∧
        TrainLoop.step receive loop (dedicated [rollout 5]) = some next ∧
        next.delivered = loop.delivered ++ [rollout 5]) ∧
      ∃ loop next stopped,
        Machine.run (Colocated.step receive) (Colocated.start runtime buffer)
          (arrivals.map (master false false)) = some loop ∧
        Colocated.step receive loop (master false false [rollout 5]) = some next ∧
        next.delivered = loop.delivered ++ [rollout 5] ∧
        Machine.run (Colocated.step receive) next
          [master true false [rollout 6], master false true [], master false true []] =
            some stopped ∧
        stopped.commands.map ControlCommand.kind = [.train, .train, .infer, .train, .stop] ∧
        rolloutIds stopped.sampled = [(2, 0, 1), (2, 2, 3), (2, 5, 6)] ∧
        stopped.sampled.length = stopped.delivered.length / 2 ∧
        stopped.sampled = stopped.commands.filterMap ControlCommand.trained ++
          stopped.pendingBatch.toList := by
  intro rollout buffer receive runtime arrivals dedicated master rolloutIds
  have bounded : Bounded receive := by
    intro link limit waitForFirst rollouts after received
    simp only [receive] at received
    split at received
    · cases received
    · obtain ⟨rfl, -⟩ := Prod.mk.inj (Except.ok.inj received)
      rw [List.length_take]
      omega
  obtain ⟨dedicatedRuns, masterRuns⟩ :=
    default_replay_cadence 2 buffer rfl receive bounded runtime
  refine ⟨rfl, ?_, ?_⟩
  · obtain ⟨loop, ran, seen⟩ := Option.map_eq_some_iff.mp
      (show (Machine.run (TrainLoop.step receive) { runtime := runtime, replay := buffer }
        (arrivals.map dedicated)).map (fun loop => (rolloutIds loop.batches, loop.status,
          loop.runtime.maxStepsReached, loop.delivered.length)) =
            some ([(2, 0, 1), (2, 2, 3)], .running, false, 4) by decide +kernel)
    simp only [Prod.mk.injEq] at seen
    obtain ⟨trained, running, unreached, arrived⟩ := seen
    obtain ⟨-, -, count, -, admits⟩ := dedicatedRuns _ loop ran
    obtain ⟨next, stepped, grown⟩ := admits (dedicated [rollout 5]) [rollout 5] [] running unreached
      rfl (by rw [arrived]; rfl) (by simp [rollout])
    exact ⟨loop, next, ran, trained, count, stepped, grown⟩
  · obtain ⟨loop, ran, seen⟩ := Option.map_eq_some_iff.mp
      (show (Machine.run (Colocated.step receive) (Colocated.start runtime buffer)
        (arrivals.map (master false false))).map (fun loop => (loop.status, loop.serveOnly,
          loop.runtime.maxStepsReached, loop.pendingBatch.isNone, loop.delivered.length)) =
            some (.running, false, false, true, 4) by decide +kernel)
    simp only [Prod.mk.injEq] at seen
    obtain ⟨running, training, unreached, nothingHeld, arrived⟩ := seen
    obtain ⟨-, -, -, admits, -⟩ := masterRuns _ loop ran
    obtain ⟨next, stepped, grown⟩ := admits (master false false [rollout 5]) [rollout 5] [] running
      training unreached rfl (Option.isNone_iff_eq_none.mp nothingHeld) (by rw [arrived]; rfl)
      (by simp [rollout])
    obtain ⟨stopped, whole, sent⟩ := Option.map_eq_some_iff.mp
      (show (Machine.run (Colocated.step receive) (Colocated.start runtime buffer)
        (arrivals.map (master false false) ++ master false false [rollout 5] ::
          [master true false [rollout 6], master false true [], master false true []])).map
            (fun loop => (loop.commands.map ControlCommand.kind, rolloutIds loop.sampled)) =
              some ([.train, .train, .infer, .train, .stop], [(2, 0, 1), (2, 2, 3), (2, 5, 6)])
        by decide +kernel)
    obtain ⟨kinds, sampled⟩ := Prod.mk.inj sent
    obtain ⟨-, count, -, -, accounted, -⟩ := masterRuns _ stopped whole
    obtain ⟨middle, before, behind⟩ := (Machine.run_append_iff _ _ _ _ _).mp whole
    obtain rfl := Option.some.inj (ran.symm.trans before)
    obtain ⟨later, here, rest⟩ := (Machine.run_cons_iff _ _ _ _ _).mp behind
    obtain rfl := Option.some.inj (stepped.symm.trans here)
    exact ⟨loop, next, stopped, ran, stepped, grown, rest, kinds, sampled, count, accounted⟩

end PrimeRl.Value
