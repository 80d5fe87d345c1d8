import PrimeRl.Support.Machine
import PrimeRl.Support.StepQueue
import PrimeRl.Trainer.PackerProgress

/-!
# Runs of the packer

Producers send one batch for each step of their run, in order. A buffer then
holds consecutive steps, and the run's progress is the step at its head, or the
step to arrive next. That is what makes the samples of one selection share a
step, and what the update of the progress relies on.
-/

namespace PrimeRl.Trainer.Packer

open PrimeRl.Trainer.Batch PrimeRl.Trainer.Runs PrimeRl.Transport StepQueue

variable {Scalar : Type}

/-! ## Receiving -/

/-- What batches bring to one slot, in order. -/
def entriesOf (idx : Nat) (batches : List (TrainingBatch Scalar)) : List (Entry Scalar) :=
  batches.flatMap (fun batch =>
    if batch.runIdx = some idx then batch.examples.map (fun sample => (sample, batch.step)) else [])

/-- The step each producer sends next, behind one of its batches. -/
def sentStep (nextStep : Nat → Int) (batch : TrainingBatch Scalar) (idx : Nat) : Int :=
  if batch.runIdx = some idx then nextStep idx + 1 else nextStep idx

/-- Batches as the producers send them: of runs in use, each the next step of
its run, with samples, all of them valid. -/
def Sent (manager : MultiRunManager) (seqLen : Nat) :
    (Nat → Int) → List (TrainingBatch Scalar) → Prop
  | _, [] => True
  | nextStep, batch :: rest =>
      (∃ idx ∈ manager.idx2Id.keys, batch.runIdx = some idx ∧ batch.step = nextStep idx) ∧
        batch.examples ≠ [] ∧
        (∀ sample ∈ batch.examples, validateSample seqLen sample = .ok ()) ∧
        Sent manager seqLen (sentStep nextStep batch) rest

/-- Receiving only appends to buffers. -/
structure Received (before after : MultiPacker Scalar) (batches : List (TrainingBatch Scalar)) :
    Prop where
  frame : after = { before with buffers := after.buffers }
  size : after.buffers.length = before.buffers.length
  queues : ∀ idx, after.queue idx = before.queue idx ++ entriesOf idx batches

theorem received_nothing (packer : MultiPacker Scalar) : Received packer packer [] where
  frame := rfl
  size := rfl
  queues := fun _ => (List.append_nil _).symm

theorem Received.trans {first second third : MultiPacker Scalar}
    {early late : List (TrainingBatch Scalar)} (one : Received first second early)
    (other : Received second third late) : Received first third (early ++ late) where
  frame := by
    rw [other.frame, one.frame]
  size := other.size.trans one.size
  queues := by
    intro idx
    rw [other.queues, one.queues, List.append_assoc, entriesOf, entriesOf, entriesOf,
      List.flatMap_append]

/-- Valid examples all reach the buffer of their run. -/
theorem buffer_examples_spec (idx : Nat) (step : Int) (examples : List (TrainingSample Scalar))
    (packer : MultiPacker Scalar) (inside : idx < packer.buffers.length)
    (valid : ∀ sample ∈ examples, validateSample packer.seqLen sample = .ok ()) :
    ∃ after, bufferExamples idx step examples packer = .ok after ∧
      after = { packer with buffers := after.buffers } ∧
      after.buffers.length = packer.buffers.length ∧
      ∀ other, after.queue other = packer.queue other ++
        if other = idx then examples.map (fun sample => (sample, step)) else [] := by
  induction examples generalizing packer with
  | nil => exact ⟨packer, rfl, rfl, rfl, fun other => by simp⟩
  | cons sample rest inductionHypothesis =>
    have appended : packer.append idx (sample, step) =
        .ok { packer with buffers := packer.buffers.modify idx (· ++ [(sample, step)]) } := by
      rw [MultiPacker.append, if_pos inside]
    obtain ⟨after, buffered, frame, size, queues⟩ := inductionHypothesis
      { packer with buffers := packer.buffers.modify idx (· ++ [(sample, step)]) }
      (by simpa using inside)
      (fun other member => valid other (List.mem_cons_of_mem sample member))
    refine ⟨after, ?_, ?_, ?_, ?_⟩
    · rw [bufferExamples, valid sample List.mem_cons_self]
      simp only [appended, bind, Except.bind]
      exact buffered
    · rw [frame]
    · rw [size]
      exact List.length_modify ..
    · intro other
      rw [queues]
      by_cases same : other = idx
      · subst same
        simp [MultiPacker.queue, inside, List.getD_eq_getElem?_getD]
      · simp [MultiPacker.queue, same, List.getD_eq_getElem?_getD, Ne.symm same]

/-- A batch of valid examples reaches the buffer of its run. -/
theorem receive_batch_spec (packer : MultiPacker Scalar) (batch : TrainingBatch Scalar) {idx : Nat}
    (isRun : batch.runIdx = some idx) (inside : idx < packer.buffers.length)
    (nonempty : batch.examples ≠ [])
    (valid : ∀ sample ∈ batch.examples, validateSample packer.seqLen sample = .ok ()) :
    ∃ after, receiveBatch packer batch = .ok after ∧ Received packer after [batch] := by
  obtain ⟨after, buffered, frame, size, queues⟩ :=
    buffer_examples_spec idx batch.step batch.examples packer inside valid
  refine ⟨after, ?_, frame, size, ?_⟩
  · rw [receiveBatch, isRun]
    simp only [List.isEmpty_iff, nonempty, if_false]
    exact buffered
  · intro other
    rw [queues, entriesOf, List.flatMap_singleton, isRun]
    simp only [Option.some.injEq, eq_comm]

/-! ## The ledger of steps -/

/-- Buffers hold the consecutive steps between progress and what is sent next. -/
structure Ledger (packer : MultiPacker Scalar) (nextStep : Nat → Int) : Prop where
  usable : Usable packer
  queued : ∀ idx progress, packer.manager.progress.lookup idx = some progress →
    Queued Prod.snd progress.step (nextStep idx) (packer.queue idx)

/-- A batch as the producers send it keeps the ledger. -/
theorem Ledger.arrive {packer after : MultiPacker Scalar} {nextStep : Nat → Int}
    (ledger : Ledger packer nextStep) {batch : TrainingBatch Scalar} {idx : Nat}
    (received : Received packer after [batch]) (isRun : batch.runIdx = some idx)
    (used : idx ∈ packer.manager.idx2Id) (isNext : batch.step = nextStep idx)
    (nonempty : batch.examples ≠ [])
    (valid : ∀ sample ∈ batch.examples, validateSample packer.seqLen sample = .ok ()) :
    Ledger after (sentStep nextStep batch) := by
  have sameManager : after.manager = packer.manager := by rw [received.frame]
  have sameLimit : after.seqLen = packer.seqLen := by rw [received.frame]
  have samePosition : after.roundRobinPosition = packer.roundRobinPosition := by
    rw [received.frame]
  have brought : ∀ other, entriesOf other [batch] =
      if other = idx then batch.examples.map (fun sample => (sample, batch.step)) else [] := by
    intro other
    rw [entriesOf, List.flatMap_singleton, isRun]
    simp only [Option.some.injEq, eq_comm]
  constructor
  · constructor
    · rw [sameManager]
      exact ledger.usable.tracked
    · rw [sameManager, received.size]
      exact ledger.usable.inside
    · intro other unused
      rw [sameManager] at unused
      have different : other ≠ idx := fun same => unused (same ▸ used)
      rw [received.queues, brought, if_neg different, ledger.usable.idle other unused]
      rfl
    · intro some
      rw [samePosition, received.size]
      apply ledger.usable.position
      intro empty
      apply some
      rw [← List.length_eq_zero_iff, received.size, empty]
      rfl
    · intro other entry member
      rw [sameLimit]
      rw [received.queues, brought, List.mem_append] at member
      rcases member with earlier | new
      · exact ledger.usable.valid other entry earlier
      · split at new
        · obtain ⟨sample, listed, rfl⟩ := List.mem_map.mp new
          exact valid sample listed
        · cases new
  · intro other progress found
    rw [sameManager] at found
    have queued := ledger.queued other progress found
    rw [received.queues, brought, sentStep, isRun]
    by_cases same : other = idx
    · subst same
      rw [if_pos rfl, if_pos rfl]
      refine queued.arrive ?_ ?_
      · simpa using nonempty
      · intro entry member
        obtain ⟨sample, -, rfl⟩ := List.mem_map.mp member
        exact isNext
    · rw [if_neg same, if_neg (fun equal => same (Option.some.inj equal).symm), List.append_nil]
      exact queued

theorem sent_append (manager : MultiRunManager) (seqLen : Nat) (nextStep : Nat → Int)
    (early late : List (TrainingBatch Scalar)) :
    Sent manager seqLen nextStep (early ++ late) ↔ Sent manager seqLen nextStep early ∧
      Sent manager seqLen (early.foldl sentStep nextStep) late := by
  induction early generalizing nextStep with
  | nil => simp [Sent]
  | cons batch rest inductionHypothesis =>
    simp only [List.cons_append, Sent, inductionHypothesis, List.foldl_cons, and_assoc]

/-- Receiving what the producers send succeeds and keeps the ledger. -/
theorem get_batch_spec (batches : List (TrainingBatch Scalar)) (packer : MultiPacker Scalar)
    (nextStep : Nat → Int) (ledger : Ledger packer nextStep)
    (sent : Sent packer.manager packer.seqLen nextStep batches) :
    ∃ after, packer.getBatch batches = .ok after ∧ Received packer after batches ∧
      Ledger after (batches.foldl sentStep nextStep) := by
  induction batches generalizing packer nextStep with
  | nil => exact ⟨packer, rfl, received_nothing packer, ledger⟩
  | cons batch rest inductionHypothesis =>
    obtain ⟨⟨idx, listed, isRun, isNext⟩, nonempty, valid, later⟩ := sent
    have used : idx ∈ packer.manager.idx2Id := Finmap.mem_keys.mp listed
    obtain ⟨middle, first, received⟩ := receive_batch_spec packer batch isRun
      (ledger.usable.inside idx used) nonempty valid
    have kept := ledger.arrive received isRun used isNext nonempty valid
    have sameManager : middle.manager = packer.manager := by rw [received.frame]
    have sameLimit : middle.seqLen = packer.seqLen := by rw [received.frame]
    obtain ⟨after, others, receivedLater, keptLater⟩ :=
      inductionHypothesis middle (sentStep nextStep batch) kept (by
        rw [sameManager, sameLimit]
        exact later)
    refine ⟨after, ?_, received.trans receivedLater, keptLater⟩
    rw [MultiPacker.getBatch, List.foldlM_cons, first]
    exact others

end PrimeRl.Trainer.Packer
