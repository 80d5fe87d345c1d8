import PrimeRl.Trainer.PackerRuns
import PrimeRl.Trainer.PrepareBatch
import PrimeRl.Trainer.RunSlots

/-!
# Histories of the packer

Calls of the packer, each with the polls it makes, and resets of the flags that
mark a run ready to update may follow each other in any order. Every sample a
producer sends is selected once, in order, and a run's step moves on exactly
when the last sample of its step is selected.
-/

namespace PrimeRl.Trainer.Packer

open PrimeRl.Trainer.Batch PrimeRl.Trainer.Runs PrimeRl.Transport StepQueue

variable {Scalar : Type}

/-! ## Waiting -/

/-- A count that moved over a buffer found its head of the current step. -/
theorem count_buffer_moves (threshold : Option Nat) (currentStep : Int) (tokens : Nat)
    (buffer : List (Entry Scalar)) :
    (∃ entry, buffer.head? = some entry ∧ entry.2 ≤ currentStep) ∨
      countBuffer threshold currentStep tokens buffer = .inr tokens := by
  cases buffer with
  | nil => exact .inr rfl
  | cons entry rest =>
    by_cases later : currentStep < entry.2
    · refine .inr ?_
      rw [countBuffer, if_pos later]
    · exact .inl ⟨entry, rfl, Int.not_lt.mp later⟩

/-- Counting succeeds, and a count above its start found work. -/
theorem count_runs_spec {packer : MultiPacker Scalar} (usable : Usable packer)
    (threshold : Option Nat) (tokens : Nat) (idxs : List Nat)
    (used : ∀ idx ∈ idxs, idx ∈ packer.manager.idx2Id) :
    ∃ total, countRuns threshold packer tokens idxs = .ok total ∧
      (tokens < total → ∃ idx, Poppable packer idx) := by
  induction idxs generalizing tokens with
  | nil => exact ⟨tokens, rfl, fun impossible => absurd impossible (Nat.lt_irrefl tokens)⟩
  | cons idx rest inductionHypothesis =>
    have isUsed := used idx List.mem_cons_self
    obtain ⟨progress, found⟩ := Finmap.mem_iff.mp ((usable.tracked idx).mpr isUsed)
    have remaining := fun tokens => inductionHypothesis tokens
      (fun other member => used other (List.mem_cons_of_mem idx member))
    rw [countRuns, buffer_ok (usable.inside idx isUsed), subscript_ok found]
    simp only [bind, Except.bind]
    rcases count_buffer_moves threshold progress.step tokens (packer.queue idx) with
      ⟨entry, isHead, current⟩ | unmoved
    · have poppable : Poppable packer idx := ⟨entry, progress, isHead, found, current⟩
      cases countBuffer threshold progress.step tokens (packer.queue idx) with
      | inl total => exact ⟨total, rfl, fun _ => ⟨idx, poppable⟩⟩
      | inr total =>
        obtain ⟨final, counted, -⟩ := remaining total
        exact ⟨final, counted, fun _ => ⟨idx, poppable⟩⟩
    · rw [unmoved]
      exact remaining tokens

theorem count_tokens_spec {packer : MultiPacker Scalar} (usable : Usable packer)
    (threshold : Option Nat) :
    ∃ total, packer.countTokens threshold = .ok total ∧
      (0 < total → ∃ idx, Poppable packer idx) := by
  refine count_runs_spec usable threshold 0 (usedIdxs packer.manager) ?_
  intro idx member
  rw [usedIdxs, Iteration.lists, Finmap.mem_keys] at member
  exact member

/-- Packing starts with work at hand, unless rows cannot hold any token. -/
theorem stops_waiting_spec {packer : MultiPacker Scalar} (usable : Usable packer)
    (timedOut : Bool) :
    ∃ stops, packer.stopsWaiting timedOut = .ok stops ∧
      (stops = true → 0 < packer.tokenBudget → ∃ idx, Poppable packer idx) := by
  obtain ⟨tokens, counted, moved⟩ := count_tokens_spec usable (some packer.tokenBudget)
  obtain ⟨all, countedAll, movedAll⟩ := count_tokens_spec usable none
  have asked : packer.hasEnoughTokens = .ok (decide (packer.tokenBudget ≤ tokens)) := by
    rw [MultiPacker.hasEnoughTokens, counted]
    rfl
  rw [MultiPacker.stopsWaiting, asked]
  by_cases enough : packer.tokenBudget ≤ tokens
  · refine ⟨true, ?_, fun _ positive => moved (by omega)⟩
    simp only [bind, Except.bind, enough, decide_true, if_true]
    rfl
  · cases timedOut with
    | false =>
      refine ⟨false, ?_, fun impossible => absurd impossible Bool.false_ne_true⟩
      simp only [bind, Except.bind, enough, decide_false, Bool.false_eq_true, if_false]
      rfl
    | true =>
      refine ⟨decide (0 < all), ?_, fun late _ => movedAll (of_decide_eq_true late)⟩
      simp only [bind, Except.bind, enough, decide_false, Bool.false_eq_true, if_false, if_true,
        countedAll]
      rfl

/-- A call that comes to an end has received what was sent meanwhile. -/
theorem wait_for_tokens_spec (polls : List (Poll Scalar)) (packer : MultiPacker Scalar)
    (nextStep : Nat → Int) (ledger : Ledger packer nextStep)
    (sent : Sent packer.manager packer.seqLen nextStep (polls.flatMap Poll.batches))
    (ends : (waitForTokens packer polls).isSome) :
    ∃ waited, waitForTokens packer polls = some (.ok waited) ∧
      Received packer waited (polls.flatMap Poll.batches) ∧
      Ledger waited ((polls.flatMap Poll.batches).foldl sentStep nextStep) ∧
      (0 < waited.tokenBudget → ∃ idx, Poppable waited idx) := by
  induction polls generalizing packer nextStep with
  | nil => cases ends
  | cons poll rest inductionHypothesis =>
    rw [List.flatMap_cons] at sent ⊢
    obtain ⟨now, later⟩ := (sent_append _ _ _ _ _).mp sent
    obtain ⟨received, got, brought, kept⟩ := get_batch_spec poll.batches packer nextStep ledger now
    obtain ⟨stops, asked, works⟩ := stops_waiting_spec kept.usable poll.timedOut
    simp only [waitForTokens, got, asked] at ends ⊢
    cases stops with
    | true =>
      simp only at ends ⊢
      cases rest with
      | nil =>
        simp only [List.isEmpty_nil, if_true, List.flatMap_nil, List.append_nil]
        exact ⟨received, rfl, brought, kept, works rfl⟩
      | cons other others => simp at ends
    | false =>
      have sameManager : received.manager = packer.manager := by rw [brought.frame]
      have sameLimit : received.seqLen = packer.seqLen := by rw [brought.frame]
      obtain ⟨waited, finished, broughtLater, keptLater, ready⟩ :=
        inductionHypothesis received _ kept (by
          rw [sameManager, sameLimit]
          exact later) ends
      rw [List.foldl_append]
      exact ⟨waited, finished, brought.trans broughtLater, keptLater, ready⟩

/-! ## Selecting a step -/

/-- A pick that the packer makes is of its run's current step. -/
theorem pick_step {before after : MultiPacker Scalar} {selected : List (Pick Scalar)}
    {nextStep : Nat → Int} (ledger : Ledger before nextStep)
    (selecting : Selecting before after selected) {pick : Pick Scalar} (member : pick ∈ selected) :
    ∃ progress, before.manager.progress.lookup pick.runIdx = some progress ∧
      pick.step = progress.step := by
  obtain ⟨progress, found, current⟩ := selecting.current pick member
  refine ⟨progress, found, le_antisymm current ?_⟩
  have queued := ledger.queued pick.runIdx progress found
  rw [selecting.queues] at queued
  have isPicked : (pick.sample, pick.step) ∈ picksOf pick.runIdx selected := by
    refine List.mem_map.mpr ⟨pick, ?_, rfl⟩
    simpa using member
  exact (queued.within _ (List.mem_append_left _ isPicked)).1

/-- The last sample of a run's current step was picked. -/
def LastPicked (left : MultiPacker Scalar) (selected : List (Pick Scalar)) (idx : Nat)
    (step : Int) : Prop :=
  (∃ pick ∈ selected, pick.runIdx = idx) ∧ ∀ entry ∈ left.queue idx, entry.2 ≠ step

/-- What one selection does to the progress of every run. -/
structure Progresses (before left : MultiPacker Scalar) (selection : Selection Scalar) : Prop where
  frame : selection.packer = { left with manager := selection.packer.manager }
  names : selection.packer.manager.idx2Id = before.manager.idx2Id
  moved : ∀ idx progress, before.manager.progress.lookup idx = some progress →
    ∃ after, selection.packer.manager.progress.lookup idx = some after ∧
      (LastPicked left selection.selected idx progress.step → after.step = progress.step + 1) ∧
      (¬LastPicked left selection.selected idx progress.step → after.step = progress.step)
  known : ∀ idx, idx ∈ selection.packer.manager.progress ↔ idx ∈ before.manager.progress

/-- The source looks at the head of the buffer only; behind it the steps do not
come back. -/
theorem step_consumed_iff {before left : MultiPacker Scalar} {selected : List (Pick Scalar)}
    {nextStep : Nat → Int} (ledger : Ledger before nextStep)
    (selecting : Selecting before left selected) {idx : Nat} {progress : Progress}
    (found : before.manager.progress.lookup idx = some progress) :
    stepConsumed progress.step (left.queue idx) = true ↔
      ∀ entry ∈ left.queue idx, entry.2 ≠ progress.step := by
  have queued := ledger.queued idx progress found
  rw [selecting.queues] at queued
  have sorted := (List.pairwise_append.mp queued.sorted).2.1
  have least := fun entry member => (queued.within entry (List.mem_append_right _ member)).1
  cases listed : left.queue idx with
  | nil => simp [stepConsumed]
  | cons head rest =>
    rw [listed] at sorted least
    rw [stepConsumed, decide_eq_true_iff]
    constructor
    · intro later entry member
      rcases List.mem_cons.mp member with rfl | behind
      · omega
      · have after := (List.pairwise_cons.mp sorted).1 entry behind
        omega
    · intro gone
      have different := gone head List.mem_cons_self
      have atLeast := least head List.mem_cons_self
      omega

/-- A selection that picked something goes through: its picks share the step of
their run, and the progress of its runs moves. -/
theorem select_step_spec {waited left : MultiPacker Scalar} {selected : List (Pick Scalar)}
    {nextStep : Nat → Int} (ledger : Ledger waited nextStep)
    (selects : waited.selectSamplesRoundRobin = some (.ok (left, selected)))
    (selecting : Selecting waited left selected) (some : selected ≠ []) :
    ∃ selection, waited.selectStep = Option.some (.ok selection) ∧
      selection.selected = selected ∧ Progresses waited left selection := by
  obtain ⟨groups, grouping, grouped⟩ := group_samples_spec selected (by
    intro first isFirst second isSecond same
    obtain ⟨progress, found, firstStep⟩ := pick_step ledger selecting isFirst
    obtain ⟨other, otherFound, secondStep⟩ := pick_step ledger selecting isSecond
    rw [same, otherFound] at found
    rw [firstStep, secondStep, Option.some.inj found])
  have sameManager := selecting.manager
  obtain ⟨updated, updating, progressed⟩ := update_progress_spec left groups grouped.distinct (by
    intro group member
    obtain ⟨pick, listed, isRun⟩ :=
      (grouped.listed group.runIdx).mp (List.mem_map_of_mem member)
    obtain ⟨progress, found, -⟩ := selecting.current pick listed
    rw [isRun] at found
    have tracked := Finmap.mem_of_lookup_eq_some found
    rw [sameManager, selecting.size]
    exact ⟨ledger.usable.inside _ ((ledger.usable.tracked _).mp tracked), tracked⟩)
  refine ⟨⟨updated, selected, groups⟩, ?_, rfl, ?_⟩
  · rw [MultiPacker.selectStep, selects]
    simp only [List.isEmpty_iff, some, if_false, grouping, updating, bind, Except.bind]
    rfl
  · have steps := progressed.steps
    rw [sameManager] at steps
    constructor
    · change updated = { left with manager := updated.manager }
      rw [progressed.frame]
    · change updated.manager.idx2Id = _
      rw [progressed.frame, ← sameManager]
    · intro idx progress found
      have moved := steps idx
      rw [found, Option.map_some] at moved
      obtain ⟨after, foundAfter, isStep⟩ := Option.map_eq_some_iff.mp moved
      have moves : (idx ∈ groups.map RunGroup.runIdx ∧
          stepConsumed progress.step (left.queue idx) = true) ↔
          LastPicked left selected idx progress.step :=
        and_congr (grouped.listed idx) (step_consumed_iff ledger selecting found)
      refine ⟨after, foundAfter, ?_, ?_⟩
      · intro last
        rw [isStep, advanced, if_pos (moves.mpr last)]
      · intro notLast
        rw [isStep, advanced, if_neg (fun consumed => notLast (moves.mp consumed))]
    · intro idx
      have same := congrArg Option.isSome (steps idx)
      rwa [Option.isSome_map, Option.isSome_map, Bool.eq_iff_iff, Finmap.lookup_isSome,
        Finmap.lookup_isSome] at same

/-- The ledger after a selection. -/
theorem Ledger.select {waited left : MultiPacker Scalar} {selection : Selection Scalar}
    {nextStep : Nat → Int} (ledger : Ledger waited nextStep)
    (selecting : Selecting waited left selection.selected)
    (progresses : Progresses waited left selection) : Ledger selection.packer nextStep := by
  have leftUsable := selecting.usable ledger.usable
  have sameQueue : ∀ idx, selection.packer.queue idx = left.queue idx := by
    intro idx
    rw [progresses.frame]
    rfl
  have sameBuffers : selection.packer.buffers = left.buffers := by rw [progresses.frame]
  have samePosition : selection.packer.roundRobinPosition = left.roundRobinPosition := by
    rw [progresses.frame]
  have sameLimit : selection.packer.seqLen = left.seqLen := by rw [progresses.frame]
  constructor
  · constructor
    · intro idx
      rw [progresses.known, progresses.names]
      exact ledger.usable.tracked idx
    · intro idx used
      rw [progresses.names, ← selecting.manager] at used
      rw [sameBuffers]
      exact leftUsable.inside idx used
    · intro idx unused
      rw [progresses.names, ← selecting.manager] at unused
      rw [sameQueue]
      exact leftUsable.idle idx unused
    · rw [sameBuffers, samePosition]
      exact leftUsable.position
    · intro idx entry member
      rw [sameQueue] at member
      rw [sameLimit]
      exact leftUsable.valid idx entry member
  · intro idx after foundAfter
    have tracked : idx ∈ waited.manager.progress :=
      (progresses.known idx).mp (Finmap.mem_of_lookup_eq_some foundAfter)
    obtain ⟨progress, found⟩ := Finmap.mem_iff.mp tracked
    obtain ⟨same, foundSame, whenLast, otherwise⟩ := progresses.moved idx progress found
    obtain rfl := Option.some.inj (foundSame.symm.trans foundAfter)
    rw [sameQueue]
    have queued := ledger.queued idx progress found
    rw [selecting.queues] at queued
    have current : ∀ entry ∈ picksOf idx selection.selected, entry.2 ≤ progress.step := by
      intro entry member
      obtain ⟨pick, listed, rfl⟩ := List.mem_map.mp member
      obtain ⟨isPick, isRun⟩ := List.mem_filter.mp listed
      obtain ⟨own, foundOwn, isCurrent⟩ := selecting.current pick isPick
      rw [of_decide_eq_true isRun, found] at foundOwn
      rw [Option.some.inj foundOwn]
      exact isCurrent
    by_cases last : LastPicked left selection.selected idx progress.step
    · rw [whenLast last]
      refine queued.finish ?_ current ?_
      · obtain ⟨pick, listed, isRun⟩ := last.1
        refine List.ne_nil_of_mem (List.mem_map.mpr ⟨pick, ?_, rfl⟩)
        simpa using ⟨listed, isRun⟩
      · intro head isHead
        have member := List.mem_of_mem_head? isHead
        have different := last.2 head member
        have atLeast := (queued.within head (List.mem_append_right _ member)).1
        omega
    · rw [otherwise last]
      rw [LastPicked, not_and_or] at last
      rcases last with untouched | remains
      · have none : picksOf idx selection.selected = [] := by
          rw [picksOf, List.map_eq_nil_iff, List.filter_eq_nil_iff]
          intro pick listed
          simpa using fun isRun => untouched ⟨pick, listed, isRun⟩
        rwa [none, List.nil_append] at queued
      · rw [← step_consumed_iff ledger selecting found] at remains
        cases listed : left.queue idx with
        | nil =>
          rw [listed] at remains
          exact absurd rfl remains
        | cons head rest =>
          rw [listed, stepConsumed, decide_eq_true_iff, not_lt] at remains
          rw [listed] at queued
          exact queued.take current rfl remains

/-! ## Histories -/

/-- A packer with what each run's producer has sent so far, what was selected of
it, and the step it sends next. -/
structure World (Scalar : Type) where
  packer : MultiPacker Scalar
  arrived : Nat → List (Entry Scalar)
  taken : Nat → List (Entry Scalar)
  nextStep : Nat → Int

/-- Producers start at the progress of their runs. -/
def World.init (manager : MultiRunManager) (dpWorldSize : ℕ+) (seqLen padToMultipleOf : Nat)
    (binCost : List Nat → Int) : World Scalar where
  packer := .init manager dpWorldSize seqLen padToMultipleOf binCost
  arrived := fun _ => []
  taken := fun _ => []
  nextStep := fun idx => ((manager.progress.lookup idx).map Progress.step).getD 1

inductive Event (Scalar : Type)
  | pack (polls : List (Poll Scalar))
  | reset (idx : Nat)

/-- The trainer has updated the weights of a run. -/
def MultiPacker.resetReady (packer : MultiPacker Scalar) (idx : Nat) : MultiPacker Scalar :=
  { packer with manager := { packer.manager with
    readyToUpdate := packer.manager.readyToUpdate.set idx false } }

section World
variable [Zero Scalar] [One Scalar] [DecidableEq Scalar]

/-- An exception ends the history. -/
def World.step (numpy : Numpy) (world : World Scalar) : Event Scalar → Option (World Scalar)
  | .pack polls =>
      match world.packer.pack numpy polls with
      | some (.ok packed) =>
          let batches := polls.flatMap Poll.batches
          some {
            packer := packed.selection.packer
            arrived := fun idx => world.arrived idx ++ entriesOf idx batches
            taken := fun idx => world.taken idx ++ picksOf idx packed.selection.selected
            nextStep := batches.foldl sentStep world.nextStep }
      | _ => none
  | .reset idx => some { world with packer := world.packer.resetReady idx }

end World

/-- The polls of a call are those of one whole call, and return what the
producers send. -/
def Produced (world : World Scalar) : Event Scalar → Prop
  | .pack polls =>
      Sent world.packer.manager world.packer.seqLen world.nextStep (polls.flatMap Poll.batches) ∧
        (waitForTokens world.packer polls).isSome
  | .reset _ => True

instance Sent.decidable (manager : MultiRunManager) (seqLen : Nat) :
    (nextStep : Nat → Int) → (batches : List (TrainingBatch Scalar)) →
      Decidable (Sent manager seqLen nextStep batches)
  | _, [] => isTrue trivial
  | nextStep, batch :: rest =>
      have := Sent.decidable manager seqLen (sentStep nextStep batch) rest
      decidable_of_iff
        ((∃ idx ∈ manager.idx2Id.keys, batch.runIdx = some idx ∧ batch.step = nextStep idx) ∧
          batch.examples.isEmpty = false ∧
          (∀ sample ∈ batch.examples, (validateSample seqLen sample).toOption.isSome) ∧
          Sent manager seqLen (sentStep nextStep batch) rest)
        (by
          have passes : ∀ sample : TrainingSample Scalar,
              (validateSample seqLen sample).toOption.isSome ↔
                validateSample seqLen sample = .ok () := by
            intro sample
            cases validateSample seqLen sample <;> simp [Except.toOption]
          simp [Sent, passes])

instance Produced.decidable (world : World Scalar) : ∀ event, Decidable (Produced world event)
  | .pack _ => inferInstanceAs (Decidable (_ ∧ _))
  | .reset _ => isTrue trivial

/-- What was selected of a run is what it sent, in order, up to what is
buffered; its progress is the oldest buffered step, or the step to come next. -/
def Accounted (world : World Scalar) : Prop :=
  ∀ idx progress, world.packer.manager.progress.lookup idx = some progress →
    world.arrived idx = world.taken idx ++ world.packer.queue idx ∧
      progress.step = (((world.packer.queue idx).head?.map (fun entry => entry.2)).getD
        (world.nextStep idx))

/-- What one call does between its last poll and the packing of its samples. -/
def SelectsStep (packer : MultiPacker Scalar) (polls : List (Poll Scalar)) : Prop :=
  ∃ waited left selected, waitForTokens packer polls = some (.ok waited) ∧
    waited.selectSamplesRoundRobin = some (.ok (left, selected)) ∧
    pickTokens selected ≤ packer.seqLen * packer.dpWorldSize ∧
    (∀ idx, waited.queue idx = picksOf idx selected ++ left.queue idx) ∧
    ((∃ idx, Poppable waited idx) → selected ≠ []) ∧
    (selected ≠ [] → ∃ selection, waited.selectStep = some (.ok selection) ∧
      selection.selected = selected ∧ Progresses waited left selection)

/-- The ledger and the logs together. -/
structure Kept (world : World Scalar) : Prop where
  ledger : Ledger world.packer world.nextStep
  logs : ∀ idx, world.arrived idx = world.taken idx ++ world.packer.queue idx

theorem kept_init (manager : MultiRunManager) (consistent : Consistent manager) (dpWorldSize : ℕ+)
    (seqLen padToMultipleOf : Nat) (binCost : List Nat → Int) :
    Kept (World.init manager dpWorldSize seqLen padToMultipleOf binCost : World Scalar) := by
  have empty : ∀ idx, (MultiPacker.init manager dpWorldSize seqLen padToMultipleOf binCost :
      MultiPacker Scalar).queue idx = [] := by
    intro idx
    simp only [MultiPacker.queue, MultiPacker.init, List.getD_eq_getElem?_getD,
      List.getElem?_replicate]
    split <;> rfl
  constructor
  · constructor
    · constructor
      · exact consistent.progress_keys
      · intro idx used
        simp only [World.init, MultiPacker.init, List.length_replicate]
        exact consistent.slots.bounded idx used
      · exact fun idx _ => empty idx
      · intro nonempty
        exact List.length_pos_iff.mpr nonempty
      · intro idx entry member
        rw [World.init, empty] at member
        cases member
    · intro idx progress found
      have start : (World.init manager dpWorldSize seqLen padToMultipleOf binCost :
          World Scalar).nextStep idx = progress.step := by
        change ((manager.progress.lookup idx).map Progress.step).getD 1 = _
        rw [show manager.progress.lookup idx = some progress from found]
        rfl
      rw [start, World.init, empty]
      exact queued_nil Prod.snd progress.step
  · intro idx
    rw [World.init, empty]
    rfl

theorem Kept.accounted {world : World Scalar} (kept : Kept world) : Accounted world := by
  intro idx progress found
  refine ⟨kept.logs idx, ?_⟩
  have queued := kept.ledger.queued idx progress found
  cases listed : world.packer.queue idx with
  | nil =>
    rw [listed] at queued
    exact queued.caught_up
  | cons head rest =>
    rw [listed, ← List.nil_append (head :: rest)] at queued
    exact (queued.head rfl).symm

/-- One call, from a state that is kept. -/
theorem Kept.selects {world : World Scalar} (kept : Kept world) {polls : List (Poll Scalar)}
    (produced : Produced world (.pack polls)) :
    ∃ waited left selected, waitForTokens world.packer polls = some (.ok waited) ∧
      Received world.packer waited (polls.flatMap Poll.batches) ∧
      Ledger waited ((polls.flatMap Poll.batches).foldl sentStep world.nextStep) ∧
      waited.selectSamplesRoundRobin = some (.ok (left, selected)) ∧
      Selecting waited left selected ∧
      ((∃ idx, Poppable waited idx) → selected ≠ []) := by
  obtain ⟨waited, ends, received, ledger, -⟩ := wait_for_tokens_spec polls world.packer
    world.nextStep kept.ledger produced.1 produced.2
  obtain ⟨left, selected, selects, selecting, -, works⟩ := select_from_spec ledger.usable
    (waited.buffered + 1) waited [] (selecting_start ledger.usable) (Nat.lt_succ_self _)
  exact ⟨waited, left, selected, ends, received, ledger, selects, selecting, works rfl⟩

theorem Kept.selects_step {world : World Scalar} (kept : Kept world) {polls : List (Poll Scalar)}
    (produced : Produced world (.pack polls)) : SelectsStep world.packer polls := by
  obtain ⟨waited, left, selected, ends, received, ledger, selects, selecting, works⟩ :=
    kept.selects produced
  have sameBudget : waited.tokenBudget = world.packer.seqLen * world.packer.dpWorldSize := by
    rw [received.frame]
    rfl
  refine ⟨waited, left, selected, ends, selects, sameBudget ▸ selecting.bound, selecting.queues,
    works, ?_⟩
  intro some
  exact select_step_spec ledger selects selecting some

section World
variable [Zero Scalar] [One Scalar] [DecidableEq Scalar]

/-- Calls and resets keep the ledger and the logs. -/
theorem step_kept (numpy : Numpy) {world next : World Scalar} {event : Event Scalar}
    (kept : Kept world) (produced : Produced world event)
    (accepted : world.step numpy event = some next) : Kept next := by
  cases event with
  | reset idx =>
    obtain rfl := Option.some.inj accepted
    obtain ⟨⟨⟨tracked, inside, idle, position, valid⟩, queued⟩, logs⟩ := kept
    exact ⟨⟨⟨tracked, inside, idle, position, valid⟩, queued⟩, logs⟩
  | pack polls =>
    obtain ⟨waited, left, selected, ends, received, ledger, selects, selecting, -⟩ :=
      kept.selects produced
    by_cases nonempty : selected = []
    · simp [World.step, MultiPacker.pack, ends, MultiPacker.selectStep, selects, nonempty, bind,
        Except.bind] at accepted
    · obtain ⟨selection, stepped, isSelected, progresses⟩ :=
        select_step_spec ledger selects selecting nonempty
      rw [← isSelected] at selecting
      rw [World.step, MultiPacker.pack, ends] at accepted
      simp only [stepped] at accepted
      cases packing : selection.packer.packGroups numpy selection.groups with
      | error message => simp [packing, bind, Except.bind] at accepted
      | ok grid =>
        cases checked : assertGrid world.packer.dpWorldSize grid with
        | error message => simp [packing, checked, bind, Except.bind] at accepted
        | ok _ =>
          simp only [packing, checked, bind, Except.bind] at accepted
          obtain rfl := Option.some.inj accepted
          refine ⟨ledger.select selecting progresses, fun idx => ?_⟩
          have sameQueue : selection.packer.queue idx = left.queue idx := by
            rw [progresses.frame]
            rfl
          change world.arrived idx ++ _ = (world.taken idx ++ _) ++ selection.packer.queue idx
          rw [kept.logs idx, sameQueue, List.append_assoc, List.append_assoc,
            ← selecting.queues idx, received.queues idx]

/-- Whatever producers send is selected once and in order, one step of a run at
a time and within the budget, and each run's progress follows. -/
def ConsumesOnce (numpy : Numpy) (world : World Scalar) (event : Event Scalar) : Prop :=
  Accounted world ∧ (∀ polls, event = .pack polls → SelectsStep world.packer polls) ∧
    ∀ next, world.step numpy event = some next → Accounted next

theorem packer_consumes_once (numpy : Numpy) (manager : MultiRunManager)
    (consistent : Consistent manager) (dpWorldSize : ℕ+) (seqLen padToMultipleOf : Nat)
    (binCost : List Nat → Int) (history : List (Event Scalar))
    (produced : Machine.Along (World.step numpy) Produced
      (.init manager dpWorldSize seqLen padToMultipleOf binCost) history) :
    Machine.Along (World.step numpy) (ConsumesOnce numpy)
      (.init manager dpWorldSize seqLen padToMultipleOf binCost) history := by
  refine Machine.along_of_invariant Kept ?_ ?_ history
    (kept_init manager consistent dpWorldSize seqLen padToMultipleOf binCost) produced
  · intro world event kept sent
    refine ⟨kept.accounted, ?_, ?_⟩
    · rintro polls rfl
      exact kept.selects_step sent
    · intro next accepted
      exact (step_kept numpy kept sent accepted).accounted
  · intro world event next kept sent accepted
    exact step_kept numpy kept sent accepted

end World

/-- One run, in the first of two slots. -/
def oneRun : MultiRunManager :=
  { MultiRunManager.init (fun value => value) 0 2 with
    id2Idx := Finmap.insert "run_a" 0 ∅
    idx2Id := Finmap.insert 0 "run_a" ∅
    unusedIdxs := (Finset.range 2).erase 0
    progress := Finmap.insert 0 ⟨1, 0, 0⟩ ∅
    config := Finmap.insert 0 ⟨none, ⟨none⟩⟩ ∅ }

theorem one_run_consistent : Consistent oneRun where
  slots := (SlotTable.agrees_empty 2).take Finmap.notMem_empty (by decide)
  progress_keys := by
    intro idx
    simp only [oneRun, Finmap.mem_insert, Finmap.notMem_empty]
  config_keys := by
    intro idx
    simp only [oneRun, Finmap.mem_insert, Finmap.notMem_empty]
  scaling_length := rfl

/-- A group whose text rows fill the workers evenly is packed. -/
theorem run_grid_accepts {packer : MultiPacker Rat} {group : RunGroup Rat}
    {rows : List (MicroBatch Rat)} (known : group.runIdx ∈ packer.manager.idx2Id)
    (groups : preparedGroups noImages group.samples packer.seqLen packer.dpWorldSize
      (List.replicate group.samples.length group.runIdx) packer.manager.maxRuns packer.binCost
      packer.padToMultipleOf = .ok ([], rows))
    (divides : rows.length % packer.dpWorldSize = 0) :
    ∃ grid, packer.runGrid noImages group = .ok grid := by
  obtain ⟨runId, found⟩ := Finmap.mem_iff.mp known
  obtain ⟨mmGrid, -, mmDealt, -⟩ := distribute_group_even ([] : List (MicroBatch Rat))
    packer.dpWorldSize packer.binCost packer.dpWorldSize.pos (Nat.zero_mod _)
  obtain ⟨textGrid, -, textDealt, -⟩ := distribute_group_even rows packer.dpWorldSize packer.binCost
    packer.dpWorldSize.pos divides
  simp only [MultiPacker.runGrid, prepareBatch, groups, mmDealt, textDealt, subscript_ok found,
    bind, Except.bind, pure, Except.pure]
  exact ⟨_, rfl⟩

theorem pack_groups_accepts {packer : MultiPacker Rat} {groups : List (RunGroup Rat)}
    (packs : ∀ group ∈ groups, ∃ grid, packer.runGrid noImages group = .ok grid) :
    ∃ grid, packer.packGroups noImages groups = .ok grid ∧
      grid.length = (packer.dpWorldSize : Nat) := by
  have general (pending : List (RunGroup Rat)) (inside : ∀ group ∈ pending, group ∈ groups)
      (all : List (List (MicroBatch Rat))) (workers : all.length = packer.dpWorldSize) :
      ∃ grid, pending.foldlM (fun all group => do
        let grid ← packer.runGrid noImages group
        return mergeGrid all grid) all = .ok grid ∧
          grid.length = (packer.dpWorldSize : Nat) := by
    induction pending generalizing all with
    | nil => exact ⟨all, rfl, workers⟩
    | cons group rest inductionHypothesis =>
      obtain ⟨here, later⟩ := List.forall_mem_cons.mp inside
      obtain ⟨grid, packed⟩ := packs group here
      rw [List.foldlM_cons, packed]
      exact inductionHypothesis later (mergeGrid all grid)
        (by rw [mergeGrid, List.length_mapIdx, workers])
  exact general _ (fun group member => by simpa using member) _ List.length_replicate

theorem single_grid_checked {dpWorldSize : Nat} (worker : List (MicroBatch Rat))
    (alone : dpWorldSize = 1) : assertGrid dpWorldSize [worker] = .ok () := by
  rw [assert_grid_iff]
  refine ⟨alone.symm, worker.length, ?_⟩
  intro list member
  rw [List.mem_singleton.mp member]

/-- With one data rank a call sends what it selected. -/
theorem pack_accepts {packer waited : MultiPacker Rat} {polls : List (Poll Rat)}
    {selection : Selection Rat} (waits : waitForTokens packer polls = some (.ok waited))
    (selects : waited.selectStep = some (.ok selection))
    (single : selection.packer.dpWorldSize = packer.dpWorldSize) (alone : packer.dpWorldSize = 1)
    (packs : ∀ group ∈ selection.groups,
      ∃ grid, selection.packer.runGrid noImages group = .ok grid) :
    ∃ grid, packer.pack noImages polls = some (.ok ⟨selection, grid⟩) := by
  obtain ⟨grid, packed, ranks⟩ := pack_groups_accepts packs
  rw [single] at ranks
  have one : (packer.dpWorldSize : Nat) = 1 := by rw [alone]; rfl
  obtain ⟨worker, rfl⟩ := List.length_eq_one_iff.mp (ranks.trans one)
  have checked := single_grid_checked worker one
  simp only [MultiPacker.pack, waits, selects, packed, checked, bind, Except.bind]
  exact ⟨_, rfl⟩

/-- A second run, in the other slot. -/
def twoRuns : MultiRunManager :=
  { oneRun with
    id2Idx := Finmap.insert "run_b" 1 oneRun.id2Idx
    idx2Id := Finmap.insert 1 "run_b" oneRun.idx2Id
    unusedIdxs := oneRun.unusedIdxs.erase 1
    progress := Finmap.insert 1 ⟨1, 0, 0⟩ oneRun.progress
    config := Finmap.insert 1 ⟨none, ⟨none⟩⟩ oneRun.config }

theorem two_runs_consistent : Consistent twoRuns where
  slots := one_run_consistent.slots.take (by decide) (by decide)
  progress_keys := by
    intro idx
    simp only [twoRuns, Finmap.mem_insert, one_run_consistent.progress_keys]
  config_keys := by
    intro idx
    simp only [twoRuns, Finmap.mem_insert, one_run_consistent.config_keys]
  scaling_length := rfl

def twoRunsWorld : World Rat :=
  .init twoRuns ⟨1, Nat.one_pos⟩ 8 1 (fun lengths => (lengths.sum : Int))

/-- The first run sends five tokens, which fill no row, and then the second sends six. -/
def firstPolls : List (Poll Rat) :=
  [⟨[⟨[creditedSample, supervisedSample], 1, some 0⟩], false⟩,
    ⟨[⟨[creditedSample, creditedSample], 1, some 1⟩], false⟩]

/-- Then the first run sends its second step. -/
def secondPolls : List (Poll Rat) := [⟨[⟨[creditedSample, supervisedSample], 2, some 0⟩], false⟩]

/-- What has arrived when the first call stops waiting. -/
def firstWaited : MultiPacker Rat :=
  { twoRunsWorld.packer with
    buffers := [[(creditedSample, 1), (supervisedSample, 1)],
      [(creditedSample, 1), (creditedSample, 1)]] }

/-- The whole step of the first run, and half of the second run's. -/
def firstSelection : Selection Rat where
  packer := { twoRunsWorld.packer with
    manager := { twoRuns with
      progress := (twoRuns.progress.insert 0 ⟨2, 5, 2⟩).insert 1 ⟨1, 3, 1⟩
      readyToUpdate := [true, false] }
    buffers := [[], [(creditedSample, 1)]]
    roundRobinPosition := 0 }
  selected := [⟨0, creditedSample, 1⟩, ⟨0, supervisedSample, 1⟩, ⟨1, creditedSample, 1⟩]
  groups := [⟨0, 1, [creditedSample, supervisedSample], 2, 5⟩, ⟨1, 1, [creditedSample], 1, 3⟩]

theorem first_packs :
    ∃ grid, twoRunsWorld.packer.pack noImages firstPolls = some (.ok ⟨firstSelection, grid⟩) := by
  have waits : waitForTokens twoRunsWorld.packer firstPolls = some (.ok firstWaited) := rfl
  have selects : firstWaited.selectStep = some (.ok firstSelection) := rfl
  refine pack_accepts waits selects rfl rfl ?_
  rw [show firstSelection.groups = [⟨0, 1, [creditedSample, supervisedSample], 2, 5⟩,
    ⟨1, 1, [creditedSample], 1, 3⟩] from rfl, List.forall_mem_cons, List.forall_mem_singleton]
  constructor
  · obtain ⟨⟨mmBatches, rows⟩, groups, shape⟩ := Fallible.map_ok
      (show (preparedGroups noImages [creditedSample, supervisedSample] 8 1 [0, 0] 2
        (fun lengths => (lengths.sum : Int)) 1).map (fun groups => groups.1) = .ok []
        by decide +kernel)
    obtain rfl : mmBatches = [] := shape
    exact run_grid_accepts (by decide) groups (Nat.mod_one _)
  · obtain ⟨⟨mmBatches, rows⟩, groups, shape⟩ := Fallible.map_ok
      (show (preparedGroups noImages [creditedSample] 8 1 [1] 2
        (fun lengths => (lengths.sum : Int)) 1).map (fun groups => groups.1) = .ok []
        by decide +kernel)
    obtain rfl : mmBatches = [] := shape
    exact run_grid_accepts (by decide) groups (Nat.mod_one _)

/-- Two runs share a row. The second run's step is packed in halves, in the row of the first
run's first step and in that of its second step. -/
theorem packer_consumes_once_halves :
    let history : List (Event Rat) := [.pack firstPolls, .reset 0, .pack secondPolls]
    Machine.Along (World.step noImages) (ConsumesOnce noImages) twoRunsWorld history ∧
      ∃ next, twoRunsWorld.step noImages (.pack firstPolls) = some next ∧
        (next.packer.queue 0, next.packer.queue 1) = ([], [(creditedSample, 1)]) ∧
        next.packer.manager.readyToUpdate = [true, false] := by
  intro history
  obtain ⟨grid, packed⟩ := first_packs
  have produced : Machine.Along (World.step noImages) Produced twoRunsWorld history := by
    refine ⟨by decide +kernel, fun first sends => ⟨trivial, fun later resets => ⟨?_, fun _ _ => trivial⟩⟩⟩
    rw [World.step, packed] at sends
    obtain rfl := Option.some.inj sends
    obtain rfl := Option.some.inj resets
    exact (show Sent (firstSelection.packer.resetReady 0).manager 8
        ((firstPolls.flatMap Poll.batches).foldl sentStep twoRunsWorld.nextStep)
        (secondPolls.flatMap Poll.batches) ∧
          (waitForTokens (firstSelection.packer.resetReady 0) secondPolls).isSome by decide +kernel)
  refine ⟨packer_consumes_once noImages twoRuns two_runs_consistent ⟨1, Nat.one_pos⟩ 8 1
    (fun lengths => (lengths.sum : Int)) history produced, ?_⟩
  rw [World.step, packed]
  exact ⟨_, rfl, rfl, rfl⟩

end PrimeRl.Trainer.Packer
