import PrimeRl.Pipeline.PolicyCompletion

/-!
# Handing a policy over through directories

The trainer writes a directory for each step and removes the one of two steps ago,
without asking whether it is being read. The gate is what keeps a reader safe: as long
as batches are completed while it is open, the trainer is at most two steps ahead of
the adopted policy, and a reader reads a newer one.
-/

namespace PrimeRl.PolicyUpdates

variable {config : PipelineConfig} {state after : Pipeline} {event : Event}

theorem mem_maybe_clean {stable : List Nat} {step published : Nat} (interval : Option Nat)
    (listed : published ∈ stable) (other : published ≠ step - 2) :
    published ∈ maybeClean stable step interval := by
  have kept : published ∈ stable.filter fun published => decide (published ≠ step - 2) :=
    List.mem_filter.mpr ⟨listed, by simpa using other⟩
  cases interval with
  | none => exact kept
  | some interval =>
    simp only [maybeClean]
    split
    · exact listed
    · exact kept

theorem maybe_clean_subset {stable : List Nat} {step published : Nat} (interval : Option Nat)
    (listed : published ∈ maybeClean stable step interval) : published ∈ stable := by
  cases interval with
  | none => exact List.mem_of_mem_filter listed
  | some interval =>
    simp only [maybeClean] at listed
    split at listed
    · exact listed
    · exact List.mem_of_mem_filter listed

/-- Directories, readers and engines of runs whose batches are completed while the gate is open. -/
structure Pipeline.Directories (config : PipelineConfig) (state : Pipeline) : Prop where
  ordered : state.Ordered config
  never : ¬state.Offering
  started : 0 < state.trainerStep
  written : ∀ step ∈ state.stable, step ≤ state.trainerStep
  /-- The newest directory stands. -/
  newest : state.trainer = .waiting ∨ state.trainer = .trained →
    state.trainerStep - 1 ∈ state.stable ∨ state.trainerStep = config.resumeStep.getD 0 + 1
  published : state.trainer ≠ .waiting → state.trainer ≠ .trained →
    state.trainerStep ∈ state.stable
  onTime : state.unsent ≤ state.version + 3
  reading : ∀ nextStep, state.watcher.target = some nextStep → nextStep ∈ state.stable
  held : (∀ nextStep, state.watcher ≠ .received nextStep) → state.weights = state.ckptStep
  received : ∀ nextStep, state.watcher = .received nextStep → state.weights = nextStep
  kept : config.resumeStep.getD 0 ≤ state.ckptStep
  adopted : state.ckptStep ≤ state.trainerStep

/-- The directory that is removed is not newer than the adopted policy. -/
theorem Pipeline.Directories.removed_old (directories : state.Directories config)
    (published : state.trainer = .published) : state.trainerStep - 2 ≤ state.version := by
  have behind := directories.ordered.inOrder.1
  have onTime := directories.onTime
  simp only [Pipeline.nextBatch, published, reduceCtorEq, if_false] at behind
  omega

theorem directories_step (filesystem : config.weightBroadcast = .filesystem) (due : state.Due event)
    (step : Step config state event after) (directories : state.Directories config) :
    after.Directories config := by
  have ordered := ordered_step step directories.ordered
  have removed := directories.removed_old
  obtain ⟨earlier, never, started, written, newest, published, onTime, reading, held, received,
    kept, adopted⟩ := directories
  cases step with
  | announce trained used nccl => simp [filesystem] at nccl
  | skip trained unused => simp [ncclBroadcastUnused, filesystem] at unused
  | proceed announced => exact absurd (.inl announced) never
  | transfer nextStep running sending => exact absurd (.inr sending) never
  | send running open_ counted within =>
    have allowed := earlier.gated.lagging (due rfl)
    simp only [gateOpen, targetLag, gt_iff_lt, decide_eq_true_eq] at allowed
    refine ⟨ordered, never, started, written, newest, published, ?_, reading, held, received, kept, adopted⟩
    simp only [Pipeline.unsent, if_true]
    omega
  | ship running shipping =>
    refine ⟨ordered, never, started, written, newest, published, ?_, reading, held, received, kept, adopted⟩
    simpa [Pipeline.unsent, Pipeline.updateDispatchGate, shipping] using onTime
  | poll running idle newer =>
    refine ⟨ordered, never, started, written, newest, published, onTime, ?_,
      fun _ => held (by simp [idle]), by simp, kept, adopted⟩
    rintro nextStep target
    obtain rfl := Option.some.inj target
    have listed : computeNextCkptStep state ∈ state.stable := next_ckpt_mem earlier.gated newer
    exact listed
  | confirm nextStep running waiting =>
    exact ⟨ordered, never, started, written, newest, published, onTime,
      fun other target => reading other (by rw [waiting]; exact target),
      fun _ => held (by simp [waiting]), by simp, kept, adopted⟩
  | drain nextStep running pending =>
    exact ⟨ordered, never, started, written, newest, published, onTime,
      fun other target => reading other (by rw [pending]; exact target),
      fun _ => held (by simp [pending]), by simp, kept, adopted⟩
  | pause nextStep running pausing =>
    exact ⟨ordered, never, started, written, newest, published, onTime,
      fun other target => reading other (by rw [pausing]; exact target),
      fun _ => held (by simp [pausing]), by simp, kept, adopted⟩
  | load nextStep running _ receiving =>
    exact ⟨ordered, never, started, written, newest, published, onTime,
      fun other target => reading other (by rw [receiving]; exact target), by simp,
      fun other phase => WatcherPhase.received.inj phase, kept, adopted⟩
  | adopt nextStep running receives =>
    have newer := earlier.gated.newer nextStep (by rw [receives]; rfl)
    have same := earlier.gated.adopted
    refine ⟨ordered, never, started, written, newest, published, ?_, by simp [WatcherPhase.target],
      fun _ => received nextStep receives, by simp, kept.trans newer.le,
      written nextStep (reading nextStep (by rw [receives]; rfl))⟩
    change state.unsent ≤ nextStep + 3
    omega
  | notify nextStep running announcing =>
    exact ⟨ordered, never, started, written, newest, published, onTime,
      by simp [WatcherPhase.target], fun _ => held (by simp [announcing]), by simp, kept, adopted⟩
  | take batch rest waiting =>
    exact ⟨ordered, by simp [Pipeline.Offering], started, written,
      fun _ => newest (.inl waiting), by simp, onTime, reading, held, received, kept, adopted⟩
  | publish trained =>
    refine ⟨ordered, by simp [Pipeline.Offering], started, fun step listed => ?_, by simp,
      by simp, onTime, fun nextStep target => List.mem_append_left _ (reading nextStep target),
      held, received, kept, adopted⟩
    rcases List.mem_append.mp listed with older | new
    · exact written step older
    · exact (List.mem_singleton.mp new).le
  | clean written_ =>
    refine ⟨ordered, by simp [Pipeline.Offering], started,
      fun step listed => written step (maybe_clean_subset _ listed), by simp, fun _ _ => ?_, onTime,
      fun nextStep target => ?_, held, received, kept, adopted⟩
    · exact mem_maybe_clean _ (published (by simp [written_]) (by simp [written_]))
        (Nat.sub_lt started (by decide)).ne'
    · have newer := earlier.gated.newer nextStep target
      have old := removed written_
      have same := earlier.gated.adopted
      exact mem_maybe_clean _ (reading nextStep target) (by omega)
  | exit broadcast =>
    exact ⟨ordered, by simp [Pipeline.Offering], started, written, by simp,
      fun _ _ => published (by simp [broadcast]) (by simp [broadcast]), onTime, reading, held,
      received, kept, adopted⟩
  | finish broadcast =>
    refine ⟨ordered, by simp [Pipeline.Offering], Nat.succ_pos _,
      fun step listed => (written step listed).trans (Nat.le_succ _), fun _ => .inl ?_,
      by simp, onTime, reading, held, received, kept, adopted.trans (Nat.le_succ _)⟩
    exact published (by simp [broadcast]) (by simp [broadcast])
  | past | stop =>
    exact ⟨ordered, never, started, written, newest, published, onTime, reading, held, received,
      kept, adopted⟩

variable {stable ncclReady : List Nat}

theorem restored_directories
    (within : ∀ maxSteps, config.maxSteps = some maxSteps → config.resumeStep.getD 0 < maxSteps)
    (written : ∀ step ∈ stable, step ≤ config.resumeStep.getD 0) :
    (Pipeline.restored config stable ncclReady).Directories config := by
  refine ⟨restored_ordered within, by simp [Pipeline.Offering, Pipeline.restored], Nat.succ_pos _,
    fun step listed => (written step listed).trans (Nat.le_succ _), fun _ => .inr rfl,
    by simp [Pipeline.restored], ?_, by simp [Pipeline.restored, WatcherPhase.target],
    fun _ => rfl, by simp [Pipeline.restored], Nat.le_refl _, Nat.le_succ _⟩
  simp [Pipeline.restored, Pipeline.unsent]

theorem directories_live {maxSteps : Nat} (filesystem : config.weightBroadcast = .filesystem)
    (limit : config.maxSteps = some maxSteps) (directories : state.Directories config)
    (unfinished : ¬(state.stopped = true ∧ state.trainer = .exited)) : state.Live config := by
  have ordered := directories.ordered
  by_cases calm : state.stopped = true ∨ state.watcher = .idle ∧
      ¬state.ckptStep < computeNextCkptStep state
  · cases trainer : state.trainer with
    | restoring => exact absurd trainer ordered.limited.trainerRestored
    | announced => exact absurd (.inl trainer) directories.never
    | sending => exact absurd (.inr trainer) directories.never
    | trained => exact trainer_live (.inl trainer)
    | published => exact trainer_live (.inr (.inl trainer))
    | broadcast => exact trainer_live (.inr (.inr trainer))
    | waiting =>
      refine waiting_live limit ordered trainer fun running all => ?_
      obtain ⟨idle, adopted⟩ := calm.resolve_left (by simp [running])
      refine ⟨by simp [idle], ?_⟩
      have kept := directories.kept
      rw [← ordered.gated.adopted] at kept adopted
      rcases directories.newest (.inl trainer) with listed | first
      · have latest := le_latest listed
        simp only [computeNextCkptStep] at adopted
        omega
      · omega
    | exited =>
      have running : state.stopped = false := by
        cases stopped : state.stopped with
        | false => rfl
        | true => exact absurd ⟨stopped, trainer⟩ unfinished
      exact exited_live limit ordered trainer running
        (by simp [requiredBroadcastsAdopted, filesystem])
  · obtain ⟨running, busy⟩ := not_or.mp calm
    have running : state.stopped = false := by simpa using running
    cases watcher : state.watcher with
    | restoring => exact absurd watcher ordered.gated.restored
    | pending nextStep => exact watcher_live running (.inl watcher)
    | pausing nextStep => exact watcher_live running (.inr (.inl watcher))
    | received nextStep => exact watcher_live running (.inr (.inr (.inl watcher)))
    | announcing nextStep => exact watcher_live running (.inr (.inr (.inr watcher)))
    | waiting nextStep =>
      have listed := directories.reading nextStep (by rw [watcher]; rfl)
      exact live_of_other .confirm (by simp) (by simp [Pipeline.next, running, watcher, listed])
    | receiving nextStep =>
      have listed := directories.reading nextStep (by rw [watcher]; rfl)
      exact live_of_other .load (by simp)
        (by simp [Pipeline.next, running, watcher, listed, filesystem])
    | idle =>
      have newer : state.ckptStep < computeNextCkptStep state := by
        by_contra older
        exact busy ⟨watcher, older⟩
      exact live_of_other .poll (by simp) (by simp [Pipeline.next, running, watcher, newer])

theorem init_filesystem (filesystem : config.weightBroadcast = .filesystem) :
    Pipeline.init config stable ncclReady = Pipeline.restored config stable ncclReady :=
  init_dead (by simp [filesystem])

theorem run_directories {events : List Event} (filesystem : config.weightBroadcast = .filesystem)
    (within : ∀ maxSteps, config.maxSteps = some maxSteps → config.resumeStep.getD 0 < maxSteps)
    (written : ∀ step ∈ stable, step ≤ config.resumeStep.getD 0)
    (onTime : Machine.Along (Pipeline.next config) Pipeline.Due
      (Pipeline.init config stable ncclReady) events)
    (ran : Machine.run (Pipeline.next config) (Pipeline.init config stable ncclReady) events =
      some state) : state.Directories config := by
  rw [init_filesystem filesystem] at onTime ran
  exact Machine.run_invariant_along (Pipeline.Directories config)
    (fun _ _ _ directories due accepted => directories_step filesystem due
      (next_step directories.ordered.gated.restored accepted) directories)
    (restored_directories within written) onTime ran

/-- Policies over the filesystem, wherever a run stands whose batches are completed while the gate
is open. The directory of an update is there until its policy is adopted, however far the trainer
has come meanwhile, so that a load never fails. The engines hold the version in force, or between a
load and its adoption the newer one, and the trainer is at most three steps past it. -/
theorem directories_outlive_readers (config : PipelineConfig) (stable ncclReady : List Nat)
    (filesystem : config.weightBroadcast = .filesystem)
    (within : ∀ maxSteps, config.maxSteps = some maxSteps → config.resumeStep.getD 0 < maxSteps)
    (written : ∀ step ∈ stable, step ≤ config.resumeStep.getD 0)
    (events : List Event) (state : Pipeline)
    (onTime : Machine.Along (Pipeline.next config) Pipeline.Due
      (Pipeline.init config stable ncclReady) events)
    (ran : Machine.run (Pipeline.next config) (Pipeline.init config stable ncclReady) events =
      some state) :
    (∀ nextStep, state.watcher.target = some nextStep →
      nextStep ∈ state.stable ∧ state.version < nextStep) ∧
    (∀ nextStep, state.stopped = false → state.watcher = .receiving nextStep →
      ∃ after, state.next config .load = some after ∧ after.weights = nextStep) ∧
    ((∀ nextStep, state.watcher ≠ .received nextStep) → state.weights = state.version) ∧
    (∀ nextStep, state.watcher = .received nextStep → state.weights = nextStep) ∧
    state.version ≤ state.trainerStep ∧ state.trainerStep ≤ state.version + 3 := by
  have directories := run_directories filesystem within written onTime ran
  have ordered := directories.ordered
  refine ⟨fun nextStep target => ⟨directories.reading nextStep target, ?_⟩,
    fun nextStep running phase => ?_, fun settled => ?_, directories.received, ?_, ?_⟩
  · rw [ordered.gated.adopted]
    exact ordered.gated.newer nextStep target
  · have listed := directories.reading nextStep (by rw [phase]; rfl)
    exact ⟨{ state with weights := nextStep, watcher := .received nextStep },
      by simp [Pipeline.next, running, filesystem, phase, listed], rfl⟩
  · rw [ordered.gated.adopted]
    exact directories.held settled
  · rw [ordered.gated.adopted]
    exact directories.adopted
  · have behind := ordered.inOrder.1
    have lag := directories.onTime
    simp only [Pipeline.nextBatch] at behind
    omega

/-- A directory that stays while the trainer is two steps ahead. -/
theorem directories_outlive_first_reader :
    let config : PipelineConfig := ⟨.filesystem, none, none, none⟩
    ∃ state, Machine.run (Pipeline.next config) (Pipeline.init config [] [])
        [.send, .ship, .send, .ship, .take, .publish, .clean, .finish, .poll, .confirm, .drain,
          .pause, .take, .publish, .clean] = some state ∧
      state.trainerStep = 2 ∧ state.watcher = .receiving 1 ∧ 1 ∈ state.stable := by
  refine ⟨_, rfl, rfl, rfl, ?_⟩
  exact ((directories_outlive_readers ⟨.filesystem, none, none, none⟩ [] [] rfl (by simp) (by simp)
    [.send, .ship, .send, .ship, .take, .publish, .clean, .finish, .poll, .confirm, .drain,
      .pause, .take, .publish, .clean] _ (by decide) rfl).1 1 rfl).1

-- A batch completed behind the closed gate lets the trainer remove what is being read.
example :
    let config : PipelineConfig := ⟨.filesystem, none, none, none⟩
    ∃ state, Machine.run (Pipeline.next config) (Pipeline.init config [] [])
        [.send, .ship, .send, .ship, .take, .publish, .clean, .finish, .poll, .confirm, .drain,
          .pause, .take, .publish, .clean, .finish, .send, .ship, .take, .publish, .clean] =
          some state ∧
      state.watcher = .receiving 1 ∧ state.next config .load = none :=
  ⟨_, rfl, rfl, rfl⟩

/-- The pipeline over the filesystem never wedges, and ends after the last step of either side with
its batches trained on. -/
theorem filesystem_pipeline_completes (config : PipelineConfig) (maxSteps : Nat)
    (stable ncclReady : List Nat) (filesystem : config.weightBroadcast = .filesystem)
    (limit : config.maxSteps = some maxSteps) (within : config.resumeStep.getD 0 < maxSteps)
    (written : ∀ step ∈ stable, step ≤ config.resumeStep.getD 0)
    (events : List Event) (state : Pipeline)
    (onTime : Machine.Along (Pipeline.next config) Pipeline.Due
      (Pipeline.init config stable ncclReady) events)
    (ran : Machine.run (Pipeline.next config) (Pipeline.init config stable ncclReady) events =
      some state) :
    events.length ≤ 17 * (maxSteps - config.resumeStep.getD 0) + 22 ∧
    ((∀ event, state.Due event → state.next config event = none) →
      state.stopped = true ∧ state.trainer = .exited ∧ state.trainerStep = maxSteps ∧
      state.step = maxSteps + 1 ∧ state.sent = [] ∧ maxSteps ∈ state.stable) := by
  have below : ∀ last, config.maxSteps = some last → config.resumeStep.getD 0 < last := by
    intro last known
    rwa [← Option.some.inj (limit.symm.trans known)]
  have directories := run_directories filesystem below written onTime ran
  constructor
  · rw [init_filesystem filesystem] at onTime ran
    have bound := Machine.run_length_le (Pipeline.Directories config) (Pipeline.remaining maxSteps)
      (fun _ _ _ held due accepted => directories_step filesystem due
        (next_step held.ordered.gated.restored accepted) held)
      (fun _ _ _ held accepted => remaining_lower limit held.ordered
        (held.adopted.trans (held.ordered.limited.training maxSteps limit))
        (next_step held.ordered.gated.restored accepted))
      (restored_directories below written) onTime ran
    rw [restored_remaining within] at bound
    omega
  · intro stuck
    have finished : state.stopped = true ∧ state.trainer = .exited := by
      by_contra unfinished
      obtain ⟨event, due, accepted⟩ := directories_live filesystem limit directories unfinished
      simp [stuck event due] at accepted
    obtain ⟨stopped, exited⟩ := finished
    obtain ⟨trained, drained, taken⟩ := finished_steps limit directories.ordered stopped exited
    refine ⟨stopped, exited, trained, drained, taken, ?_⟩
    rw [← trained]
    exact directories.published (by simp [exited]) (by simp [exited])

/-- A run of two steps whose first policy is adopted before the second batch is trained on. -/
theorem filesystem_pipeline_completes_two_steps :
    let config : PipelineConfig := ⟨.filesystem, some 2, none, none⟩
    let events : List Event := [.send, .ship, .send, .take, .publish, .clean, .finish, .ship, .poll,
      .confirm, .drain, .pause, .load, .adopt, .notify, .take, .publish, .clean, .finish, .stop]
    ∃ state, Machine.run (Pipeline.next config) (Pipeline.init config [] []) events = some state ∧
      events.length ≤ 17 * (2 - 0) + 22 ∧ (∀ event, state.next config event = none) ∧
      2 ∈ state.stable := by
  refine ⟨_, rfl, ?_, fun event => by cases event <;> rfl, ?_⟩
  · exact (filesystem_pipeline_completes ⟨.filesystem, some 2, none, none⟩ 2 [] [] rfl rfl
      (by decide) (by simp) _ _ (by decide) rfl).1
  · have ended := (filesystem_pipeline_completes ⟨.filesystem, some 2, none, none⟩ 2 [] [] rfl rfl
      (by decide) (by simp) [.send, .ship, .send, .take, .publish, .clean, .finish, .ship, .poll,
      .confirm, .drain, .pause, .load, .adopt, .notify, .take, .publish, .clean, .finish, .stop] _
      (by decide) rfl).2 (fun event _ => by cases event <;> rfl)
    exact ended.2.2.2.2.2

end PrimeRl.PolicyUpdates
