import PrimeRl.Pipeline.Rendezvous

/-!
# Every run of the pipeline completes

What is due happens without help from outside: each party acts when it can, and a
batch is completed while the gate is open. Each event lowers what remains, so no run
goes on forever, and as long as the orchestrator or the trainer has not ended
something is due.
-/

namespace PrimeRl.PolicyUpdates

variable {config : PipelineConfig} {state after : Pipeline} {event : Event}

/-- Everything but completing a batch behind a closed gate. -/
def Pipeline.Due (state : Pipeline) (event : Event) : Prop :=
  event = .send → state.dispatchAllowed = true

instance Pipeline.Due.decidable (state : Pipeline) (event : Event) : Decidable (state.Due event) :=
  inferInstanceAs (Decidable (event = .send → state.dispatchAllowed = true))

/-- Something is due that the parties accept. -/
def Pipeline.Live (config : PipelineConfig) (state : Pipeline) : Prop :=
  ∃ event, state.Due event ∧ (state.next config event).isSome

def TrainerPhase.rank : TrainerPhase → Nat
  | .restoring => 6
  | .waiting => 5
  | .trained => 4
  | .announced => 3
  | .sending | .published => 2
  | .broadcast => 1
  | .exited => 0

def WatcherPhase.rank : WatcherPhase → Nat
  | .restoring | .announcing _ => 7
  | .idle => 6
  | .waiting _ => 5
  | .pending _ => 4
  | .pausing _ => 3
  | .receiving _ => 2
  | .received _ => 1

/-- What the three parties have left to do. -/
def Pipeline.remaining (maxSteps : Nat) (state : Pipeline) : Nat :=
  (2 * (maxSteps + 1 - state.step) + (if state.shipping then 0 else 1) +
    (if state.stopped then 0 else 1) + (if state.draining then 0 else 1)) +
  (7 * (maxSteps + 1 - state.trainerStep) + state.trainer.rank) +
  (8 * (maxSteps + 1 - state.ckptStep) + state.watcher.rank)

theorem remaining_lower {maxSteps : Nat} (limit : config.maxSteps = some maxSteps)
    (ordered : state.Ordered config) (bounded : state.ckptStep ≤ maxSteps)
    (step : Step config state event after) : after.remaining maxSteps < state.remaining maxSteps := by
  have training := ordered.limited.training maxSteps limit
  cases step with
  | ship running shipping =>
    have unsent := ordered.limited.unsent maxSteps limit
    simp only [Pipeline.unsent, shipping, if_true] at unsent
    have open_ : state.draining = false := by
      cases draining : state.draining with
      | false => rfl
      | true =>
        obtain ⟨last, known, drained⟩ := ordered.limited.drained draining
        obtain rfl := Option.some.inj (limit.symm.trans known)
        omega
    simp only [Pipeline.remaining, Pipeline.updateDispatchGate, shipping, running, open_, if_true,
      Bool.false_eq_true, if_false]
    split <;> omega
  | adopt nextStep running received =>
    have newer := ordered.gated.newer nextStep (by rw [received]; rfl)
    simp only [Pipeline.remaining, received, WatcherPhase.rank]
    omega
  | send running open_ counted => simp [Pipeline.remaining, counted]
  | past open_ => simp [Pipeline.remaining, open_]
  | stop running => simp [Pipeline.remaining, running]
  | poll running idle => simp [Pipeline.remaining, WatcherPhase.rank, idle]
  | confirm nextStep running waiting => simp [Pipeline.remaining, WatcherPhase.rank, waiting]
  | drain nextStep running pending => simp [Pipeline.remaining, WatcherPhase.rank, pending]
  | pause nextStep running pausing => simp [Pipeline.remaining, WatcherPhase.rank, pausing]
  | load nextStep running filesystem receiving =>
    simp [Pipeline.remaining, WatcherPhase.rank, receiving]
  | notify nextStep running announcing =>
    simp [Pipeline.remaining, Pipeline.updateDispatchGate, WatcherPhase.rank, announcing]
  | take batch rest waiting => simp [Pipeline.remaining, TrainerPhase.rank, waiting]
  | skip trained | announce trained | publish trained =>
    simp [Pipeline.remaining, TrainerPhase.rank, trained]
  | proceed announced => simp [Pipeline.remaining, TrainerPhase.rank, announced]
  | transfer nextStep running sending receiving =>
    simp only [Pipeline.remaining, TrainerPhase.rank, WatcherPhase.rank, sending, receiving]
    omega
  | clean published => simp [Pipeline.remaining, TrainerPhase.rank, published]
  | exit broadcast => simp [Pipeline.remaining, TrainerPhase.rank, broadcast]
  | finish broadcast =>
    simp only [Pipeline.remaining, TrainerPhase.rank, broadcast]
    omega

theorem live_of_other {config : PipelineConfig} {state : Pipeline} (event : Event)
    (other : event ≠ .send) (accepted : (state.next config event).isSome) : state.Live config :=
  ⟨event, fun same => absurd same other, accepted⟩

/-- The steps of an update that depend on nobody else. -/
theorem watcher_live (running : state.stopped = false) {nextStep : Nat}
    (phase : state.watcher = .pending nextStep ∨ state.watcher = .pausing nextStep ∨
      state.watcher = .received nextStep ∨ state.watcher = .announcing nextStep) :
    state.Live config := by
  rcases phase with phase | phase | phase | phase
  · exact live_of_other .drain (by simp) (by simp [Pipeline.next, running, phase])
  · exact live_of_other .pause (by simp) (by simp [Pipeline.next, running, phase])
  · exact live_of_other .adopt (by simp) (by simp [Pipeline.next, running, phase])
  · exact live_of_other .notify (by simp) (by simp [Pipeline.next, running, phase])

/-- The steps of the training loop that depend on nobody else. -/
theorem trainer_live (phase : state.trainer = .trained ∨ state.trainer = .published ∨
      state.trainer = .broadcast) : state.Live config := by
  rcases phase with phase | phase | phase
  · refine live_of_other .publish (by simp) ?_
    simp only [Pipeline.next, phase]
    split
    · rfl
    · split <;> rfl
  · exact live_of_other .clean (by simp) (by simp [Pipeline.next, phase])
  · refine live_of_other .finish (by simp) ?_
    simp only [Pipeline.next, phase]
    split <;> rfl

theorem shipping_not_stopped (limited : state.Limited config) (shipping : state.shipping = true) :
    state.stopped = false := by
  cases stopped : state.stopped with
  | false => rfl
  | true =>
    obtain ⟨maxSteps, limit, last⟩ := limited.drained (limited.stopped stopped).1
    have unsent := limited.unsent maxSteps limit
    simp only [Pipeline.unsent, shipping, if_true] at unsent
    omega

/-- A trainer that waits for a batch gets one, once the policy is recent enough. -/
theorem waiting_live {maxSteps : Nat} (limit : config.maxSteps = some maxSteps)
    (ordered : state.Ordered config) (waiting : state.trainer = .waiting)
    (recent : state.stopped = false → state.unsent = state.trainerStep →
      (∀ nextStep, state.watcher ≠ .announcing nextStep) ∧ state.trainerStep ≤ state.version + 2) :
    state.Live config := by
  have first : state.nextBatch = state.trainerStep := by simp [Pipeline.nextBatch, waiting]
  obtain ⟨behind, queued⟩ := ordered.inOrder
  rw [first] at behind queued
  cases sent : state.sent with
  | cons batch rest => exact live_of_other .take (by simp) (by simp [Pipeline.next, waiting, sent])
  | nil =>
    have all : state.unsent = state.trainerStep := by
      have none_ := congrArg List.length queued
      simp only [sent, List.length_nil, List.length_range'] at none_
      omega
    cases shipping : state.shipping with
    | true =>
      have running := shipping_not_stopped ordered.limited shipping
      exact live_of_other .ship (by simp) (by simp [Pipeline.next, running, shipping])
    | false =>
      have here : state.step = state.trainerStep := by
        simpa [Pipeline.unsent, shipping] using all
      have within := ordered.limited.training maxSteps limit
      have open_ : state.draining = false := by
        cases draining : state.draining with
        | false => rfl
        | true =>
          obtain ⟨last, known, drained⟩ := ordered.limited.drained draining
          obtain rfl := Option.some.inj (limit.symm.trans known)
          omega
      have running : state.stopped = false := by
        cases stopped : state.stopped with
        | false => rfl
        | true => simpa [open_] using (ordered.limited.stopped stopped).1
      obtain ⟨settled, lag⟩ := recent running all
      have allowed : state.dispatchAllowed = true := by
        refine ordered.gated.current settled ?_
        simp only [gateOpen, targetLag, gt_iff_lt, decide_eq_true_eq]
        omega
      have more : pastLastStep config state.step = false := by
        simp only [pastLastStep, limit, decide_eq_false_iff_not]
        omega
      have restored := ordered.gated.restored
      exact ⟨.send, fun _ => allowed, by
        simp [Pipeline.next, running, open_, shipping, restored, more]⟩

/-- Once the trainer has exited the orchestrator drains and stops. -/
theorem exited_live {maxSteps : Nat} (limit : config.maxSteps = some maxSteps)
    (ordered : state.Ordered config) (exited : state.trainer = .exited)
    (running : state.stopped = false)
    (adopted : requiredBroadcastsAdopted config state.version = true) : state.Live config := by
  have last : state.trainerStep = maxSteps := by
    have known := ordered.limited.exited exited
    exact (Option.some.inj (limit.symm.trans known)).symm
  have behind := ordered.inOrder.1
  simp only [Pipeline.nextBatch, exited, reduceCtorEq, if_false, last] at behind
  cases shipping : state.shipping with
  | true => exact live_of_other .ship (by simp) (by simp [Pipeline.next, running, shipping])
  | false =>
    have unsent := ordered.limited.unsent maxSteps limit
    have here : state.step = maxSteps + 1 := by
      simp only [Pipeline.unsent, shipping, Bool.false_eq_true, if_false] at behind unsent
      omega
    have draining := ordered.limited.drains maxSteps limit here
    exact live_of_other .stop (by simp) (by simp [Pipeline.next, running, draining, adopted])

/-- With no policy on offer an update only has to be brought to its end. -/
theorem updating_live (running : state.stopped = false) (rendezvous : state.Rendezvous config)
    (busy : state.watcher ≠ .idle) (offered : ¬state.Offering) : state.Live config := by
  have fetches := rendezvous.fetches
  cases watcher : state.watcher with
  | restoring => exact absurd watcher rendezvous.ordered.gated.restored
  | idle => exact absurd watcher busy
  | pending nextStep => exact watcher_live running (.inl watcher)
  | pausing nextStep => exact watcher_live running (.inr (.inl watcher))
  | received nextStep => exact watcher_live running (.inr (.inr (.inl watcher)))
  | announcing nextStep => exact watcher_live running (.inr (.inr (.inr watcher)))
  | waiting nextStep => exact absurd (.inl (fetches.fetching nextStep (.inl watcher)).1) offered
  | receiving nextStep => exact absurd (fetches.receiving nextStep watcher).1 offered

/-- When both sides have ended every batch has been shipped and taken. -/
theorem finished_steps {maxSteps : Nat} (limit : config.maxSteps = some maxSteps)
    (ordered : state.Ordered config) (stopped : state.stopped = true)
    (exited : state.trainer = .exited) :
    state.trainerStep = maxSteps ∧ state.step = maxSteps + 1 ∧ state.sent = [] := by
  obtain ⟨last, known, drained⟩ := ordered.limited.drained (ordered.limited.stopped stopped).1
  obtain rfl := Option.some.inj (limit.symm.trans known)
  have trained : state.trainerStep = maxSteps :=
    (Option.some.inj (limit.symm.trans (ordered.limited.exited exited))).symm
  have unsent := ordered.limited.unsent maxSteps limit
  have queued := ordered.inOrder.2
  simp only [Pipeline.nextBatch, exited, reduceCtorEq, if_false, trained] at queued
  rw [Nat.sub_eq_zero_of_le unsent, List.range'_zero] at queued
  exact ⟨trained, drained, queued⟩

/-- Over NCCL something is due until the orchestrator has stopped and the trainer has exited. -/
theorem rendezvous_live {maxSteps : Nat} (nccl : config.weightBroadcast = .nccl)
    (limit : config.maxSteps = some maxSteps) (rendezvous : state.Rendezvous config)
    (unfinished : ¬(state.stopped = true ∧ state.trainer = .exited)) : state.Live config := by
  have ordered := rendezvous.ordered
  have offers := rendezvous.offers
  have fetches := rendezvous.fetches
  cases trainer : state.trainer with
  | restoring => exact absurd trainer ordered.limited.trainerRestored
  | published => exact absurd trainer offers.never
  | trained => exact trainer_live (.inl trainer)
  | broadcast => exact trainer_live (.inr (.inr trainer))
  | announced =>
    have running : state.stopped = false := by
      cases stopped : state.stopped with
      | false => rfl
      | true => exact absurd (.inl trainer) (stopped_not_offering nccl rendezvous stopped)
    obtain ⟨listed, used⟩ := offers.offered (.inl trainer)
    cases watcher : state.watcher with
    | restoring => exact absurd watcher ordered.gated.restored
    | pending nextStep => exact watcher_live running (.inl watcher)
    | pausing nextStep => exact watcher_live running (.inr (.inl watcher))
    | received nextStep => exact watcher_live running (.inr (.inr (.inl watcher)))
    | announcing nextStep => exact watcher_live running (.inr (.inr (.inr watcher)))
    | waiting nextStep =>
      obtain ⟨_, rfl⟩ := fetches.fetching nextStep (.inl watcher)
      exact live_of_other .confirm (by simp) (by simp [Pipeline.next, running, watcher, listed])
    | receiving nextStep =>
      obtain ⟨_, rfl, ready⟩ := fetches.receiving nextStep watcher
      exact live_of_other .proceed (by simp) (by simp [Pipeline.next, trainer, ready])
    | idle =>
      have newer : state.ckptStep < computeNextCkptStep state := by
        have fresh := offers.fresh (by simp [trainer]) (by simp [trainer])
        have held := fetches.held (by simp [watcher])
        have latest := le_latest listed
        simp only [computeNextCkptStep]
        omega
      exact live_of_other .poll (by simp) (by simp [Pipeline.next, running, watcher, newer])
  | sending =>
    have running : state.stopped = false := by
      cases stopped : state.stopped with
      | false => rfl
      | true => exact absurd (.inr trainer) (stopped_not_offering nccl rendezvous stopped)
    have watcher := fetches.sending trainer
    exact live_of_other .transfer (by simp) (by simp [Pipeline.next, running, watcher, trainer])
  | waiting =>
    by_cases calm : state.stopped = true ∨ state.watcher = .idle
    · refine waiting_live limit ordered trainer fun running all => ?_
      have idle : state.watcher = .idle := calm.resolve_left (by simp [running])
      have held := fetches.held (by simp [idle])
      have caughtUp := offers.caughtUp
      have within := ordered.limited.training maxSteps limit
      simp only [handedOver, limit] at caughtUp
      refine ⟨by simp [idle], ?_⟩
      rw [ordered.gated.adopted]
      omega
    · obtain ⟨running, busy⟩ := not_or.mp calm
      exact updating_live (by simpa using running) rendezvous busy (by simp [Pipeline.Offering, trainer])
  | exited =>
    have running : state.stopped = false := by
      cases stopped : state.stopped with
      | false => rfl
      | true => exact absurd ⟨stopped, trainer⟩ unfinished
    by_cases idle : state.watcher = .idle
    · refine exited_live limit ordered trainer running ?_
      have held := fetches.held (by simp [idle])
      have done := offers.done (.inr trainer)
      have last : state.trainerStep = maxSteps :=
        (Option.some.inj (limit.symm.trans (ordered.limited.exited trainer))).symm
      simp only [handedOver, limit, last] at done
      simp only [requiredBroadcastsAdopted, nccl, limit, decide_eq_true_eq, ordered.gated.adopted]
      omega
    · exact updating_live running rendezvous idle (by simp [Pipeline.Offering, trainer])

theorem rendezvous_bounded {maxSteps : Nat} (limit : config.maxSteps = some maxSteps)
    (rendezvous : state.Rendezvous config) : state.ckptStep ≤ maxSteps := by
  rw [← rendezvous.ordered.gated.adopted]
  exact (version_le_weights rendezvous).trans
    (rendezvous.offers.behind.trans (rendezvous.ordered.limited.training maxSteps limit))

theorem restored_remaining {maxSteps : Nat} {stable ncclReady : List Nat}
    (within : config.resumeStep.getD 0 < maxSteps) :
    (Pipeline.restored config stable ncclReady).remaining maxSteps =
      17 * (maxSteps - config.resumeStep.getD 0) + 22 := by
  simp only [Pipeline.remaining, Pipeline.restored, TrainerPhase.rank, WatcherPhase.rank,
    Bool.false_eq_true, if_false]
  omega

/-- The pipeline over NCCL never wedges. No run is longer than the bound. A run that nothing due
can continue has ended well: the orchestrator has stopped after shipping the batch of every step,
the trainer has exited after its last step, and the engines hold the last policy that is handed
over, which is the version in force. -/
theorem nccl_pipeline_completes (config : PipelineConfig) (maxSteps : Nat)
    (stable ncclReady : List Nat) (nccl : config.weightBroadcast = .nccl)
    (limit : config.maxSteps = some maxSteps) (within : config.resumeStep.getD 0 < maxSteps)
    (marked : ∀ step ∈ stable, step ≤ config.resumeStep.getD 0)
    (answered : ∀ step ∈ ncclReady, step ≤ config.resumeStep.getD 0)
    (events : List Event) (state : Pipeline)
    (ran : Machine.run (Pipeline.next config) (Pipeline.init config stable ncclReady) events =
      some state) :
    events.length ≤ 17 * (maxSteps - config.resumeStep.getD 0) + 23 ∧
    ((∀ event, state.Due event → state.next config event = none) →
      state.stopped = true ∧ state.trainer = .exited ∧ state.trainerStep = maxSteps ∧
      state.step = maxSteps + 1 ∧ state.sent = [] ∧
      state.version = max (config.resumeStep.getD 0) (maxSteps - 2) ∧
      state.weights = state.version) := by
  have below : ∀ last, config.maxSteps = some last → config.resumeStep.getD 0 < last := by
    intro last known
    rwa [← Option.some.inj (limit.symm.trans known)]
  rcases run_restored ran with ⟨later, same, remaining⟩ | ⟨_, resumed, rfl, rfl⟩
  · have rendezvous := run_rendezvous nccl below marked answered remaining
    constructor
    · have bound := Machine.run_length_le (Pipeline.Rendezvous config) (Pipeline.remaining maxSteps)
        (fun _ _ _ held _ accepted =>
          rendezvous_step nccl (next_step held.ordered.gated.restored accepted) held)
        (fun _ _ _ held accepted => remaining_lower limit held.ordered
          (rendezvous_bounded limit held) (next_step held.ordered.gated.restored accepted))
        (restored_rendezvous below marked answered) (Machine.along_true _ later) remaining
      rw [restored_remaining within] at bound
      rcases same with rfl | rfl
      · omega
      · rw [List.length_cons]
        omega
    · intro stuck
      have finished : state.stopped = true ∧ state.trainer = .exited := by
        by_contra unfinished
        obtain ⟨event, due, accepted⟩ := rendezvous_live nccl limit rendezvous unfinished
        simp [stuck event due] at accepted
      obtain ⟨stopped, exited⟩ := finished
      have ordered := rendezvous.ordered
      have offers := rendezvous.offers
      obtain ⟨trained, drained, shipped⟩ := finished_steps limit ordered stopped exited
      have enough := (ordered.limited.stopped stopped).2
      have below := version_le_weights rendezvous
      have taken := offers.taken maxSteps limit
      have kept := offers.kept
      rw [← ordered.gated.adopted] at kept
      simp only [requiredBroadcastsAdopted, nccl, limit, decide_eq_true_eq] at enough
      exact ⟨stopped, exited, trained, drained, shipped, by omega, by omega⟩
  · refine ⟨by simp, fun stuck => ?_⟩
    have refused := stuck .transfer (by simp [Pipeline.Due])
    rw [init_live nccl resumed] at refused
    simp [Pipeline.next, Pipeline.restored] at refused

/-- Three steps from a restored checkpoint. The policy of the first is handed over while the second
batch is on its way, and those of the last two have no receiver. -/
def threeSteps : List Event :=
  [.transfer, .send, .ship, .take, .publish, .send, .poll, .confirm, .ship, .drain, .pause,
    .proceed, .transfer, .finish, .take, .adopt, .notify, .send, .publish, .finish, .ship, .take,
    .publish, .stop, .finish]

theorem nccl_pipeline_completes_three_steps :
    let config : PipelineConfig := ⟨.nccl, some 4, some 1, none⟩
    ∃ state, Machine.run (Pipeline.next config) (Pipeline.init config [1] [1]) threeSteps =
        some state ∧
      threeSteps.length ≤ 17 * (4 - 1) + 23 ∧ (∀ event, state.next config event = none) ∧
      state.trainer = .exited ∧ state.version = 2 ∧ state.weights = 2 := by
  refine ⟨_, rfl, ?_, fun event => by cases event <;> rfl, ?_⟩
  · exact (nccl_pipeline_completes ⟨.nccl, some 4, some 1, none⟩ 4 [1] [1] rfl rfl (by decide)
      (by decide) (by decide) threeSteps _ rfl).1
  · have ended := (nccl_pipeline_completes ⟨.nccl, some 4, some 1, none⟩ 4 [1] [1] rfl rfl
      (by decide) (by decide) (by decide) threeSteps _ rfl).2 (fun event _ => by cases event <;> rfl)
    have version := ended.2.2.2.2.2.1
    exact ⟨ended.2.1, version, ended.2.2.2.2.2.2.trans version⟩

end PrimeRl.PolicyUpdates
