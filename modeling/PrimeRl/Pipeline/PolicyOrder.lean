import PrimeRl.Pipeline.PolicySteps

/-!
# Batches, gate and last step in every run

What holds over both ways of handing a policy over: batches reach the trainer in
the order of its steps, an open gate means a policy that is recent enough, and the
orchestrator drains exactly when the last step is shipped.
-/

namespace PrimeRl.PolicyUpdates

variable {config : PipelineConfig} {state after : Pipeline} {event : Event}

/-- The first step whose batch has not been sent. -/
def Pipeline.unsent (state : Pipeline) : Nat := state.step + if state.shipping then 1 else 0

/-- The step whose batch the trainer takes next. -/
def Pipeline.nextBatch (state : Pipeline) : Nat :=
  state.trainerStep + if state.trainer = .waiting then 0 else 1

/-- The batches on the way are those of the trainer's next steps, in order. -/
def Pipeline.InOrder (state : Pipeline) : Prop :=
  state.nextBatch ≤ state.unsent ∧
    state.sent = List.range' state.nextBatch (state.unsent - state.nextBatch)

theorem in_order_step (step : Step config state event after) (ordered : state.InOrder) :
    after.InOrder := by
  obtain ⟨behind, queued⟩ := ordered
  cases step with
  | send running open_ counted within =>
    have unsent : state.unsent = state.step := by simp [Pipeline.unsent, counted]
    rw [unsent] at behind queued
    refine ⟨by simpa [Pipeline.nextBatch, Pipeline.unsent] using behind.trans (Nat.le_succ _), ?_⟩
    have next : state.step + 1 - state.nextBatch = (state.step - state.nextBatch) + 1 := by omega
    have last : state.nextBatch + (state.step - state.nextBatch) = state.step := by omega
    change state.sent ++ [state.step] =
      List.range' state.nextBatch (state.step + 1 - state.nextBatch)
    rw [next, List.range'_1_concat, last, queued]
  | ship running shipping =>
    have unsent : state.unsent = state.step + 1 := by simp [Pipeline.unsent, shipping]
    rw [unsent] at behind queued
    exact ⟨behind, queued⟩
  | take batch rest waiting sent =>
    have first : state.nextBatch = state.trainerStep := by simp [Pipeline.nextBatch, waiting]
    rw [first] at behind queued
    have held := congrArg List.length queued
    simp only [sent, List.length_cons, List.length_range'] at held
    have later : state.unsent - (state.trainerStep + 1) = rest.length := by omega
    rw [← held, sent, List.range'_succ, List.cons.injEq] at queued
    change state.trainerStep + 1 ≤ state.unsent ∧
      rest = List.range' (state.trainerStep + 1) (state.unsent - (state.trainerStep + 1))
    exact ⟨by omega, by rw [later]; exact queued.2⟩
  | finish broadcast more =>
    have first : state.nextBatch = state.trainerStep + 1 := by
      simp [Pipeline.nextBatch, broadcast]
    rw [first] at behind queued
    exact ⟨behind, queued⟩
  | skip trained | announce trained | publish trained =>
    exact ⟨by simpa [Pipeline.nextBatch, Pipeline.unsent, trained] using behind,
      by simpa [Pipeline.nextBatch, Pipeline.unsent, trained] using queued⟩
  | proceed announced =>
    exact ⟨by simpa [Pipeline.nextBatch, Pipeline.unsent, announced] using behind,
      by simpa [Pipeline.nextBatch, Pipeline.unsent, announced] using queued⟩
  | transfer nextStep running sending =>
    exact ⟨by simpa [Pipeline.nextBatch, Pipeline.unsent, sending] using behind,
      by simpa [Pipeline.nextBatch, Pipeline.unsent, sending] using queued⟩
  | clean published =>
    exact ⟨by simpa [Pipeline.nextBatch, Pipeline.unsent, published] using behind,
      by simpa [Pipeline.nextBatch, Pipeline.unsent, published] using queued⟩
  | exit broadcast =>
    exact ⟨by simpa [Pipeline.nextBatch, Pipeline.unsent, broadcast] using behind,
      by simpa [Pipeline.nextBatch, Pipeline.unsent, broadcast] using queued⟩
  | past | stop | poll | confirm | drain | pause | load | adopt | notify =>
    exact ⟨behind, queued⟩

/-- The policy that an update is about to bring. -/
def WatcherPhase.target : WatcherPhase → Option Nat
  | .waiting nextStep | .pending nextStep | .pausing nextStep => some nextStep
  | .receiving nextStep | .received nextStep => some nextStep
  | .restoring | .idle | .announcing _ => none

theorem gate_open_mono {step older newer : Nat} (later : older ≤ newer)
    (open_ : gateOpen step older = true) : gateOpen step newer = true := by
  simp only [gateOpen, targetLag, gt_iff_lt, decide_eq_true_eq] at open_ ⊢
  omega

/-- The gate is what the versions call for, except while a new version is being announced. -/
structure Pipeline.Gated (state : Pipeline) : Prop where
  restored : state.watcher ≠ .restoring
  adopted : state.version = state.ckptStep
  newer : ∀ nextStep, state.watcher.target = some nextStep → state.ckptStep < nextStep
  lagging : state.dispatchAllowed = true → gateOpen state.step state.version = true
  current : (∀ nextStep, state.watcher ≠ .announcing nextStep) →
    gateOpen state.step state.version = true → state.dispatchAllowed = true

theorem gated_step (step : Step config state event after) (gated : state.Gated) : after.Gated := by
  obtain ⟨restored, adopted, newer, lagging, current⟩ := gated
  cases step with
  | ship running shipping =>
    exact ⟨restored, adopted, newer, fun open_ => open_, fun _ open_ => open_⟩
  | poll running idle further =>
    refine ⟨by simp, adopted, ?_, lagging, fun _ => current (by simp [idle])⟩
    intro nextStep target
    obtain rfl := Option.some.inj target
    exact further
  | confirm nextStep running waiting marked =>
    exact ⟨by simp, adopted, fun other target => newer other (by rw [waiting]; exact target),
      lagging, fun _ => current (by simp [waiting])⟩
  | drain nextStep running pending =>
    exact ⟨by simp, adopted, fun other target => newer other (by rw [pending]; exact target),
      lagging, fun _ => current (by simp [pending])⟩
  | pause nextStep running pausing =>
    exact ⟨by simp, adopted, fun other target => newer other (by rw [pausing]; exact target),
      lagging, fun _ => current (by simp [pausing])⟩
  | load nextStep running filesystem receiving marked =>
    exact ⟨by simp, adopted, fun other target => newer other (by rw [receiving]; exact target),
      lagging, fun _ => current (by simp [receiving])⟩
  | transfer nextStep running sending receiving =>
    exact ⟨by simp, adopted, fun other target => newer other (by rw [receiving]; exact target),
      lagging, fun _ => current (by simp [receiving])⟩
  | adopt nextStep running received =>
    have later : state.version ≤ nextStep := by
      rw [adopted]
      exact (newer nextStep (by rw [received]; rfl)).le
    exact ⟨by simp, rfl, by simp [WatcherPhase.target],
      fun open_ => gate_open_mono later (lagging open_), by simp⟩
  | notify nextStep running announcing =>
    exact ⟨by simp, adopted, by simp [WatcherPhase.target], fun open_ => open_, fun _ open_ => open_⟩
  | send | past | stop | take | skip | announce | publish | proceed | clean | exit | finish =>
    exact ⟨restored, adopted, newer, lagging, current⟩

/-- What the last step bounds, and when the orchestrator drains and stops. -/
structure Pipeline.Limited (config : PipelineConfig) (state : Pipeline) : Prop where
  trainerRestored : state.trainer ≠ .restoring
  unsent : ∀ maxSteps, config.maxSteps = some maxSteps → state.unsent ≤ maxSteps + 1
  drains : ∀ maxSteps, config.maxSteps = some maxSteps →
    state.step = maxSteps + 1 → state.draining = true
  drained : state.draining = true →
    ∃ maxSteps, config.maxSteps = some maxSteps ∧ state.step = maxSteps + 1
  stopped : state.stopped = true →
    state.draining = true ∧ requiredBroadcastsAdopted config state.version = true
  training : ∀ maxSteps, config.maxSteps = some maxSteps → state.trainerStep ≤ maxSteps
  exited : state.trainer = .exited → config.maxSteps = some state.trainerStep

theorem limited_step (step : Step config state event after) (limited : state.Limited config) :
    after.Limited config := by
  obtain ⟨trainerRestored, unsent, drains, drained, stopped, training, exited⟩ := limited
  cases step with
  | send running open_ counted within =>
    refine ⟨trainerRestored, ?_, drains, drained, stopped, training, exited⟩
    intro maxSteps limit
    simp only [pastLastStep, limit, decide_eq_false_iff_not] at within
    simp only [Pipeline.unsent, if_true]
    omega
  | past open_ counted past =>
    refine ⟨trainerRestored, unsent, fun _ _ _ => rfl, fun _ => ?_, ?_, training, exited⟩
    · cases limit : config.maxSteps with
      | none => simp [pastLastStep, limit] at past
      | some maxSteps =>
        have bound := unsent maxSteps limit
        simp only [pastLastStep, limit, decide_eq_true_eq] at past
        simp only [Pipeline.unsent, counted, Bool.false_eq_true, if_false] at bound
        exact ⟨maxSteps, rfl, Nat.le_antisymm bound past⟩
    · intro done
      exact absurd (stopped done).1 (by simp [open_])
  | ship running shipping =>
    refine ⟨trainerRestored, ?_, ?_, ?_, ?_, training, exited⟩
    · intro maxSteps limit
      simpa [Pipeline.unsent, Pipeline.updateDispatchGate, shipping] using unsent maxSteps limit
    · intro maxSteps limit last
      simp only [Pipeline.updateDispatchGate, Nat.add_right_cancel_iff] at last
      simp [reachesLastStep, limit, last]
    · intro last
      cases limit : config.maxSteps with
      | none => simp [reachesLastStep, limit] at last
      | some maxSteps =>
        have bound := unsent maxSteps limit
        simp only [reachesLastStep, limit, decide_eq_true_eq] at last
        simp only [Pipeline.unsent, shipping, if_true] at bound
        exact ⟨maxSteps, rfl, by simp only [Pipeline.updateDispatchGate]; omega⟩
    · intro done
      exact absurd done (by simp [Pipeline.updateDispatchGate, running])
  | stop running draining enough =>
    exact ⟨trainerRestored, unsent, drains, drained, fun _ => ⟨draining, enough⟩, training, exited⟩
  | adopt nextStep running =>
    exact ⟨trainerRestored, unsent, drains, drained, fun done => by simp [running] at done,
      training, exited⟩
  | exit broadcast last =>
    exact ⟨by simp, unsent, drains, drained, stopped, training, fun _ => last⟩
  | finish broadcast more =>
    refine ⟨by simp, unsent, drains, drained, stopped, ?_, by simp⟩
    intro maxSteps limit
    have bound := training maxSteps limit
    have further : maxSteps ≠ state.trainerStep := fun same => more (by rw [limit, same])
    change state.trainerStep + 1 ≤ maxSteps
    omega
  | take | skip | announce | publish | proceed | transfer | clean =>
    exact ⟨by simp, unsent, drains, drained, stopped, training, by simp⟩
  | poll | confirm | drain | pause | load | notify =>
    exact ⟨trainerRestored, unsent, drains, drained, stopped, training, exited⟩

/-- What every step keeps, however policies are handed over. -/
structure Pipeline.Ordered (config : PipelineConfig) (state : Pipeline) : Prop where
  inOrder : state.InOrder
  gated : state.Gated
  limited : state.Limited config

theorem ordered_step (step : Step config state event after) (ordered : state.Ordered config) :
    after.Ordered config :=
  ⟨in_order_step step ordered.inOrder, gated_step step ordered.gated,
    limited_step step ordered.limited⟩

/-- The state from which a run goes on once a restored policy is in the engines. -/
def Pipeline.restored (config : PipelineConfig) (stable ncclReady : List Nat) : Pipeline :=
  { step := config.resumeStep.getD 0 + 1
    shipping := false
    draining := false
    stopped := false
    version := config.resumeStep.getD 0
    ckptStep := config.resumeStep.getD 0
    dispatchAllowed := true
    watcher := .idle
    weights := config.resumeStep.getD 0
    sent := []
    stable := stable
    ncclReady := ncclReady
    trainerStep := config.resumeStep.getD 0 + 1
    trainer := .waiting }

variable {stable ncclReady : List Nat}

theorem init_live (nccl : config.weightBroadcast = .nccl) (resumed : config.resumeStep.isSome) :
    Pipeline.init config stable ncclReady =
      { Pipeline.restored config stable ncclReady with
        version := 0
        ckptStep := 0
        watcher := .restoring
        weights := 0
        trainer := .restoring } := by
  simp [Pipeline.init, Pipeline.restored, nccl, resumed]

theorem init_dead (cold : ¬(config.weightBroadcast = .nccl ∧ config.resumeStep.isSome)) :
    Pipeline.init config stable ncclReady = Pipeline.restored config stable ncclReady := by
  simp [Pipeline.init, Pipeline.restored, cold]

/-- While the restored policy is being received, nothing else happens. -/
theorem restoring_next (state : Pipeline) (watching : state.watcher = .restoring)
    (training : state.trainer = .restoring) (idle : state.shipping = false)
    (open_ : state.draining = false) (accepted : state.next config event = some after) :
    event = .transfer ∧ after =
      { state with
        weights := config.resumeStep.getD 0
        version := config.resumeStep.getD 0
        ckptStep := config.resumeStep.getD 0
        trainer := .waiting
        watcher := .idle } := by
  cases event <;>
    simp_all [Pipeline.next]

/-- A run that has begun is a run from the restored state, after one transfer where policies
go over NCCL. -/
theorem run_restored {events : List Event}
    (ran : Machine.run (Pipeline.next config) (Pipeline.init config stable ncclReady) events =
      some state) :
    (∃ later, (events = later ∨ events = .transfer :: later) ∧
      Machine.run (Pipeline.next config) (Pipeline.restored config stable ncclReady) later =
        some state) ∨
    config.weightBroadcast = .nccl ∧ config.resumeStep.isSome ∧ events = [] ∧
      state = Pipeline.init config stable ncclReady := by
  by_cases live : config.weightBroadcast = .nccl ∧ config.resumeStep.isSome
  · cases events with
    | nil => exact .inr ⟨live.1, live.2, rfl, (Option.some.inj ran).symm⟩
    | cons first later =>
      obtain ⟨next, accepted, remaining⟩ := (Machine.run_cons_iff _ _ _ _ _).mp ran
      rw [init_live live.1 live.2] at accepted
      obtain ⟨rfl, rfl⟩ := restoring_next _ rfl rfl rfl rfl accepted
      exact .inl ⟨later, .inr rfl, remaining⟩
  · rw [init_dead live] at ran
    exact .inl ⟨events, .inl rfl, ran⟩

theorem restored_ordered (within : ∀ maxSteps, config.maxSteps = some maxSteps →
      config.resumeStep.getD 0 < maxSteps) :
    (Pipeline.restored config stable ncclReady).Ordered config := by
  refine ⟨?_, ?_, ?_⟩
  · simp [Pipeline.InOrder, Pipeline.restored, Pipeline.nextBatch, Pipeline.unsent]
  · have open_ : gateOpen (config.resumeStep.getD 0 + 1) (config.resumeStep.getD 0) = true := by
      simp [gateOpen, targetLag]
    exact ⟨by simp [Pipeline.restored], rfl, by simp [Pipeline.restored, WatcherPhase.target],
      fun _ => open_, fun _ _ => rfl⟩
  · refine ⟨by simp [Pipeline.restored], ?_, ?_, by simp [Pipeline.restored],
      by simp [Pipeline.restored], within, by simp [Pipeline.restored]⟩
    · intro maxSteps limit
      have := within maxSteps limit
      simp only [Pipeline.unsent, Pipeline.restored]
      simp
      omega
    · intro maxSteps limit last
      have := within maxSteps limit
      simp only [Pipeline.restored] at last
      omega

end PrimeRl.PolicyUpdates
