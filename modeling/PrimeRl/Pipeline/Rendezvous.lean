import PrimeRl.Pipeline.PolicyOrder

/-!
# Handing a policy over through NCCL

Trainer and engines meet for one transfer at a time. The trainer marks its step,
the watcher picks the newest mark and answers with a mark of its own, and only then
does either side enter the transfer. The invariant says where the two can be while
the other one is anywhere between.
-/

namespace PrimeRl.PolicyUpdates

variable {config : PipelineConfig} {state after : Pipeline} {event : Event}

/-- The trainer has marked its step and has not handed its policy over. -/
def Pipeline.Offering (state : Pipeline) : Prop :=
  state.trainer = .announced ∨ state.trainer = .sending

/-- The newest policy that is handed over by the end of a step. -/
def handedOver (config : PipelineConfig) (step : Nat) : Nat :=
  match config.maxSteps with
  | some maxSteps => min step (maxSteps - 2)
  | none => step

theorem handed_over_le (step : Nat) : handedOver config step ≤ step := by
  unfold handedOver
  split
  · exact Nat.min_le_left _ _
  · exact Nat.le_refl step

theorem handed_over_unused {step : Nat} (nccl : config.weightBroadcast = .nccl)
    (unused : ncclBroadcastUnused config step = true) :
    handedOver config step = handedOver config (step - 1) := by
  cases limit : config.maxSteps with
  | none => simp [ncclBroadcastUnused, nccl, limit] at unused
  | some maxSteps =>
    simp only [ncclBroadcastUnused, nccl, limit, decide_eq_true_eq] at unused
    simp only [handedOver, limit]
    omega

/-- Where the trainer, its marks and the engines stand. -/
structure Pipeline.Offers (config : PipelineConfig) (state : Pipeline) : Prop where
  never : state.trainer ≠ .published
  started : 0 < state.trainerStep
  marked : ∀ step ∈ state.stable, step ≤ state.weights ∨ step = state.trainerStep ∧ state.Offering
  offered : state.Offering → state.trainerStep ∈ state.stable ∧
    ncclBroadcastUnused config state.trainerStep = false
  behind : state.weights ≤ state.trainerStep
  fresh : state.trainer ≠ .broadcast → state.trainer ≠ .exited → state.weights < state.trainerStep
  caughtUp : handedOver config (state.trainerStep - 1) ≤ state.weights
  done : state.trainer = .broadcast ∨ state.trainer = .exited →
    handedOver config state.trainerStep ≤ state.weights
  kept : config.resumeStep.getD 0 ≤ state.ckptStep
  taken : ∀ maxSteps, config.maxSteps = some maxSteps →
    state.weights ≤ max (config.resumeStep.getD 0) (maxSteps - 2)

/-- Where the watcher stands in an update. -/
structure Pipeline.Fetches (state : Pipeline) : Prop where
  answered : ∀ step ∈ state.ncclReady, step ≤ state.weights ∨ state.watcher = .receiving step
  fetching : ∀ nextStep, state.watcher = .waiting nextStep ∨ state.watcher = .pending nextStep ∨
      state.watcher = .pausing nextStep →
    state.trainer = .announced ∧ state.trainerStep = nextStep
  receiving : ∀ nextStep, state.watcher = .receiving nextStep →
    state.Offering ∧ state.trainerStep = nextStep ∧ nextStep ∈ state.ncclReady
  sending : state.trainer = .sending → state.watcher = .receiving state.trainerStep
  held : (∀ nextStep, state.watcher ≠ .received nextStep) → state.weights = state.ckptStep
  received : ∀ nextStep, state.watcher = .received nextStep → state.weights = nextStep

structure Pipeline.Rendezvous (config : PipelineConfig) (state : Pipeline) : Prop where
  ordered : state.Ordered config
  offers : state.Offers config
  fetches : state.Fetches

/-- The newest marker is one of the markers. -/
theorem latest_mem {stable : List Nat} (some_ : 0 < latestCkptStep stable) :
    latestCkptStep stable ∈ stable := by
  induction stable with
  | nil => simp [latestCkptStep] at some_
  | cons first rest inductionHypothesis =>
    simp only [latestCkptStep, List.foldr_cons, List.mem_cons] at *
    rcases Nat.le_total first (rest.foldr max 0) with later | later
    · rw [Nat.max_eq_right later] at some_ ⊢
      exact .inr (inductionHypothesis some_)
    · exact .inl (Nat.max_eq_left later)

theorem le_latest {stable : List Nat} {step : Nat} (marked : step ∈ stable) :
    step ≤ latestCkptStep stable := by
  induction stable with
  | nil => cases marked
  | cons first rest inductionHypothesis =>
    rcases List.mem_cons.mp marked with rfl | later
    · exact Nat.le_max_left _ _
    · exact (inductionHypothesis later).trans (Nat.le_max_right _ _)

/-- What a poll picks is a marker, and newer than the adopted policy. -/
theorem next_ckpt_mem (gated : state.Gated) (newer : state.ckptStep < computeNextCkptStep state) :
    computeNextCkptStep state ∈ state.stable := by
  simp only [computeNextCkptStep, gated.adopted] at newer
  have latest : state.ckptStep < latestCkptStep state.stable := by omega
  have same : computeNextCkptStep state = latestCkptStep state.stable := by
    simp only [computeNextCkptStep, gated.adopted]
    exact Nat.max_eq_right latest.le
  rw [same]
  exact latest_mem (Nat.zero_lt_of_lt latest)

theorem offers_step (nccl : config.weightBroadcast = .nccl)
    (step : Step config state event after) (rendezvous : state.Rendezvous config) :
    after.Offers config := by
  obtain ⟨never, started, marked, offered, behind, fresh, caughtUp, done, kept, taken⟩ :=
    rendezvous.offers
  cases step with
  | load nextStep running filesystem => simp [nccl] at filesystem
  | publish trained filesystem => simp [nccl] at filesystem
  | clean published => exact absurd published never
  | take batch rest waiting =>
    have idle : ¬state.Offering := by simp [Pipeline.Offering, waiting]
    refine ⟨by simp, started, fun step listed => ?_, by simp [Pipeline.Offering], behind,
      fun _ _ => fresh (by simp [waiting]) (by simp [waiting]), caughtUp, by simp, kept, taken⟩
    exact .inl ((marked step listed).resolve_right fun offer => idle offer.2)
  | skip trained unused =>
    have idle : ¬state.Offering := by simp [Pipeline.Offering, trained]
    refine ⟨by simp, started, fun step listed => ?_, by simp [Pipeline.Offering], behind,
      by simp, caughtUp, fun _ => ?_, kept, taken⟩
    · exact .inl ((marked step listed).resolve_right fun offer => idle offer.2)
    · exact (handed_over_unused nccl unused).trans_le caughtUp
  | announce trained used =>
    have idle : ¬state.Offering := by simp [Pipeline.Offering, trained]
    refine ⟨by simp, started, fun step listed => ?_, fun _ => ⟨by simp, used⟩, behind,
      fun _ _ => fresh (by simp [trained]) (by simp [trained]), caughtUp, by simp, kept, taken⟩
    rcases List.mem_append.mp listed with older | new
    · exact .inl ((marked step older).resolve_right fun offer => idle offer.2)
    · exact .inr ⟨List.mem_singleton.mp new, .inl rfl⟩
  | proceed announced ready =>
    refine ⟨by simp, started, fun step listed => ?_, fun _ => offered (.inl announced), behind,
      fun _ _ => fresh (by simp [announced]) (by simp [announced]), caughtUp, by simp, kept, taken⟩
    exact (marked step listed).imp_right fun offer => ⟨offer.1, .inr rfl⟩
  | transfer nextStep running sending receiving =>
    refine ⟨by simp, started, fun step listed => .inl ?_, by simp [Pipeline.Offering],
      Nat.le_refl _, by simp, (handed_over_le _).trans (Nat.sub_le _ _),
      fun _ => handed_over_le _, kept, fun maxSteps limit => ?_⟩
    · rcases marked step listed with older | offer
      · exact older.trans behind
      · exact offer.1.le
    · have used := (offered (.inr sending)).2
      simp only [ncclBroadcastUnused, nccl, limit, decide_eq_false_iff_not] at used
      change state.trainerStep ≤ _
      omega
  | exit broadcast last =>
    have idle : ¬state.Offering := by simp [Pipeline.Offering, broadcast]
    refine ⟨by simp, started, fun step listed => ?_, by simp [Pipeline.Offering], behind,
      by simp, caughtUp, fun _ => done (.inl broadcast), kept, taken⟩
    exact .inl ((marked step listed).resolve_right fun offer => idle offer.2)
  | finish broadcast more =>
    have idle : ¬state.Offering := by simp [Pipeline.Offering, broadcast]
    refine ⟨by simp, Nat.succ_pos _, fun step listed => ?_, by simp [Pipeline.Offering],
      behind.trans (Nat.le_succ _), fun _ _ => Nat.lt_succ_of_le behind,
      done (.inl broadcast), by simp, kept, taken⟩
    exact .inl ((marked step listed).resolve_right fun offer => idle offer.2)
  | adopt nextStep running received =>
    have newer := rendezvous.ordered.gated.newer nextStep (by rw [received]; rfl)
    exact ⟨never, started, marked, offered, behind, fresh, caughtUp, done, kept.trans newer.le, taken⟩
  | send | past | ship | stop | poll | confirm | drain | pause | notify =>
    exact ⟨never, started, marked, offered, behind, fresh, caughtUp, done, kept, taken⟩

theorem fetches_step (nccl : config.weightBroadcast = .nccl)
    (step : Step config state event after) (rendezvous : state.Rendezvous config) :
    after.Fetches := by
  have offers := rendezvous.offers
  obtain ⟨answered, fetching, receiving, sending, held, received⟩ := rendezvous.fetches
  cases step with
  | load nextStep running filesystem => simp [nccl] at filesystem
  | publish trained filesystem => simp [nccl] at filesystem
  | clean published => exact absurd published offers.never
  | poll running idle newer =>
    have weights := held (by simp [idle])
    have listed := next_ckpt_mem rendezvous.ordered.gated newer
    obtain ⟨same, offering⟩ := (offers.marked _ listed).resolve_left (by omega)
    have announced : state.trainer = .announced :=
      offering.resolve_right fun sent => by simp [idle] at sending; exact sending sent
    refine ⟨fun step ready => .inl ?_, fun nextStep phase => ?_, by simp,
      by simp [announced], fun _ => weights, by simp⟩
    · exact (answered step ready).resolve_right (by simp [idle])
    · simp only [WatcherPhase.waiting.injEq, reduceCtorEq, or_false] at phase
      exact ⟨announced, same.symm.trans phase⟩
  | confirm nextStep running waiting =>
    obtain ⟨announced, same⟩ := fetching nextStep (.inl waiting)
    refine ⟨fun step ready => .inl ?_, fun other phase => ?_, by simp, by simp [announced],
      fun _ => held (by simp [waiting]), by simp⟩
    · exact (answered step ready).resolve_right (by simp [waiting])
    · simp only [WatcherPhase.pending.injEq, reduceCtorEq, or_false, false_or] at phase
      exact ⟨announced, same.trans phase⟩
  | drain nextStep running pending =>
    obtain ⟨announced, same⟩ := fetching nextStep (.inr (.inl pending))
    refine ⟨fun step ready => .inl ?_, fun other phase => ?_, by simp, by simp [announced],
      fun _ => held (by simp [pending]), by simp⟩
    · exact (answered step ready).resolve_right (by simp [pending])
    · simp only [WatcherPhase.pausing.injEq, reduceCtorEq, false_or] at phase
      exact ⟨announced, same.trans phase⟩
  | pause nextStep running pausing =>
    obtain ⟨announced, same⟩ := fetching nextStep (.inr (.inr pausing))
    refine ⟨fun step ready => ?_, by simp, fun other phase => ?_, by simp [announced],
      fun _ => held (by simp [pausing]), by simp⟩
    · rcases List.mem_append.mp ready with older | new
      · exact .inl ((answered step older).resolve_right (by simp [pausing]))
      · exact .inr (by rw [List.mem_singleton.mp new])
    · obtain rfl := WatcherPhase.receiving.inj phase
      exact ⟨.inl announced, same, by simp⟩
  | transfer nextStep running sent receives =>
    obtain ⟨_, same, _⟩ := receiving nextStep receives
    refine ⟨fun step ready => .inl ?_, by simp, by simp, by simp, by simp, ?_⟩
    · rcases answered step ready with older | phase
      · exact older.trans offers.behind
      · rw [receives] at phase
        obtain rfl := WatcherPhase.receiving.inj phase
        exact same.ge
    · rintro other phase
      exact same.trans (WatcherPhase.received.inj phase)
  | adopt nextStep running receives =>
    refine ⟨fun step ready => .inl ?_, by simp, by simp, fun sent => ?_, fun _ => ?_, by simp⟩
    · exact (answered step ready).resolve_right (by simp [receives])
    · exact absurd (sending sent) (by simp [receives])
    · exact received nextStep receives
  | notify nextStep running announcing =>
    refine ⟨fun step ready => .inl ?_, by simp, by simp, fun sent => ?_, fun _ => ?_, by simp⟩
    · exact (answered step ready).resolve_right (by simp [announcing])
    · exact absurd (sending sent) (by simp [announcing])
    · exact held (by simp [announcing])
  | take batch rest waiting =>
    refine ⟨answered, fun nextStep phase => ?_, fun nextStep phase => ?_, by simp, held, received⟩
    · exact absurd (fetching nextStep phase).1 (by simp [waiting])
    · exact absurd (receiving nextStep phase).1 (by simp [Pipeline.Offering, waiting])
  | skip trained | announce trained =>
    refine ⟨answered, fun nextStep phase => ?_, fun nextStep phase => ?_, by simp, held, received⟩
    · exact absurd (fetching nextStep phase).1 (by simp [trained])
    · exact absurd (receiving nextStep phase).1 (by simp [Pipeline.Offering, trained])
  | proceed announced ready =>
    have asked : state.watcher = .receiving state.trainerStep :=
      (answered _ ready).resolve_left
        (Nat.not_le.mpr (offers.fresh (by simp [announced]) (by simp [announced])))
    refine ⟨answered, by simp [asked], fun nextStep phase => ?_, fun _ => asked, held, received⟩
    exact ⟨.inr rfl, (receiving nextStep phase).2⟩
  | exit broadcast | finish broadcast =>
    refine ⟨answered, fun nextStep phase => ?_, fun nextStep phase => ?_, by simp, held, received⟩
    · exact absurd (fetching nextStep phase).1 (by simp [broadcast])
    · exact absurd (receiving nextStep phase).1 (by simp [Pipeline.Offering, broadcast])
  | send | past | ship | stop =>
    exact ⟨answered, fetching, receiving, sending, held, received⟩

theorem rendezvous_step (nccl : config.weightBroadcast = .nccl)
    (step : Step config state event after) (rendezvous : state.Rendezvous config) :
    after.Rendezvous config :=
  ⟨ordered_step step rendezvous.ordered, offers_step nccl step rendezvous,
    fetches_step nccl step rendezvous⟩

variable {stable ncclReady : List Nat}

theorem restored_rendezvous
    (within : ∀ maxSteps, config.maxSteps = some maxSteps → config.resumeStep.getD 0 < maxSteps)
    (marked : ∀ step ∈ stable, step ≤ config.resumeStep.getD 0)
    (answered : ∀ step ∈ ncclReady, step ≤ config.resumeStep.getD 0) :
    (Pipeline.restored config stable ncclReady).Rendezvous config := by
  refine ⟨restored_ordered within, ?_, ?_⟩
  · refine ⟨by simp [Pipeline.restored], Nat.succ_pos _, fun step listed => .inl (marked step listed),
      by simp [Pipeline.Offering, Pipeline.restored], Nat.le_succ _, fun _ _ => Nat.lt_succ_self _,
      handed_over_le _, by simp [Pipeline.restored], Nat.le_refl _, fun _ _ => Nat.le_max_left _ _⟩
  · exact ⟨fun step ready => .inl (answered step ready), by simp [Pipeline.restored],
      by simp [Pipeline.restored], by simp [Pipeline.restored], fun _ => rfl,
      by simp [Pipeline.restored]⟩

theorem run_rendezvous {events : List Event} (nccl : config.weightBroadcast = .nccl)
    (within : ∀ maxSteps, config.maxSteps = some maxSteps → config.resumeStep.getD 0 < maxSteps)
    (marked : ∀ step ∈ stable, step ≤ config.resumeStep.getD 0)
    (answered : ∀ step ∈ ncclReady, step ≤ config.resumeStep.getD 0)
    (ran : Machine.run (Pipeline.next config) (Pipeline.restored config stable ncclReady) events =
      some state) : state.Rendezvous config :=
  Machine.run_invariant (Pipeline.Rendezvous config)
    (fun _ _ _ rendezvous accepted =>
      rendezvous_step nccl (next_step rendezvous.ordered.gated.restored accepted) rendezvous)
    (restored_rendezvous within marked answered) ran

theorem version_le_weights (rendezvous : state.Rendezvous config) :
    state.version ≤ state.weights := by
  rw [rendezvous.ordered.gated.adopted]
  by_cases receives : ∃ nextStep, state.watcher = .received nextStep
  · obtain ⟨nextStep, phase⟩ := receives
    rw [rendezvous.fetches.received nextStep phase]
    exact (rendezvous.ordered.gated.newer nextStep (by rw [phase]; rfl)).le
  · exact (rendezvous.fetches.held (not_exists.mp receives)).ge

/-- A stopped orchestrator leaves no trainer waiting for a receiver. -/
theorem stopped_not_offering (nccl : config.weightBroadcast = .nccl)
    (rendezvous : state.Rendezvous config) (stopped : state.stopped = true) :
    ¬state.Offering := by
  intro offering
  obtain ⟨draining, enough⟩ := rendezvous.ordered.limited.stopped stopped
  obtain ⟨maxSteps, limit, _⟩ := rendezvous.ordered.limited.drained draining
  have used := (rendezvous.offers.offered offering).2
  have fresh : state.weights < state.trainerStep := by
    rcases offering with phase | phase <;>
      exact rendezvous.offers.fresh (by simp [phase]) (by simp [phase])
  simp only [requiredBroadcastsAdopted, nccl, limit, decide_eq_true_eq] at enough
  simp only [ncclBroadcastUnused, nccl, limit, decide_eq_false_iff_not] at used
  have adopted := version_le_weights rendezvous
  omega

/-- Policies over NCCL, wherever a run stands. The trainer takes the batch of its own step. A
transfer is of the step that the watcher asked for, and that is newer than what it adopted. The
engines hold the version in force, or between a transfer and its adoption the newer one. They are
never ahead of the trainer, and at the start of a step lack at most the last policies that nobody
takes. An orchestrator that has stopped leaves no trainer waiting for it. -/
theorem policies_handed_over (config : PipelineConfig) (stable ncclReady : List Nat)
    (nccl : config.weightBroadcast = .nccl)
    (within : ∀ maxSteps, config.maxSteps = some maxSteps → config.resumeStep.getD 0 < maxSteps)
    (marked : ∀ step ∈ stable, step ≤ config.resumeStep.getD 0)
    (answered : ∀ step ∈ ncclReady, step ≤ config.resumeStep.getD 0)
    (events : List Event) (state : Pipeline)
    (ran : Machine.run (Pipeline.next config) (Pipeline.init config stable ncclReady) events =
      some state) :
    (state.trainer = .waiting → ∃ count, state.sent = List.range' state.trainerStep count) ∧
    (∀ after, state.next config .transfer = some after → state.watcher ≠ .restoring →
      state.watcher = .receiving state.trainerStep ∧ state.version < state.trainerStep ∧
        after.weights = state.trainerStep) ∧
    ((∀ nextStep, state.watcher ≠ .received nextStep) → state.weights = state.version) ∧
    (∀ nextStep, state.watcher = .received nextStep →
      state.weights = nextStep ∧ state.version < nextStep) ∧
    (state.watcher ≠ .restoring →
      handedOver config (state.trainerStep - 1) ≤ state.weights ∧
        state.weights ≤ state.trainerStep) ∧
    (state.stopped = true →
      state.trainer ≠ .restoring ∧ state.trainer ≠ .announced ∧ state.trainer ≠ .sending) := by
  rcases run_restored ran with ⟨later, _, remaining⟩ | ⟨_, resumed, _, rfl⟩
  · have rendezvous := run_rendezvous nccl within marked answered remaining
    have ordered := rendezvous.ordered
    have offers := rendezvous.offers
    have fetches := rendezvous.fetches
    refine ⟨fun waiting => ?_, fun after accepted past => ?_, fun settled => ?_, ?_,
      fun _ => ⟨offers.caughtUp, offers.behind⟩, fun stopped => ?_⟩
    · have queued := ordered.inOrder.2
      simp only [Pipeline.nextBatch, waiting, if_true, Nat.add_zero] at queued
      exact ⟨_, queued⟩
    · cases next_step past accepted with
      | transfer nextStep running sending receiving =>
        obtain ⟨_, same, _⟩ := fetches.receiving nextStep receiving
        refine ⟨by rw [receiving, same], ?_, rfl⟩
        rw [ordered.gated.adopted, same]
        exact ordered.gated.newer nextStep (by rw [receiving]; rfl)
    · rw [ordered.gated.adopted]
      exact fetches.held settled
    · intro nextStep phase
      rw [ordered.gated.adopted]
      exact ⟨fetches.received nextStep phase,
        ordered.gated.newer nextStep (by rw [phase]; rfl)⟩
    · have free := stopped_not_offering nccl rendezvous stopped
      exact ⟨ordered.limited.trainerRestored, fun phase => free (.inl phase),
        fun phase => free (.inr phase)⟩
  · rw [init_live nccl resumed]
    simp [Pipeline.restored]

/-- The first policy of a run on its way: the watcher has asked for it and the trainer has seen
the answer. -/
theorem policies_handed_over_first :
    let config : PipelineConfig := ⟨.nccl, none, none, none⟩
    ∃ state, Machine.run (Pipeline.next config) (Pipeline.init config [] [])
        [.send, .take, .publish, .poll, .ship, .confirm, .drain, .send, .pause, .proceed] =
          some state ∧
      (∀ after, state.next config .transfer = some after → after.weights = 1) ∧
      state.weights = 0 ∧ state.sent = [2] := by
  refine ⟨_, rfl, fun after accepted => ?_, rfl, rfl⟩
  have handed := policies_handed_over ⟨.nccl, none, none, none⟩ [] [] rfl (by simp) (by simp)
    (by simp) [.send, .take, .publish, .poll, .ship, .confirm, .drain, .send, .pause, .proceed] _ rfl
  exact (handed.2.1 after accepted (by decide)).2.2

end PrimeRl.PolicyUpdates
