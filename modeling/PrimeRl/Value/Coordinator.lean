import PrimeRl.Value.ReplayRuns

/-!
# Admission turns and readiness

A coordinator turn asks a receiver for at most `admission_limit` rollouts and
admits what it returned. The receiver is any function of its own link state. A
raise of the receiver or of an admission ends the turn without a result.
-/

namespace PrimeRl.Value.Replay

universe u
variable {Scalar : Type u}

/-- `receive_available` of a receiver: at most `limit` rollouts in order. -/
abbrev ReceiveAvailable (Link Scalar : Type u) :=
  Link → Int → Bool → Except String (List (ValueTrainingRollout Scalar) × Link)

/-- Admit one bounded FIFO slice and return its rollout count. The log line of
the filling state is omitted. -/
def admitAvailableRollouts {Link : Type u} (receive : ReceiveAvailable Link Scalar) (link : Link)
    (replay : ValueReplayBuffer Scalar) (waitForFirst : Bool) :
    Except String (Nat × Link × ValueReplayBuffer Scalar) :=
  match receive link replay.admissionLimit waitForFirst with
  | .error message => .error message
  | .ok (rollouts, received) =>
    match rollouts.foldlM ValueReplayBuffer.add replay with
    | .error message => .error message
    | .ok admitted => .ok (rollouts.length, received, admitted)

namespace ValueReplayBuffer

/-- Within the readiness bands, sampling is allowed exactly when the flag is set. -/
theorem can_sample_eq_ready (buffer : ValueReplayBuffer Scalar) (bands : Hysteresis buffer) :
    buffer.canSample = buffer.ready := by
  cases ready : buffer.ready with
  | false => simp [canSample, ready]
  | true => simp [canSample, ready, bands.enough ready]

/-- A filling buffer lacks at least one rollout, and a ready one asks for a full
batch, so the limit is never zero and never above one batch. -/
theorem admission_limit_bounds (buffer : ValueReplayBuffer Scalar) (bands : Hysteresis buffer) :
    1 ≤ buffer.admissionLimit ∧ buffer.admissionLimit ≤ buffer.config.batchSize := by
  have batchPositive := buffer.config.batch_positive
  simp only [admissionLimit, buffer.can_sample_eq_ready bands]
  cases ready : buffer.ready with
  | false =>
    have short := bands.filling ready
    simp only [Bool.false_eq_true, if_false]
    omega
  | true =>
    simp only [if_true]
    omega

/-- Admission raises the flag only at an occupancy of at least the refill size. -/
theorem add_ready (buffer after : ValueReplayBuffer Scalar) (rollout : ValueTrainingRollout Scalar)
    (books : Books buffer) (added : buffer.add rollout = .ok after) (filling : buffer.ready = false)
    (raised : after.ready = true) : buffer.config.refillSize ≤ after.size := by
  obtain ⟨-, ⟨full, rfl⟩ | ⟨-, rfl⟩⟩ := buffer.add_cases after rollout added
  · have occupied : buffer.size ≠ 0 := by
      have batchPositive := buffer.config.batch_positive
      have batchLeRefill := buffer.config.batch_le_refill
      have refillLeCapacity := buffer.config.refill_le_capacity
      omega
    obtain ⟨roomBooks, -⟩ := buffer.evict_books books occupied
    obtain ⟨entryId, entry, rest, -, evicted⟩ := buffer.evict_cases occupied
    obtain ⟨-, stored⟩ := buffer.evictOldest.store_eq rollout (fresh_entry _ roomBooks)
    rw [(buffer.evictOldest.store_books rollout roomBooks).2]
    rw [stored] at raised
    simp only [Bool.or_eq_true, decide_eq_true_eq] at raised
    rw [evicted] at raised ⊢
    simp only [filling, Bool.false_eq_true, false_or] at raised
    exact raised
  · obtain ⟨-, stored⟩ := buffer.store_eq rollout (buffer.fresh_entry books)
    rw [(buffer.store_books rollout books).2]
    rw [stored] at raised
    simp only [filling, Bool.false_or, decide_eq_true_eq] at raised
    exact raised

end ValueReplayBuffer

namespace ReplayRun

/-- A filling buffer stays filling along any run that never reaches the refill
size, because only admissions at that size raise the flag. -/
theorem filling_until_refill (config : ReplayConfig) (start final : ReplayRun Scalar)
    (ops : List (ReplayOp Scalar)) (traced : Traced config start)
    (filling : start.buffer.ready = false)
    (short : ∀ before middle, before <+: ops → Machine.run step start before = some middle →
      middle.buffer.size < config.refillSize)
    (ran : Machine.run step start ops = some final) : final.buffer.ready = false := by
  induction ops generalizing start with
  | nil =>
    rw [Machine.run_nil, Option.some.injEq] at ran
    exact ran ▸ filling
  | cons op rest inductionHypothesis =>
    obtain ⟨next, accepted, remaining⟩ := (Machine.run_cons_iff _ _ _ _ _).mp ran
    have nextShort : next.buffer.size < config.refillSize :=
      short [op] next ⟨rest, rfl⟩ ((Machine.run_cons_iff _ _ _ _ _).mpr ⟨next, accepted, rfl⟩)
    have laterShort : ∀ before middle, before <+: rest →
        Machine.run step next before = some middle →
        middle.buffer.size < config.refillSize := by
      intro before middle earlier reached
      exact short (op :: before) middle ((List.prefix_cons_inj op).mpr earlier)
        ((Machine.run_cons_iff _ _ _ _ _).mpr ⟨next, accepted, reached⟩)
    have nextTraced : Traced config next := traced_step config start op next traced accepted
    obtain ⟨rollout, after, -, added, rfl⟩ | ⟨draw, batch, after, -, -, sampled, -⟩ :=
      start.step_cases next op accepted
    · have stillFilling : after.ready = false := by
        by_contra raised
        rw [Bool.not_eq_false] at raised
        have refilled := start.buffer.add_ready after rollout traced.books added filling raised
        rw [traced.thresholds] at refilled
        exact absurd refilled (Nat.not_le.mpr nextShort)
      exact inductionHypothesis _ nextTraced stillFilling laterShort remaining
    · have allowed := (start.buffer.sample_cases after draw batch sampled).1
      rw [start.buffer.can_sample_eq_ready traced.bands, filling] at allowed
      exact absurd allowed Bool.false_ne_true

/-- Replay readiness in every reachable state: sampling is allowed exactly when
the flag is set, the next admission limit is between one and one batch, and a
turn gives the same result for receivers that differ only outside that range.
After a sample that leaves less than one batch, no run reaches a state that
allows a sample unless the occupancy reached the refill size on the way. -/
theorem replay_hysteresis (batchSize capacity refillSize maxUpdatesPerRollout : Int)
    (buffer : ValueReplayBuffer Scalar)
    (accepted : ValueReplayBuffer.init batchSize capacity refillSize maxUpdatesPerRollout =
      .ok buffer)
    (ops : List (ReplayOp Scalar)) (run : ReplayRun Scalar)
    (ran : Machine.run step { buffer := buffer } ops = some run) :
    (run.buffer.ready = true → batchSize ≤ run.buffer.size) ∧
      run.buffer.canSample = run.buffer.ready ∧
      (run.buffer.ready = false → (run.buffer.size : Int) < refillSize) ∧
      (1 ≤ run.buffer.admissionLimit ∧ run.buffer.admissionLimit ≤ batchSize) ∧
      (∀ (Link : Type u) (receive other : ReceiveAvailable Link Scalar) (link : Link) (wait : Bool),
        (∀ limit, 1 ≤ limit → limit ≤ batchSize → receive link limit wait = other link limit wait) →
        admitAvailableRollouts receive link run.buffer wait =
          admitAvailableRollouts other link run.buffer wait) ∧
      ∀ draw drained, run.step (.sample draw) = some drained →
        (drained.buffer.size : Int) < batchSize →
        ∀ more final, Machine.run step drained more = some final →
          final.buffer.canSample = true →
          ∃ before middle, before <+: more ∧ Machine.run step drained before = some middle ∧
            refillSize ≤ middle.buffer.size := by
  obtain ⟨config, rfl, isBatch, -, isRefill, -⟩ :=
    ValueReplayBuffer.init_cases batchSize capacity refillSize maxUpdatesPerRollout buffer accepted
  have traced := traced_run config ops run ran
  have bands := traced.bands
  have limits := run.buffer.admission_limit_bounds bands
  rw [traced.thresholds, isBatch] at limits
  refine ⟨?_, run.buffer.can_sample_eq_ready bands, ?_, limits, ?_, ?_⟩
  · intro ready
    have enough := bands.enough ready
    rw [traced.thresholds] at enough
    omega
  · intro filling
    have short := bands.filling filling
    rw [traced.thresholds] at short
    omega
  · intro Link receive other link wait agree
    simp only [admitAvailableRollouts, agree _ limits.1 limits.2]
  · intro draw drained sampled below more final reached allowed
    have drainedTraced : Traced config drained :=
      traced_step config run (.sample draw) drained traced sampled
    have drainedFilling : drained.buffer.ready = false := by
      by_contra raised
      rw [Bool.not_eq_false] at raised
      have enough := drainedTraced.bands.enough raised
      rw [drainedTraced.thresholds] at enough
      omega
    by_contra never
    have stillFilling := filling_until_refill config drained final more drainedTraced
      drainedFilling (fun before middle earlier reachedMiddle => by
        by_contra refilled
        exact never ⟨before, middle, earlier, reachedMiddle, by omega⟩) reached
    have finalBands : Hysteresis final.buffer :=
      (Machine.run_invariant (Traced config) (traced_step config) drainedTraced reached).bands
    rw [final.buffer.can_sample_eq_ready finalBands, stillFilling] at allowed
    exact absurd allowed Bool.false_ne_true

/-- Batches of two with a refill size of three: the sample of two out of three rollouts
drains the buffer below a batch, a fourth arrival makes up a batch but allows no sample,
and the fifth reaches the refill size. -/
theorem replay_hysteresis_after_training :
    let rollout (rolloutId : Int) : ValueTrainingRollout Int :=
      ⟨[⟨[3, 5], [true, true], [1, 1]⟩], rolloutId, 4, 2⟩
    let refill : List (ReplayOp Int) := [.add (rollout 3), .add (rollout 4)]
    let buffer : ValueReplayBuffer Int :=
      { config := ⟨2, 4, 3, 1, by decide, by decide, by decide, by decide⟩ }
    ∃ run drained filling final,
      ValueReplayBuffer.init 2 4 3 1 = .ok buffer ∧
      Machine.run step { buffer := buffer }
        [.add (rollout 0), .add (rollout 1), .add (rollout 2)] = some run ∧
      (1 ≤ run.buffer.admissionLimit ∧ run.buffer.admissionLimit ≤ 2) ∧
      run.step (.sample [2, 0]) = some drained ∧ drained.buffer.size = 1 ∧
      Machine.run step drained [.add (rollout 3)] = some filling ∧
      filling.buffer.size = 2 ∧ filling.buffer.canSample = false ∧
      Machine.run step drained refill = some final ∧ final.buffer.canSample = true ∧
      ∃ before middle, before <+: refill ∧ Machine.run step drained before = some middle ∧
        3 ≤ (middle.buffer.size : Int) := by
  intro rollout refill buffer
  obtain ⟨run, ran, seen⟩ := Option.map_eq_some_iff.mp
    (show (Machine.run step { buffer := buffer }
      [.add (rollout 0), .add (rollout 1), .add (rollout 2)]).map (fun run =>
        (run.step (.sample [2, 0])).map (fun drained => (drained.buffer.size,
          (Machine.run step drained [.add (rollout 3)]).map
            (fun filling => (filling.buffer.size, filling.buffer.canSample)),
          (Machine.run step drained refill).map (fun final => final.buffer.canSample)))) =
            some (some (1, some (2, false), some true)) by decide +kernel)
  obtain ⟨drained, sampled, seen⟩ := Option.map_eq_some_iff.mp seen
  simp only [Prod.mk.injEq, Option.map_eq_some_iff] at seen
  obtain ⟨below, ⟨filling, partly, short⟩, final, refilled, allowed⟩ := seen
  obtain ⟨-, -, -, limits, -, refills⟩ := replay_hysteresis 2 4 3 1 buffer rfl
    [.add (rollout 0), .add (rollout 1), .add (rollout 2)] run ran
  exact ⟨run, drained, filling, final, rfl, ran, limits, sampled, below, partly, short.1, short.2,
    refilled, allowed, refills [2, 0] drained sampled (by omega) refill final refilled allowed⟩

end ReplayRun

end PrimeRl.Value.Replay
