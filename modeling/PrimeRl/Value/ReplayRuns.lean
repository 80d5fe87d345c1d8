import PrimeRl.Value.Replay

/-!
# Runs of the replay buffer

A run interleaves admissions with allowed samples in any order, with any draw
the generator may return. Beside the buffer it records the admitted rollouts,
whose position is their entry id, and one turn per call: the ids the returned
batch selected and the ids that stopped being resident.
-/

namespace PrimeRl.Value.Replay

universe u
variable {Scalar : Type u}

/-- What one call did to the residents, and the batch it returned, if any. -/
structure Turn (Scalar : Type u) where
  selected : List Nat
  batch : Option (ValueTrainingBatch Scalar)
  removed : List Nat
deriving DecidableEq

structure ReplayRun (Scalar : Type u) where
  buffer : ValueReplayBuffer Scalar
  arrivals : List (ValueTrainingRollout Scalar) := []
  turns : List (Turn Scalar) := []

inductive ReplayOp (Scalar : Type u) where
  | add (rollout : ValueTrainingRollout Scalar)
  | sample (draw : List Nat)

def ReplayOp.isSample : ReplayOp Scalar → Bool
  | .add _ => false
  | .sample _ => true

namespace ReplayRun

/-- Ids that were resident before a call and are not after it. -/
def departed (before after : ValueReplayBuffer Scalar) : List Nat :=
  before.entries.keys.filter (fun entryId => decide (entryId ∉ after.entries.keys))

/-- One call. An admission without samples raises and a sample is only made
when it is allowed, so neither continues a run. -/
def step (run : ReplayRun Scalar) : ReplayOp Scalar → Option (ReplayRun Scalar)
  | .add rollout =>
    match run.buffer.add rollout with
    | .error _ => none
    | .ok after => some
        { buffer := after
          arrivals := run.arrivals ++ [rollout]
          turns := run.turns ++ [⟨[], none, departed run.buffer after⟩] }
  | .sample draw =>
    if run.buffer.Draws draw then
      match run.buffer.sample draw with
      | .error _ => none
      | .ok (batch, after) => some
          { run with
            buffer := after
            turns := run.turns ++
              [⟨draw.insertionSort (· ≤ ·), some batch, departed run.buffer after⟩] }
    else none

/-- Batches returned so far. -/
def batches (run : ReplayRun Scalar) : List (ValueTrainingBatch Scalar) :=
  run.turns.filterMap Turn.batch

/-- How many returned batches contain an id. -/
def selections (run : ReplayRun Scalar) (entryId : Nat) : Nat :=
  run.turns.countP (fun turn => decide (entryId ∈ turn.selected))

/-- The training sequences of the rollout admitted under an id. -/
def samplesOf (arrivals : List (ValueTrainingRollout Scalar)) (entryId : Nat) :
    List (ValueTrainingSample Scalar) :=
  (arrivals[entryId]?).elim [] ValueTrainingRollout.samples

/-- Every accepted call is one admission or one allowed sample. -/
theorem step_cases (run next : ReplayRun Scalar) (op : ReplayOp Scalar)
    (accepted : run.step op = some next) :
    (∃ rollout after, op = .add rollout ∧ run.buffer.add rollout = .ok after ∧
        next = { buffer := after
                 arrivals := run.arrivals ++ [rollout]
                 turns := run.turns ++ [⟨[], none, departed run.buffer after⟩] }) ∨
      ∃ draw batch after, op = .sample draw ∧ run.buffer.Draws draw ∧
        run.buffer.sample draw = .ok (batch, after) ∧
        next = { run with
                 buffer := after
                 turns := run.turns ++
                   [⟨draw.insertionSort (· ≤ ·), some batch, departed run.buffer after⟩] } := by
  cases op with
  | add rollout =>
    cases added : run.buffer.add rollout with
    | error message => simp [step, added] at accepted
    | ok after =>
      simp only [step, added, Option.some.injEq] at accepted
      exact .inl ⟨rollout, after, rfl, added, accepted.symm⟩
  | sample draw =>
    by_cases drawn : run.buffer.Draws draw
    · cases sampled : run.buffer.sample draw with
      | error message => simp [step, drawn, sampled] at accepted
      | ok result =>
        obtain ⟨batch, after⟩ := result
        simp only [step, drawn, sampled, if_true, Option.some.injEq] at accepted
        exact .inr ⟨draw, batch, after, rfl, drawn, sampled, accepted.symm⟩
    · simp [step, drawn] at accepted

/-- Each sample call returns one batch and no admission returns any. -/
theorem batches_count (run final : ReplayRun Scalar) (ops : List (ReplayOp Scalar))
    (ran : Machine.run step run ops = some final) :
    final.batches.length = run.batches.length + ops.countP ReplayOp.isSample := by
  induction ops generalizing run with
  | nil =>
    rw [Machine.run_nil, Option.some.injEq] at ran
    simp [ran]
  | cons op rest inductionHypothesis =>
    obtain ⟨next, accepted, remaining⟩ := (Machine.run_cons_iff _ _ _ _ _).mp ran
    rw [inductionHypothesis next remaining]
    obtain ⟨rollout, after, rfl, -, rfl⟩ | ⟨draw, batch, after, rfl, -, -, rfl⟩ :=
      run.step_cases next op accepted
    · simp [batches, List.filterMap_append, ReplayOp.isSample]
    · simp only [batches, List.filterMap_append, List.filterMap_cons, List.filterMap_nil,
        List.length_append, List.length_singleton, List.countP_cons, ReplayOp.isSample, if_true]
      omega

/-- The invariant of a run: the buffer's books and bands, and the recorded
history read back against the residents. -/
structure Traced (config : ReplayConfig) (run : ReplayRun Scalar) : Prop where
  thresholds : run.buffer.config = config
  books : Books run.buffer
  bands : Hysteresis run.buffer
  reusable : Reusable run.buffer
  arrived : run.buffer.admitted = run.arrivals.length
  resident : ∀ entry ∈ run.buffer.entries.entries,
    entry.2.attempts = run.selections entry.1 ∧ run.arrivals[entry.1]? = some entry.2.rollout
  counted : run.buffer.attempts = config.batchSize * run.batches.length
  capped : ∀ entryId, run.selections entryId ≤ config.maxUpdatesPerRollout
  issued : ∀ turn ∈ run.turns, ∀ entryId, entryId ∈ turn.selected ∨ entryId ∈ turn.removed →
    entryId < run.buffer.nextEntryId
  gone : ∀ turn ∈ run.turns, ∀ entryId ∈ turn.removed, entryId ∉ run.buffer.entries.keys
  once : ∀ turn ∈ run.turns, turn.selected.Nodup
  final : run.turns.Pairwise
    (fun earlier later => ∀ entryId ∈ earlier.removed, entryId ∉ later.selected)
  content : ∀ turn ∈ run.turns, ∀ batch, turn.batch = some batch →
    turn.selected.length = config.batchSize ∧
      batch.samples = turn.selected.flatMap (samplesOf run.arrivals)

theorem traced_init (config : ReplayConfig) :
    Traced config ({ buffer := { config := config } } : ReplayRun Scalar) where
  thresholds := rfl
  books := ValueReplayBuffer.init_books config
  bands := ValueReplayBuffer.init_hysteresis config
  reusable := fun _ impossible => absurd impossible List.not_mem_nil
  arrived := rfl
  resident := fun _ impossible => absurd impossible List.not_mem_nil
  counted := rfl
  capped := fun _ => Nat.zero_le _
  issued := fun _ impossible => absurd impossible List.not_mem_nil
  gone := fun _ impossible => absurd impossible List.not_mem_nil
  once := fun _ impossible => absurd impossible List.not_mem_nil
  final := List.Pairwise.nil
  content := fun _ impossible => absurd impossible List.not_mem_nil

/-- Ids issued before an admission keep their rollout after it. -/
theorem samples_of_append (arrivals : List (ValueTrainingRollout Scalar))
    (rollout : ValueTrainingRollout Scalar) (selected : List Nat)
    (issued : ∀ entryId ∈ selected, entryId < arrivals.length) :
    selected.flatMap (samplesOf (arrivals ++ [rollout])) =
      selected.flatMap (samplesOf arrivals) := by
  simp only [List.flatMap_def]
  congr 1
  apply List.map_congr_left
  intro entryId member
  simp only [samplesOf, List.getElem?_append_left (issued entryId member)]

theorem traced_add (config : ReplayConfig) (run : ReplayRun Scalar)
    (rollout : ValueTrainingRollout Scalar) (after : ValueReplayBuffer Scalar)
    (traced : Traced config run) (added : run.buffer.add rollout = .ok after) :
    Traced config { buffer := after
                    arrivals := run.arrivals ++ [rollout]
                    turns := run.turns ++ [⟨[], none, departed run.buffer after⟩] } := by
  obtain ⟨sameConfig, afterBooks, afterBands, sameAttempts⟩ :=
    run.buffer.add_preserves after rollout traced.books traced.bands added
  obtain ⟨kept, remaining, listed, nextIssued, oneMore⟩ :=
    run.buffer.add_listed after rollout traced.books added
  have nextIsLength : run.buffer.nextEntryId = run.arrivals.length :=
    traced.books.numbered.trans traced.arrived
  have sameSelections (entryId : Nat) :
      selections { buffer := after
                   arrivals := run.arrivals ++ [rollout]
                   turns := run.turns ++ [⟨[], none, departed run.buffer after⟩] } entryId =
        run.selections entryId := by
    simp [selections, List.countP_append]
  have unselected : run.selections run.buffer.nextEntryId = 0 := by
    rw [selections, List.countP_eq_zero]
    intro turn member
    simp only [decide_eq_true_eq]
    intro selected
    exact absurd (traced.issued turn member _ (.inl selected)) (Nat.lt_irrefl _)
  have keysListed : after.entries.keys = kept.map Prod.fst ++ [run.buffer.nextEntryId] := by
    simp only [OrderedDict.keys, listed, List.map_append, List.map_cons, List.map_nil]
  refine
    { thresholds := sameConfig.trans traced.thresholds
      books := afterBooks
      bands := afterBands
      reusable := run.buffer.add_reusable after rollout traced.books traced.reusable sameConfig added
      arrived := ?_
      resident := ?_
      counted := ?_
      capped := fun entryId => sameSelections entryId ▸ traced.capped entryId
      issued := ?_
      gone := ?_
      once := ?_
      final := ?_
      content := ?_ }
  · simp only [oneMore, traced.arrived, List.length_append, List.length_singleton]
  · intro entry member
    rw [listed] at member
    rw [sameSelections]
    rcases List.mem_append.mp member with old | new
    · have before := remaining.subset old
      obtain ⟨attempts, stored⟩ := traced.resident entry before
      have inRange : entry.1 < run.arrivals.length :=
        nextIsLength ▸ traced.books.issued entry.1 (List.mem_map_of_mem before)
      exact ⟨attempts, (List.getElem?_append_left inRange).trans stored⟩
    · obtain rfl := List.mem_singleton.mp new
      refine ⟨unselected.symm, ?_⟩
      simp only [nextIsLength, List.getElem?_concat_length]
  · simp only [batches, List.filterMap_append, List.filterMap_cons, List.filterMap_nil,
      List.append_nil]
    exact sameAttempts.trans traced.counted
  · intro turn member entryId involved
    simp only [nextIssued]
    rcases List.mem_append.mp member with old | new
    · exact Nat.lt_succ_of_lt (traced.issued turn old entryId involved)
    · obtain rfl := List.mem_singleton.mp new
      rcases involved with impossible | left
      · simp at impossible
      · exact Nat.lt_succ_of_lt (traced.books.issued entryId (List.mem_filter.mp left).1)
  · intro turn member entryId left
    rcases List.mem_append.mp member with old | new
    · rw [keysListed]
      intro returned
      rcases List.mem_append.mp returned with stayed | fresh
      · exact traced.gone turn old entryId left ((remaining.map Prod.fst).subset stayed)
      · have before := traced.issued turn old entryId (.inr left)
        rw [List.mem_singleton.mp fresh] at before
        exact absurd before (Nat.lt_irrefl _)
    · obtain rfl := List.mem_singleton.mp new
      simpa using (List.mem_filter.mp left).2
  · intro turn member
    rcases List.mem_append.mp member with old | new
    · exact traced.once turn old
    · obtain rfl := List.mem_singleton.mp new
      exact List.nodup_nil
  · rw [List.pairwise_append]
    refine ⟨traced.final, List.pairwise_singleton _ _, ?_⟩
    intro earlier _ later new entryId _
    obtain rfl := List.mem_singleton.mp new
    exact List.not_mem_nil
  · intro turn member batch returned
    rcases List.mem_append.mp member with old | new
    · obtain ⟨width, content⟩ := traced.content turn old batch returned
      refine ⟨width, content.trans (samples_of_append _ _ _ ?_).symm⟩
      intro entryId selected
      exact nextIsLength ▸ traced.issued turn old entryId (.inl selected)
    · obtain rfl := List.mem_singleton.mp new
      simp at returned

/-- The batch of a draw concatenates the sequences of the drawn rollouts, in the
order of their ids. -/
theorem batch_content (config : ReplayConfig) (run : ReplayRun Scalar) (entryIds : List Nat)
    (traced : Traced config run) (unique : entryIds.Nodup)
    (residents : ∀ entryId ∈ entryIds, entryId ∈ run.buffer.entries.keys) :
    (ValueReplayBuffer.trainingBatch
        (entryIds.filterMap (run.buffer.selectAll entryIds).entries.get?)).samples =
      entryIds.flatMap (samplesOf run.arrivals) := by
  have each : ∀ entryId ∈ entryIds, ∃ entry,
      (run.buffer.selectAll entryIds).entries.get? entryId = some entry ∧
        run.arrivals[entryId]? = some entry.rollout := by
    intro entryId member
    obtain ⟨⟨foundId, entry⟩, listed, rfl⟩ := List.mem_map.mp (residents entryId member)
    refine ⟨entry.select, ?_, (traced.resident _ listed).2⟩
    exact run.buffer.select_all_get entryIds _ entry unique member
      ((OrderedDict.get?_eq_some_iff _ _ _).mpr listed)
  generalize (run.buffer.selectAll entryIds).entries.get? = read at each
  clear unique residents
  simp only [ValueReplayBuffer.trainingBatch]
  induction entryIds with
  | nil => rfl
  | cons entryId rest inductionHypothesis =>
    obtain ⟨entry, found, arrival⟩ := each entryId List.mem_cons_self
    have restEach := inductionHypothesis
      (fun other member => each other (List.mem_cons_of_mem entryId member))
    simp only [List.filterMap_cons, found, List.map_cons, List.flatMap_cons, restEach]
    simp only [samplesOf, arrival, Option.elim_some]

theorem traced_sample (config : ReplayConfig) (run : ReplayRun Scalar) (draw : List Nat)
    (batch : ValueTrainingBatch Scalar) (after : ValueReplayBuffer Scalar)
    (traced : Traced config run) (drawn : run.buffer.Draws draw)
    (sampled : run.buffer.sample draw = .ok (batch, after)) :
    Traced config { run with
                    buffer := after
                    turns := run.turns ++
                      [⟨draw.insertionSort (· ≤ ·), some batch, departed run.buffer after⟩] } := by
  obtain ⟨sameConfig, afterBooks, afterBands, afterReusable, sameAdmitted, counted, listed⟩ :=
    run.buffer.sample_preserves after draw batch traced.books traced.bands traced.reusable drawn
      sampled
  obtain ⟨-, batchRead, -⟩ := run.buffer.sample_cases after draw batch sampled
  obtain ⟨distinct, width, residents⟩ := drawn
  have reordered : (draw.insertionSort (· ≤ ·)).Perm draw := List.perm_insertionSort _ draw
  have unique : (draw.insertionSort (· ≤ ·)).Nodup := reordered.nodup_iff.mpr distinct
  have keysBefore : after.entries.keys.Sublist run.buffer.entries.keys := by
    have reread := listed.map Prod.fst
    rw [List.map_map] at reread
    have sameKeys : (run.buffer.entries.entries.map (Prod.fst ∘ fun entry =>
        if entry.1 ∈ draw then (entry.1, entry.2.select) else entry)) =
        run.buffer.entries.keys := by
      apply List.map_congr_left
      intro entry _
      simp only [Function.comp_apply]
      split <;> rfl
    exact sameKeys ▸ reread
  have moreSelections (entryId : Nat) :
      selections { run with
                   buffer := after
                   turns := run.turns ++
                     [⟨draw.insertionSort (· ≤ ·), some batch, departed run.buffer after⟩] }
          entryId =
        run.selections entryId + if entryId ∈ draw then 1 else 0 := by
    simp only [selections, List.countP_append, List.countP_cons, List.countP_nil,
      decide_eq_true_eq, reordered.mem_iff, Nat.zero_add]
  have sameNext : after.nextEntryId = run.buffer.nextEntryId := by
    rw [afterBooks.numbered, traced.books.numbered, sameAdmitted]
  refine
    { thresholds := sameConfig.trans traced.thresholds
      books := afterBooks
      bands := afterBands
      reusable := afterReusable
      arrived := sameAdmitted.trans traced.arrived
      resident := ?_
      counted := ?_
      capped := ?_
      issued := ?_
      gone := ?_
      once := ?_
      final := ?_
      content := ?_ }
  · intro entry member
    obtain ⟨before, present, rfl⟩ := List.mem_map.mp (listed.subset member)
    obtain ⟨attempts, stored⟩ := traced.resident before present
    rw [moreSelections]
    by_cases selected : before.1 ∈ draw
    · simp only [selected, if_true, ReplayEntry.select, attempts]
      exact ⟨trivial, stored⟩
    · simp only [selected, if_false, attempts, Nat.add_zero]
      exact ⟨trivial, stored⟩
  · have batchesBefore := traced.counted
    simp only [batches, List.filterMap_append, List.filterMap_cons, List.filterMap_nil,
      List.length_append, List.length_singleton, Nat.mul_add, Nat.mul_one] at batchesBefore ⊢
    rw [counted, batchesBefore, traced.thresholds]
  · intro entryId
    rw [moreSelections]
    by_cases selected : entryId ∈ draw
    · obtain ⟨⟨residentId, entry⟩, present, rfl⟩ := List.mem_map.mp (residents entryId selected)
      have below : entry.attempts < run.buffer.config.maxUpdatesPerRollout :=
        traced.reusable entry (List.mem_map_of_mem present)
      have attempts : entry.attempts = run.selections residentId :=
        (traced.resident (residentId, entry) present).1
      rw [traced.thresholds] at below
      simp only [selected, if_true]
      omega
    · simp only [selected, if_false, Nat.add_zero]
      exact traced.capped entryId
  · intro turn member entryId involved
    simp only [sameNext]
    rcases List.mem_append.mp member with old | new
    · exact traced.issued turn old entryId involved
    · obtain rfl := List.mem_singleton.mp new
      apply traced.books.issued
      rcases involved with selected | left
      · exact residents entryId (reordered.mem_iff.mp selected)
      · exact (List.mem_filter.mp left).1
  · intro turn member entryId left
    rcases List.mem_append.mp member with old | new
    · exact fun returned => traced.gone turn old entryId left (keysBefore.subset returned)
    · obtain rfl := List.mem_singleton.mp new
      simpa using (List.mem_filter.mp left).2
  · intro turn member
    rcases List.mem_append.mp member with old | new
    · exact traced.once turn old
    · obtain rfl := List.mem_singleton.mp new
      exact unique
  · rw [List.pairwise_append]
    refine ⟨traced.final, List.pairwise_singleton _ _, ?_⟩
    intro earlier old later new entryId left selected
    obtain rfl := List.mem_singleton.mp new
    exact traced.gone earlier old entryId left (residents entryId (reordered.mem_iff.mp selected))
  · intro turn member returnedBatch returned
    rcases List.mem_append.mp member with old | new
    · exact traced.content turn old returnedBatch returned
    · obtain rfl := List.mem_singleton.mp new
      obtain rfl := Option.some.inj returned
      refine ⟨?_, ?_⟩
      · simp only [List.length_insertionSort, width, traced.thresholds]
      · rw [batchRead]
        exact batch_content config run _ traced unique
          (fun entryId selected => residents entryId (reordered.mem_iff.mp selected))

theorem traced_step (config : ReplayConfig) (run : ReplayRun Scalar) (op : ReplayOp Scalar)
    (next : ReplayRun Scalar) (traced : Traced config run) (accepted : run.step op = some next) :
    Traced config next := by
  obtain ⟨rollout, after, -, added, rfl⟩ | ⟨draw, batch, after, -, drawn, sampled, rfl⟩ :=
    run.step_cases next op accepted
  · exact traced_add config run rollout after traced added
  · exact traced_sample config run draw batch after traced drawn sampled

/-- The invariant holds after every run of a freshly constructed buffer. -/
theorem traced_run (config : ReplayConfig) (ops : List (ReplayOp Scalar)) (final : ReplayRun Scalar)
    (ran : Machine.run step { buffer := { config := config } } ops = some final) :
    Traced config final :=
  Machine.run_invariant (Traced config) (traced_step config) (traced_init config) ran

/-- Accounting and the reuse cap, for any accepted thresholds, any order of
admissions and allowed samples, and any draws. Residents stay within capacity
and in admission order; the hand-kept totals equal sums over the residents;
every arrival is resident, retired or evicted. Each entry id, which names one
arrival, is selected by at most `max_updates_per_rollout` batches, at most once
in each, and by none after it left the buffer. -/
theorem replay_accounting (batchSize capacity refillSize maxUpdatesPerRollout : Int)
    (buffer : ValueReplayBuffer Scalar)
    (accepted : ValueReplayBuffer.init batchSize capacity refillSize maxUpdatesPerRollout =
      .ok buffer)
    (ops : List (ReplayOp Scalar)) (final : ReplayRun Scalar)
    (ran : Machine.run step { buffer := buffer } ops = some final) :
    ((final.buffer.snapshot.size : Int) ≤ capacity ∧
      final.buffer.snapshot.size = final.buffer.entries.size) ∧
      final.buffer.snapshot.samples = final.buffer.entries.total ReplayEntry.samples ∧
      final.buffer.snapshot.tokens = final.buffer.entries.total ReplayEntry.tokens ∧
      final.buffer.snapshot.admitted = final.arrivals.length ∧
      final.buffer.snapshot.admitted = final.buffer.snapshot.size +
        final.buffer.snapshot.retired + final.buffer.snapshot.evicted ∧
      (final.buffer.snapshot.attempts : Int) = batchSize * ops.countP ReplayOp.isSample ∧
      final.batches.length = ops.countP ReplayOp.isSample ∧
      final.buffer.entries.keys.Pairwise (· < ·) ∧
      (∀ entry ∈ final.buffer.entries.entries,
        (entry.2.attempts : Int) < maxUpdatesPerRollout ∧
          entry.2.attempts = final.selections entry.1 ∧
          final.arrivals[entry.1]? = some entry.2.rollout) ∧
      (∀ entryId, (final.selections entryId : Int) ≤ maxUpdatesPerRollout) ∧
      (∀ turn ∈ final.turns, turn.selected.Nodup ∧
        ∀ batch, turn.batch = some batch → (turn.selected.length : Int) = batchSize ∧
          batch.samples = turn.selected.flatMap (samplesOf final.arrivals)) ∧
      final.turns.Pairwise
        (fun earlier later => ∀ entryId ∈ earlier.removed, entryId ∉ later.selected) := by
  obtain ⟨config, rfl, isBatch, isCapacity, -, isCap⟩ :=
    ValueReplayBuffer.init_cases batchSize capacity refillSize maxUpdatesPerRollout buffer accepted
  have traced := traced_run config ops final ran
  have calls := batches_count { buffer := { config := config } } final ops ran
  simp only [batches, List.filterMap_nil, List.length_nil, Nat.zero_add] at calls
  have bounded := traced.bands.bounded
  rw [traced.thresholds] at bounded
  refine ⟨⟨?_, rfl⟩, traced.books.samples_total, traced.books.tokens_total, traced.arrived,
    traced.books.conserved, ?_, calls, traced.books.ordered, ?_, ?_, ?_, traced.final⟩
  · simp only [ValueReplayBuffer.snapshot]
    omega
  · have counted := traced.counted
    simp only [batches, calls] at counted
    simp only [ValueReplayBuffer.snapshot, counted, ← isBatch]
    push_cast
    rfl
  · intro entry member
    obtain ⟨attempts, stored⟩ := traced.resident entry member
    have below := traced.reusable entry.2 (List.mem_map_of_mem member)
    rw [traced.thresholds] at below
    exact ⟨by omega, attempts, stored⟩
  · intro entryId
    have capped := traced.capped entryId
    omega
  · intro turn member
    refine ⟨traced.once turn member, ?_⟩
    intro batch returned
    obtain ⟨width, content⟩ := traced.content turn member batch returned
    exact ⟨by omega, content⟩

/-- Batches of two in a buffer of three: the fourth arrival evicts the first, and the
second selection of the second reaches the cap of two and retires it. -/
theorem replay_accounting_reuse :
    let rollout (rolloutId : Int) : ValueTrainingRollout Int :=
      ⟨[⟨[3, 5], [true, true], [1, 1]⟩], rolloutId, 4, 2⟩
    let ops : List (ReplayOp Int) :=
      [.add (rollout 0), .add (rollout 1), .sample [1, 0], .add (rollout 2), .add (rollout 3),
        .sample [1, 2]]
    let buffer : ValueReplayBuffer Int :=
      { config := ⟨2, 3, 2, 2, by decide, by decide, by decide, by decide⟩ }
    ∃ final,
      ValueReplayBuffer.init 2 3 2 2 = .ok buffer ∧
      Machine.run step { buffer := buffer } ops = some final ∧
      final.buffer.snapshot.evicted = 1 ∧ final.buffer.snapshot.retired = 1 ∧
      final.buffer.entries.keys = [2, 3] ∧ final.selections 1 = 2 ∧
      final.buffer.snapshot.admitted = final.buffer.snapshot.size +
        final.buffer.snapshot.retired + final.buffer.snapshot.evicted ∧
      (final.buffer.snapshot.attempts : Int) = 2 * ops.countP ReplayOp.isSample ∧
      (∀ entryId, (final.selections entryId : Int) ≤ 2) ∧
      final.turns.Pairwise
        (fun earlier later => ∀ entryId ∈ earlier.removed, entryId ∉ later.selected) := by
  intro rollout ops buffer
  obtain ⟨final, ran, seen⟩ := Option.map_eq_some_iff.mp
    (show (Machine.run step { buffer := buffer } ops).map (fun final =>
      (final.buffer.snapshot.evicted, final.buffer.snapshot.retired, final.buffer.entries.keys,
        final.selections 1)) = some (1, 1, [2, 3], 2) by decide +kernel)
  simp only [Prod.mk.injEq] at seen
  obtain ⟨evicted, retired, residents, selected⟩ := seen
  obtain ⟨-, -, -, -, conserved, attempts, -, -, -, capped, -, finished⟩ :=
    replay_accounting 2 3 2 2 buffer rfl ops final ran
  exact ⟨final, rfl, ran, evicted, retired, residents, selected, conserved, attempts, capped,
    finished⟩

end ReplayRun

end PrimeRl.Value.Replay
