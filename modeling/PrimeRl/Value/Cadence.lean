import Mathlib.Algebra.Ring.Int.Defs
import Mathlib.Algebra.Ring.Nat
import PrimeRl.Support.Blocks
import PrimeRl.Value.Coordinator

/-!
# One update for each admitted cohort

With capacity, refill size and batch size equal and one update for each rollout,
a filling buffer is a cohort under assembly: admissions append to it, the sample
that a full cohort allows is forced to select all of it, and nothing is left
behind. What the receiver delivered is then the sampled cohorts, in order,
followed by the cohort under assembly.
-/

namespace PrimeRl.Value.Replay

universe u
variable {Scalar : Type u}

/-- The thresholds that the configuration resolves to when none is given. -/
structure DefaultReplay (config : ReplayConfig) : Prop where
  capacity_is_batch : config.capacity = config.batchSize
  refill_is_batch : config.refillSize = config.batchSize
  single_update : config.maxUpdatesPerRollout = 1

/-- The batch of rollouts that were all selected for the first time. -/
def cohortBatch (rollouts : List (ValueTrainingRollout Scalar)) : ValueTrainingBatch Scalar :=
  ValueReplayBuffer.trainingBatch (rollouts.map (fun rollout => { rollout := rollout, attempts := 1 }))

/-- A receiver link that remembers what it delivered. -/
structure Recorded (Link Scalar : Type u) where
  link : Link
  delivered : List (ValueTrainingRollout Scalar)

/-- Note each delivery behind the earlier ones. -/
def recorded {Link : Type u} (receive : ReceiveAvailable Link Scalar) :
    ReceiveAvailable (Recorded Link Scalar) Scalar :=
  fun tape limit waitForFirst =>
    (receive tape.link limit waitForFirst).map
      (fun received => (received.1, ⟨received.2, tape.delivered ++ received.1⟩))

/-- What every receiver promises: no call returns more than it was asked for. -/
def Bounded {Link : Type u} (receive : ReceiveAvailable Link Scalar) : Prop :=
  ∀ link limit waitForFirst rollouts after,
    receive link limit waitForFirst = .ok (rollouts, after) → (rollouts.length : Int) ≤ limit

/-- The generator of one call: whenever a sample is allowed it draws one batch of
distinct residents. -/
structure RandomSample (Scalar : Type u) where
  draw : ValueReplayBuffer Scalar → List Nat
  draws : ∀ buffer : ValueReplayBuffer Scalar, buffer.canSample = true → buffer.Draws (draw buffer)

theorem oldest_draws (buffer : ValueReplayBuffer Scalar) (allowed : buffer.canSample = true) :
    buffer.Draws (buffer.entries.keys.take buffer.config.batchSize) := by
  have enough : buffer.config.batchSize ≤ buffer.entries.entries.length :=
    of_decide_eq_true (Bool.and_eq_true_iff.mp allowed).2
  refine ⟨buffer.entries.distinct.sublist (List.take_sublist _ _), ?_, ?_⟩
  · rw [List.length_take, OrderedDict.keys, List.length_map]
    omega
  · intro entryId member
    exact List.mem_of_mem_take member

/-- The generator that always draws the oldest residents. -/
def RandomSample.oldest : RandomSample Scalar where
  draw buffer := buffer.entries.keys.take buffer.config.batchSize
  draws := oldest_draws

namespace ValueReplayBuffer

/-- Resident rollouts, oldest first. -/
def residents (buffer : ValueReplayBuffer Scalar) : List (ValueTrainingRollout Scalar) :=
  buffer.entries.values.map ReplayEntry.rollout

@[simp] theorem residents_length (buffer : ValueReplayBuffer Scalar) :
    buffer.residents.length = buffer.size := by
  simp only [residents, OrderedDict.values, List.length_map, size, OrderedDict.size]

/-- A cohort under assembly: the buffer is in order and nothing was ever evicted. -/
structure Assembling (config : ReplayConfig) (buffer : ValueReplayBuffer Scalar) : Prop where
  thresholds : buffer.config = config
  books : Books buffer
  bands : Hysteresis buffer
  reusable : Reusable buffer
  complete : buffer.evicted = 0

theorem assembling_init (config : ReplayConfig) :
    Assembling config ({ config := config } : ValueReplayBuffer Scalar) where
  thresholds := rfl
  books := init_books config
  bands := init_hysteresis config
  reusable := fun _ impossible => absurd impossible List.not_mem_nil
  complete := rfl

/-- With room left, an admission evicts nothing and joins the cohort at its end. -/
theorem Assembling.add {config : ReplayConfig} {buffer after : ValueReplayBuffer Scalar}
    {rollout : ValueTrainingRollout Scalar} (assembling : Assembling config buffer)
    (room : buffer.size < config.capacity) (added : buffer.add rollout = .ok after) :
    Assembling config after ∧ after.residents = buffer.residents ++ [rollout] ∧
      after.admitted = buffer.admitted + 1 := by
  obtain ⟨sameConfig, books, bands, -⟩ :=
    buffer.add_preserves after rollout assembling.books assembling.bands added
  have reusable := buffer.add_reusable after rollout assembling.books assembling.reusable
    sameConfig added
  obtain ⟨-, ⟨full, -⟩ | ⟨-, rfl⟩⟩ := buffer.add_cases after rollout added
  · rw [assembling.thresholds] at full
    omega
  · obtain ⟨listed, stored⟩ := buffer.store_eq rollout (buffer.fresh_entry assembling.books)
    refine ⟨⟨sameConfig.trans assembling.thresholds, books, bands, reusable, ?_⟩, ?_, ?_⟩
    · rw [stored]
      exact assembling.complete
    · simp only [residents, OrderedDict.values, listed, List.map_append, List.map_cons,
        List.map_nil]
    · rw [stored]

/-- A slice that fits joins the cohort in the order it was delivered. -/
theorem Assembling.admit_slice {config : ReplayConfig} {buffer after : ValueReplayBuffer Scalar}
    {rollouts : List (ValueTrainingRollout Scalar)} (assembling : Assembling config buffer)
    (room : buffer.size + rollouts.length ≤ config.capacity)
    (admitted : rollouts.foldlM ValueReplayBuffer.add buffer = .ok after) :
    Assembling config after ∧ after.residents = buffer.residents ++ rollouts ∧
      after.admitted = buffer.admitted + rollouts.length := by
  induction rollouts generalizing buffer with
  | nil =>
    cases admitted
    exact ⟨assembling, (List.append_nil _).symm, rfl⟩
  | cons rollout rest inductionHypothesis =>
    rw [List.length_cons] at room
    rw [List.foldlM_cons] at admitted
    cases added : buffer.add rollout with
    | error message =>
      rw [added] at admitted
      cases admitted
    | ok middle =>
      rw [added] at admitted
      obtain ⟨middleAssembling, joined, counted⟩ := assembling.add (by omega) added
      have grown : middle.size = buffer.size + 1 := by
        rw [← residents_length, joined, List.length_append, residents_length]
        rfl
      obtain ⟨afterAssembling, remaining, total⟩ :=
        inductionHypothesis middleAssembling (by omega) admitted
      refine ⟨afterAssembling, ?_, ?_⟩
      · rw [remaining, joined, List.append_assoc]
        rfl
      · rw [total, counted, List.length_cons]
        omega

/-- A slice of rollouts with samples is admitted whole. -/
theorem admit_accepted (buffer : ValueReplayBuffer Scalar)
    (rollouts : List (ValueTrainingRollout Scalar))
    (usable : ∀ rollout ∈ rollouts, rollout.samples ≠ []) :
    ∃ after, rollouts.foldlM ValueReplayBuffer.add buffer = .ok after := by
  induction rollouts generalizing buffer with
  | nil => exact ⟨buffer, rfl⟩
  | cons rollout rest inductionHypothesis =>
    obtain ⟨here, later⟩ := List.forall_mem_cons.mp usable
    have added : buffer.add rollout = .ok ((if buffer.size = buffer.config.capacity then
        buffer.evictOldest else buffer).store rollout) := by
      simp only [add, List.isEmpty_iff, here, if_false]
    rw [List.foldlM_cons, added]
    exact inductionHypothesis _ later

/-- Retirement is counted apart from eviction. -/
theorem retire_all_evicted (buffer : ValueReplayBuffer Scalar) (entryIds : List Nat) :
    (entryIds.foldl retire buffer).evicted = buffer.evicted := by
  induction entryIds generalizing buffer with
  | nil => rfl
  | cons entryId rest inductionHypothesis =>
    rw [List.foldl_cons, inductionHypothesis]
    obtain ⟨kept, -⟩ | ⟨entry, -, -, removed⟩ := buffer.retire_cases entryId
    · rw [kept]
    · rw [removed]

/-- A draw of as many distinct residents as there are selects all of them, and
in id order that is the order of admission. -/
theorem draw_all (buffer : ValueReplayBuffer Scalar) (draw : List Nat) (books : Books buffer)
    (drawn : buffer.Draws draw) (whole : buffer.size = buffer.config.batchSize) :
    draw.insertionSort (· ≤ ·) = buffer.entries.keys := by
  obtain ⟨distinct, width, residents⟩ := drawn
  have sameLength : buffer.entries.keys.length ≤ draw.length := by
    rw [width, ← whole]
    simp only [OrderedDict.keys, List.length_map, size, OrderedDict.size, le_refl]
  have reordered : draw.Perm buffer.entries.keys :=
    (List.subperm_of_subset distinct residents).perm_of_length_le sameLength
  have increasing : buffer.entries.keys.Pairwise (· ≤ ·) := books.ordered.imp Nat.le_of_lt
  exact ((List.perm_insertionSort _ draw).trans reordered).eq_of_pairwise
    (fun _ _ _ _ => Nat.le_antisymm) (List.pairwise_insertionSort _ draw) increasing

/-- Reading every id of a dictionary in order lists its values. -/
theorem read_all (entries : OrderedDict Nat (ReplayEntry Scalar)) :
    entries.keys.filterMap entries.get? = entries.values := by
  have each : ∀ entry ∈ entries.entries, entries.get? entry.1 = some entry.2 :=
    fun entry member => (OrderedDict.get?_eq_some_iff entries entry.1 entry.2).mpr member
  simp only [OrderedDict.keys, OrderedDict.values, List.filterMap_map]
  rw [← List.filterMap_eq_map]
  exact List.filterMap_congr each

/-- The sample that a full cohort allows selects the whole cohort in admission
order and leaves an empty buffer. -/
theorem Assembling.sample {config : ReplayConfig} {buffer after : ValueReplayBuffer Scalar}
    {draw : List Nat} {batch : ValueTrainingBatch Scalar}
    (assembling : Assembling config buffer) (default : DefaultReplay config)
    (drawn : buffer.Draws draw) (sampled : buffer.sample draw = .ok (batch, after)) :
    Assembling config after ∧ buffer.size = config.batchSize ∧
      batch = cohortBatch buffer.residents ∧ after.residents = [] ∧
      after.admitted = buffer.admitted := by
  obtain ⟨sameConfig, books, bands, reusable, sameAdmitted, -, listed⟩ := buffer.sample_preserves after draw
    batch assembling.books assembling.bands assembling.reusable drawn sampled
  obtain ⟨allowed, batchRead, settled⟩ := buffer.sample_cases after draw batch sampled
  have bounded := assembling.bands.bounded
  rw [assembling.thresholds, default.capacity_is_batch] at bounded
  have whole : buffer.size = config.batchSize := by
    simp only [canSample, Bool.and_eq_true, decide_eq_true_eq, assembling.thresholds] at allowed
    omega
  have all : draw.insertionSort (· ≤ ·) = buffer.entries.keys :=
    buffer.draw_all draw assembling.books drawn (by rw [whole, assembling.thresholds])
  have unselected : ∀ entry ∈ buffer.entries.values, entry.attempts = 0 := by
    intro entry member
    have below := assembling.reusable entry member
    rw [assembling.thresholds, default.single_update] at below
    omega
  have everyId : ∀ entry ∈ buffer.entries.entries, entry.1 ∈ draw := by
    intro entry member
    rw [← List.mem_insertionSort (· ≤ ·), all]
    exact List.mem_map_of_mem member
  have drained : after.entries.entries = [] := by
    rw [List.eq_nil_iff_forall_not_mem]
    intro entry member
    obtain ⟨before, present, rfl⟩ := List.mem_map.mp (listed.subset member)
    have below := reusable _ (List.mem_map_of_mem member)
    simp only [everyId before present, if_true, ReplayEntry.select, sameConfig,
      assembling.thresholds, default.single_update] at below
    omega
  have kept : after.evicted = buffer.evicted := by
    rw [settled, settle_eq]
    exact retire_all_evicted _ _
  refine ⟨⟨sameConfig.trans assembling.thresholds, books, bands, reusable,
    kept.trans assembling.complete⟩, whole, ?_, ?_, sameAdmitted⟩
  · have counted : (buffer.selectAll buffer.entries.keys).entries.entries =
        buffer.entries.entries.map (fun entry => (entry.1, entry.2.select)) := by
      rw [buffer.select_all_entries _ (all ▸ (List.perm_insertionSort _ draw).nodup_iff.mpr drawn.1)]
      apply List.map_congr_left
      intro entry member
      have isKey : entry.1 ∈ buffer.entries.keys := List.mem_map_of_mem member
      simp only [isKey, if_true]
    have sameKeys : (buffer.selectAll buffer.entries.keys).entries.keys = buffer.entries.keys := by
      rw [OrderedDict.keys, counted, List.map_map]
      rfl
    have read := read_all (buffer.selectAll buffer.entries.keys).entries
    rw [sameKeys, OrderedDict.values, counted, List.map_map] at read
    rw [batchRead, all, read, cohortBatch, residents, OrderedDict.values, List.map_map,
      List.map_map]
    congr 1
    apply List.map_congr_left
    intro entry member
    have first : entry.2.attempts = 0 := unselected entry.2 (List.mem_map_of_mem member)
    simp only [Function.comp_apply, ReplayEntry.select, first]
  · simp only [residents, OrderedDict.values, drained, List.map_nil]

end ValueReplayBuffer

/-- The state of a loop between two of its turns: what the receiver delivered is
the sampled cohorts in order, then the cohort under assembly. -/
structure Cadence (config : ReplayConfig) (buffer : ValueReplayBuffer Scalar)
    (delivered : List (ValueTrainingRollout Scalar)) (sampled : List (ValueTrainingBatch Scalar)) :
    Prop where
  assembling : ValueReplayBuffer.Assembling config buffer
  arrived : buffer.admitted = delivered.length
  cohorts : ∃ blocks, Blocks.Cut config.batchSize delivered blocks buffer.residents ∧
    sampled = blocks.map cohortBatch

namespace Cadence

variable {config : ReplayConfig} {buffer after : ValueReplayBuffer Scalar}
  {delivered : List (ValueTrainingRollout Scalar)} {sampled : List (ValueTrainingBatch Scalar)}

theorem init (config : ReplayConfig) :
    Cadence config ({ config := config } : ValueReplayBuffer Scalar) [] [] where
  assembling := ValueReplayBuffer.assembling_init config
  arrived := rfl
  cohorts := ⟨[], Blocks.cut_nil _, rfl⟩

/-- While a cohort is assembled, the sampled cohorts and its residents are the
quotient and the remainder of what was delivered. -/
theorem counts (cadence : Cadence config buffer delivered sampled)
    (default : DefaultReplay config) (filling : buffer.canSample = false) :
    sampled.length = delivered.length / config.batchSize ∧
      buffer.size = delivered.length % config.batchSize := by
  have bands := cadence.assembling.bands
  have short := bands.filling (buffer.can_sample_eq_ready bands ▸ filling)
  rw [cadence.assembling.thresholds, default.refill_is_batch] at short
  obtain ⟨blocks, cut, rfl⟩ := cadence.cohorts
  rw [List.length_map, ← ValueReplayBuffer.residents_length]
  exact cut.counts (by rwa [ValueReplayBuffer.residents_length])

/-- A filling buffer asks for exactly what the cohort lacks. -/
theorem admission_limit (cadence : Cadence config buffer delivered sampled)
    (default : DefaultReplay config) (filling : buffer.canSample = false) :
    buffer.admissionLimit = (config.batchSize : Int) - (delivered.length : Int) % config.batchSize := by
  obtain ⟨-, size⟩ := cadence.counts default filling
  have below := Nat.mod_lt delivered.length config.batch_positive
  simp only [ValueReplayBuffer.admissionLimit, filling, Bool.false_eq_true, if_false,
    cadence.assembling.thresholds, default.refill_is_batch, size]
  omega

/-- What the receiver returns for the rest of the cohort is admitted and noted. -/
theorem admits {Link : Type u} {receive : ReceiveAvailable Link Scalar} {link after : Link}
    {waitForFirst : Bool} {rollouts : List (ValueTrainingRollout Scalar)}
    (cadence : Cadence config buffer delivered sampled) (default : DefaultReplay config)
    (filling : buffer.canSample = false)
    (received : receive link ((config.batchSize : Int) - (delivered.length : Int) % config.batchSize)
      waitForFirst = .ok (rollouts, after))
    (usable : ∀ rollout ∈ rollouts, rollout.samples ≠ []) :
    ∃ admitted, admitAvailableRollouts (recorded receive) ⟨link, delivered⟩ buffer waitForFirst =
      .ok (rollouts.length, ⟨after, delivered ++ rollouts⟩, admitted) := by
  obtain ⟨admitted, joined⟩ := buffer.admit_accepted rollouts usable
  refine ⟨admitted, ?_⟩
  rw [← cadence.admission_limit default filling] at received
  simp only [admitAvailableRollouts, recorded, received, Except.map, joined]

/-- A turn of a filling buffer asks for no more than the cohort lacks, so what
arrives lengthens the cohort. -/
theorem admit_slice {Link : Type u} {receive : ReceiveAvailable Link Scalar} {link : Link}
    {waitForFirst : Bool} {count : Nat} {tape : Recorded Link Scalar}
    (cadence : Cadence config buffer delivered sampled) (default : DefaultReplay config)
    (bounded : Bounded receive) (filling : buffer.canSample = false)
    (admitted : admitAvailableRollouts (recorded receive) ⟨link, delivered⟩ buffer waitForFirst =
      .ok (count, tape, after)) :
    Cadence config after tape.delivered sampled := by
  simp only [admitAvailableRollouts, recorded] at admitted
  cases received : receive link buffer.admissionLimit waitForFirst with
  | error message => simp [received, Except.map] at admitted
  | ok result =>
    obtain ⟨rollouts, next⟩ := result
    simp only [received, Except.map] at admitted
    cases joined : rollouts.foldlM ValueReplayBuffer.add buffer with
    | error message => simp [joined] at admitted
    | ok grown =>
      simp only [joined, Except.ok.injEq, Prod.mk.injEq] at admitted
      obtain ⟨-, rfl, rfl⟩ := admitted
      have inLimit := bounded _ _ _ _ _ received
      have size := cadence.assembling.bands.bounded
      have room : buffer.size + rollouts.length ≤ config.capacity := by
        simp only [ValueReplayBuffer.admissionLimit, filling, Bool.false_eq_true, if_false,
          cadence.assembling.thresholds, default.refill_is_batch] at inLimit
        rw [cadence.assembling.thresholds, default.capacity_is_batch] at size
        rw [default.capacity_is_batch]
        omega
      obtain ⟨assembling, listed, counted⟩ := cadence.assembling.admit_slice room joined
      obtain ⟨blocks, cut, produced⟩ := cadence.cohorts
      refine ⟨assembling, ?_, blocks, ?_, produced⟩
      · rw [counted, cadence.arrived, List.length_append]
      · rw [listed]
        exact cut.extend rollouts

/-- The sample of a full cohort is the next block, and the buffer fills again. -/
theorem sample {draw : List Nat} {batch : ValueTrainingBatch Scalar}
    (cadence : Cadence config buffer delivered sampled) (default : DefaultReplay config)
    (drawn : buffer.Draws draw) (selected : buffer.sample draw = .ok (batch, after)) :
    Cadence config after delivered (sampled ++ [batch]) ∧ after.canSample = false := by
  obtain ⟨assembling, whole, produced, drained, sameAdmitted⟩ :=
    cadence.assembling.sample default drawn selected
  obtain ⟨blocks, cut, earlier⟩ := cadence.cohorts
  constructor
  · refine ⟨assembling, sameAdmitted.trans cadence.arrived, blocks ++ [buffer.residents], ?_, ?_⟩
    · rw [drained]
      exact cut.close (by rw [ValueReplayBuffer.residents_length, whole])
    · rw [earlier, produced, List.map_append, List.map_cons, List.map_nil]
  · have batchPositive := config.batch_positive
    have empty : after.size = 0 := by
      rw [← ValueReplayBuffer.residents_length, drained, List.length_nil]
    simp only [ValueReplayBuffer.canSample, empty, assembling.thresholds, Bool.and_eq_false_iff,
      decide_eq_false_iff_not]
    omega

/-- Batch `index` is made of the delivered rollouts from `index * batch_size` on. -/
theorem batch_at (cadence : Cadence config buffer delivered sampled) (index : Nat)
    (batch : ValueTrainingBatch Scalar) (found : sampled[index]? = some batch) :
    index * config.batchSize + config.batchSize ≤ delivered.length ∧
      batch = cohortBatch ((delivered.drop (index * config.batchSize)).take config.batchSize) := by
  obtain ⟨blocks, cut, produced⟩ := cadence.cohorts
  rw [produced, List.getElem?_map, Option.map_eq_some_iff] at found
  obtain ⟨block, listed, rfl⟩ := found
  obtain ⟨inside, same⟩ := cut.block_at index block listed
  exact ⟨inside, by rw [← same]⟩

end Cadence

end PrimeRl.Value.Replay
