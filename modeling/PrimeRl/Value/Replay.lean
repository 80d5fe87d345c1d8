import Mathlib.Data.List.Sort
import Mathlib.Data.Rat.Defs
import Mathlib.Tactic.Linarith
import PrimeRl.Support.Machine
import PrimeRl.Support.OrderedDict
import PrimeRl.Value.Types

/-!
# The critic replay buffer

Admission is first in, first out; sampling draws distinct residents; an entry
leaves by eviction when a full buffer admits, or by retirement once it has been
selected `max_updates_per_rollout` times. The buffer's hand-kept counters are
integers here, so a missed or doubled update would show as a wrong or negative
value instead of being truncated.

The random generator is an explicit draw. Its only contract is the one of
`random.Random.sample`: `batch_size` distinct residents in any order.
-/

namespace PrimeRl.Value.Replay

universe u
variable {Scalar : Type u}

/-- The thresholds of a constructed buffer, with the relations its constructor
enforces. -/
structure ReplayConfig where
  batchSize : Nat
  capacity : Nat
  refillSize : Nat
  maxUpdatesPerRollout : Nat
  batch_positive : 1 ≤ batchSize
  batch_le_refill : batchSize ≤ refillSize
  refill_le_capacity : refillSize ≤ capacity
  updates_positive : 1 ≤ maxUpdatesPerRollout
deriving DecidableEq

structure ReplayEntry (Scalar : Type u) where
  rollout : ValueTrainingRollout Scalar
  attempts : Nat := 0
deriving DecidableEq, Repr

def ReplayEntry.samples (entry : ReplayEntry Scalar) : Nat := entry.rollout.samples.length

def ReplayEntry.tokens (entry : ReplayEntry Scalar) : Nat :=
  (entry.rollout.samples.map (fun sample => sample.tokenIds.length)).sum

/-- Count one more selection. -/
def ReplayEntry.select (entry : ReplayEntry Scalar) : ReplayEntry Scalar :=
  { entry with attempts := entry.attempts + 1 }

structure ValueReplayBuffer (Scalar : Type u) where
  config : ReplayConfig
  entries : OrderedDict Nat (ReplayEntry Scalar) := .empty
  nextEntryId : Nat := 0
  ready : Bool := false
  samples : Int := 0
  tokens : Int := 0
  admitted : Nat := 0
  attempts : Nat := 0
  retired : Nat := 0
  evicted : Nat := 0
deriving DecidableEq

namespace ValueReplayBuffer

/-- The constructor, with its argument checks in order. The seed only feeds the
generator, whose draws are explicit below. -/
def init (batchSize capacity refillSize maxUpdatesPerRollout : Int) :
    Except String (ValueReplayBuffer Scalar) :=
  if batchPositive : batchSize < 1 then .error "batch_size must be positive"
  else if capacityEnough : capacity < batchSize then
    .error "capacity must be at least batch_size"
  else if refillBetween : ¬ (batchSize ≤ refillSize ∧ refillSize ≤ capacity) then
    .error "refill_size must be between batch_size and capacity"
  else if updatesPositive : maxUpdatesPerRollout < 1 then
    .error "max_updates_per_rollout must be positive"
  else
    .ok { config :=
          { batchSize := batchSize.toNat
            capacity := capacity.toNat
            refillSize := refillSize.toNat
            maxUpdatesPerRollout := maxUpdatesPerRollout.toNat
            batch_positive := by omega
            batch_le_refill := by omega
            refill_le_capacity := by omega
            updates_positive := by omega } }

def size (buffer : ValueReplayBuffer Scalar) : Nat := buffer.entries.size

def canSample (buffer : ValueReplayBuffer Scalar) : Bool :=
  buffer.ready && decide (buffer.config.batchSize ≤ buffer.size)

/-- Maximum rollouts to admit in the next bounded coordinator turn. -/
def admissionLimit (buffer : ValueReplayBuffer Scalar) : Int :=
  if buffer.canSample then buffer.config.batchSize
  else min (buffer.config.batchSize : Int) (max ((buffer.config.refillSize : Int) - buffer.size) 0)

def removeTotals (buffer : ValueReplayBuffer Scalar) (entry : ReplayEntry Scalar) :
    ValueReplayBuffer Scalar :=
  { buffer with
    samples := buffer.samples - entry.samples
    tokens := buffer.tokens - entry.tokens }

/-- Make room by removing the oldest resident. -/
def evictOldest (buffer : ValueReplayBuffer Scalar) : ValueReplayBuffer Scalar :=
  match buffer.entries.popFirst with
  | none => buffer
  | some ((_, entry), rest) =>
    let removed := { buffer with entries := rest }.removeTotals entry
    { removed with evicted := removed.evicted + 1 }

/-- Store a fresh entry under the next id and leave the filling state once the
occupancy reaches the refill size. -/
def store (buffer : ValueReplayBuffer Scalar) (rollout : ValueTrainingRollout Scalar) :
    ValueReplayBuffer Scalar :=
  let entry : ReplayEntry Scalar := { rollout := rollout }
  let stored : ValueReplayBuffer Scalar :=
    { buffer with
      entries := buffer.entries.set buffer.nextEntryId entry
      nextEntryId := buffer.nextEntryId + 1
      samples := buffer.samples + entry.samples
      tokens := buffer.tokens + entry.tokens
      admitted := buffer.admitted + 1 }
  if !stored.ready && decide (stored.config.refillSize ≤ stored.size) then
    { stored with ready := true }
  else stored

def add (buffer : ValueReplayBuffer Scalar) (rollout : ValueTrainingRollout Scalar) :
    Except String (ValueReplayBuffer Scalar) :=
  if rollout.samples.isEmpty then
    .error "value replay rollouts must contain at least one sample"
  else
    let room := if buffer.size = buffer.config.capacity then buffer.evictOldest else buffer
    .ok (room.store rollout)

/-- Delete a selected entry that has reached the cap. -/
def retire (buffer : ValueReplayBuffer Scalar) (entryId : Nat) : ValueReplayBuffer Scalar :=
  match buffer.entries.get? entryId with
  | none => buffer
  | some entry =>
    if entry.attempts = buffer.config.maxUpdatesPerRollout then
      let removed := { buffer with entries := buffer.entries.erase entryId }.removeTotals entry
      { removed with retired := removed.retired + 1 }
    else buffer

/-- The batch of the selected entries, in the given order. -/
def trainingBatch (selected : List (ReplayEntry Scalar)) : ValueTrainingBatch Scalar :=
  let attempts := selected.map ReplayEntry.attempts
  let rollouts := selected.map ReplayEntry.rollout
  { samples := rollouts.flatMap ValueTrainingRollout.samples
    numRollouts := rollouts.length
    rolloutIdMin := ((rollouts.map ValueTrainingRollout.rolloutId).min?).getD 0
    rolloutIdMax := ((rollouts.map ValueTrainingRollout.rolloutId).max?).getD 0
    policyVersionMin := ((rollouts.map ValueTrainingRollout.policyVersion).min?).getD 0
    policyVersionMax := ((rollouts.map ValueTrainingRollout.policyVersion).max?).getD 0
    valueVersionMin := ((rollouts.map ValueTrainingRollout.valueVersion).min?).getD 0
    valueVersionMax := ((rollouts.map ValueTrainingRollout.valueVersion).max?).getD 0
    replayAttemptMin := (attempts.min?).getD 0
    replayAttemptMax := (attempts.max?).getD 0
    replayAttemptMean := (attempts.sum : Rat) / (attempts.length : Rat) }

/-- Count a selection on every drawn entry. -/
def selectAll (buffer : ValueReplayBuffer Scalar) (entryIds : List Nat) :
    ValueReplayBuffer Scalar :=
  { buffer with
    entries := entryIds.foldl (fun entries entryId => entries.modify entryId ReplayEntry.select)
      buffer.entries
    attempts := buffer.attempts + entryIds.length }

/-- Return to the filling state once less than one batch remains. -/
def settle (buffer : ValueReplayBuffer Scalar) : ValueReplayBuffer Scalar :=
  if buffer.size < buffer.config.batchSize then { buffer with ready := false } else buffer

/-- Sample one batch with an explicit draw of resident ids. Entries are read in
id order after their selections were counted. -/
def sample (buffer : ValueReplayBuffer Scalar) (draw : List Nat) :
    Except String (ValueTrainingBatch Scalar × ValueReplayBuffer Scalar) :=
  if buffer.canSample then
    let entryIds := draw.insertionSort (· ≤ ·)
    let counted := buffer.selectAll entryIds
    let batch := trainingBatch (entryIds.filterMap counted.entries.get?)
    .ok (batch, (entryIds.foldl retire counted).settle)
  else .error "value replay buffer is filling"

/-- What `random.Random.sample` may return for the resident ids. -/
def Draws (buffer : ValueReplayBuffer Scalar) (draw : List Nat) : Prop :=
  draw.Nodup ∧ draw.length = buffer.config.batchSize ∧ ∀ entryId ∈ draw, entryId ∈ buffer.entries.keys

instance (buffer : ValueReplayBuffer Scalar) (draw : List Nat) : Decidable (buffer.Draws draw) :=
  inferInstanceAs (Decidable (_ ∧ _ ∧ _))

end ValueReplayBuffer

structure ValueReplaySnapshot where
  size : Nat
  samples : Int
  tokens : Int
  capacity : Nat
  refillSize : Nat
  ready : Bool
  admitted : Nat
  attempts : Nat
  retired : Nat
  evicted : Nat
deriving DecidableEq, Repr

def ValueReplayBuffer.snapshot (buffer : ValueReplayBuffer Scalar) : ValueReplaySnapshot where
  size := buffer.size
  samples := buffer.samples
  tokens := buffer.tokens
  capacity := buffer.config.capacity
  refillSize := buffer.config.refillSize
  ready := buffer.ready
  admitted := buffer.admitted
  attempts := buffer.attempts
  retired := buffer.retired
  evicted := buffer.evicted

/-! ## Accounting kept by every operation -/

/-- The books of a buffer: its counters agree with its residents, ids are
issued in admission order, and every arrival is resident, retired or evicted. -/
structure Books (buffer : ValueReplayBuffer Scalar) : Prop where
  samples_total : buffer.samples = buffer.entries.total ReplayEntry.samples
  tokens_total : buffer.tokens = buffer.entries.total ReplayEntry.tokens
  conserved : buffer.admitted = buffer.size + buffer.retired + buffer.evicted
  numbered : buffer.nextEntryId = buffer.admitted
  ordered : buffer.entries.keys.Pairwise (· < ·)
  issued : ∀ entryId ∈ buffer.entries.keys, entryId < buffer.nextEntryId

/-- Residents that may still be selected under the cap. -/
def Reusable (buffer : ValueReplayBuffer Scalar) : Prop :=
  ∀ entry ∈ buffer.entries.values, entry.attempts < buffer.config.maxUpdatesPerRollout

/-- The ready flag and the occupancy agree with the two thresholds. -/
structure Hysteresis (buffer : ValueReplayBuffer Scalar) : Prop where
  bounded : buffer.size ≤ buffer.config.capacity
  enough : buffer.ready = true → buffer.config.batchSize ≤ buffer.size
  filling : buffer.ready = false → buffer.size < buffer.config.refillSize

namespace ValueReplayBuffer

/-- Eviction from a nonempty buffer moves exactly its oldest resident to the
evicted count. -/
theorem evict_cases (buffer : ValueReplayBuffer Scalar) (occupied : buffer.size ≠ 0) :
    ∃ entryId entry rest, buffer.entries.entries = (entryId, entry) :: rest.entries ∧
      buffer.evictOldest =
        { buffer with
          entries := rest
          samples := buffer.samples - entry.samples
          tokens := buffer.tokens - entry.tokens
          evicted := buffer.evicted + 1 } := by
  cases popped : buffer.entries.popFirst with
  | none =>
    exfalso
    apply occupied
    obtain ⟨config, ⟨entries, distinct⟩, _, _, _, _, _, _, _, _⟩ := buffer
    cases entries with
    | nil => rfl
    | cons entry rest => simp [OrderedDict.popFirst] at popped
  | some result =>
    obtain ⟨⟨entryId, entry⟩, rest⟩ := result
    refine ⟨entryId, entry, rest, (OrderedDict.popFirst_eq_some_iff _ _ _ _).mp popped, ?_⟩
    simp only [evictOldest, popped, removeTotals]

theorem evict_books (buffer : ValueReplayBuffer Scalar) (books : Books buffer)
    (occupied : buffer.size ≠ 0) :
    Books buffer.evictOldest ∧ buffer.evictOldest.size + 1 = buffer.size := by
  obtain ⟨entryId, entry, rest, listed, evicted⟩ := buffer.evict_cases occupied
  have keysListed : buffer.entries.keys = entryId :: rest.keys := by
    simp only [OrderedDict.keys, listed, List.map_cons]
  have sizeListed : buffer.size = rest.size + 1 := by
    simp only [size, OrderedDict.size, listed, List.length_cons]
  have totalListed (measure : ReplayEntry Scalar → Nat) :
      buffer.entries.total measure = measure entry + rest.total measure := by
    simp only [OrderedDict.total, OrderedDict.values, listed, List.map_cons, List.sum_cons]
  have samplesTotal := books.samples_total
  have tokensTotal := books.tokens_total
  have conserved := books.conserved
  have ordered := books.ordered
  have issued := books.issued
  rw [totalListed] at samplesTotal tokensTotal
  rw [keysListed] at ordered issued
  rw [evicted]
  refine ⟨⟨?_, ?_, ?_, books.numbered, (List.pairwise_cons.mp ordered).2, ?_⟩, ?_⟩
  · simp only
    omega
  · simp only
    omega
  · simp only [size] at sizeListed conserved ⊢
    omega
  · intro other member
    exact issued other (List.mem_cons_of_mem entryId member)
  · simp only [size] at sizeListed ⊢
    omega

theorem fresh_entry (buffer : ValueReplayBuffer Scalar) (books : Books buffer) :
    buffer.nextEntryId ∉ buffer.entries.keys := by
  intro present
  exact absurd (books.issued _ present) (Nat.lt_irrefl _)

/-- Storing appends one entry that was never selected, and only the occupancy
decides whether the buffer leaves the filling state. -/
theorem store_eq (buffer : ValueReplayBuffer Scalar) (rollout : ValueTrainingRollout Scalar)
    (fresh : buffer.nextEntryId ∉ buffer.entries.keys) :
    (buffer.store rollout).entries.entries =
        buffer.entries.entries ++ [(buffer.nextEntryId, { rollout := rollout })] ∧
      buffer.store rollout =
        { buffer with
          entries := buffer.entries.set buffer.nextEntryId { rollout := rollout }
          nextEntryId := buffer.nextEntryId + 1
          samples := buffer.samples + ({ rollout := rollout } : ReplayEntry Scalar).samples
          tokens := buffer.tokens + ({ rollout := rollout } : ReplayEntry Scalar).tokens
          admitted := buffer.admitted + 1
          ready := buffer.ready || decide (buffer.config.refillSize ≤ buffer.size + 1) } := by
  have appended := buffer.entries.set_new buffer.nextEntryId { rollout := rollout } fresh
  have grown : (buffer.entries.set buffer.nextEntryId { rollout := rollout }).size =
      buffer.size + 1 := by
    simp only [OrderedDict.size, appended, List.length_append, List.length_singleton, size]
  constructor
  · simp only [store]
    split <;> exact appended
  · simp only [store, size, grown]
    cases ready : buffer.ready
    · by_cases refilled : buffer.config.refillSize ≤ buffer.entries.size + 1 <;>
        simp [refilled]
    · simp

theorem store_books (buffer : ValueReplayBuffer Scalar) (rollout : ValueTrainingRollout Scalar)
    (books : Books buffer) :
    Books (buffer.store rollout) ∧ (buffer.store rollout).size = buffer.size + 1 := by
  obtain ⟨listed, stored⟩ := buffer.store_eq rollout (buffer.fresh_entry books)
  have keysListed : (buffer.store rollout).entries.keys =
      buffer.entries.keys ++ [buffer.nextEntryId] := by
    simp only [OrderedDict.keys, listed, List.map_append, List.map_cons, List.map_nil]
  have totalListed (measure : ReplayEntry Scalar → Nat) :
      (buffer.store rollout).entries.total measure =
        buffer.entries.total measure + measure { rollout := rollout } := by
    simp only [OrderedDict.total, OrderedDict.values, listed, List.map_append, List.map_cons,
      List.map_nil, List.sum_append, List.sum_singleton]
  have sizeListed : (buffer.store rollout).size = buffer.size + 1 := by
    simp only [size, OrderedDict.size, listed, List.length_append, List.length_singleton]
  have samplesTotal := books.samples_total
  have tokensTotal := books.tokens_total
  have conserved := books.conserved
  refine ⟨⟨?_, ?_, ?_, ?_, ?_, ?_⟩, sizeListed⟩
  · rw [totalListed, stored]
    push_cast
    omega
  · rw [totalListed, stored]
    push_cast
    omega
  · rw [sizeListed, stored]
    simp only
    omega
  · rw [stored]
    simp only [books.numbered]
  · rw [keysListed, List.pairwise_append]
    refine ⟨books.ordered, List.pairwise_singleton _ _, ?_⟩
    intro old member new singleton
    exact List.mem_singleton.mp singleton ▸ books.issued old member
  · rw [keysListed]
    intro entryId member
    have next : (buffer.store rollout).nextEntryId = buffer.nextEntryId + 1 := by rw [stored]
    rcases List.mem_append.mp member with old | new
    · have before := books.issued entryId old
      omega
    · have same := List.mem_singleton.mp new
      omega

/-- What one accepted admission does: room is made only in a full buffer, then
the arrival is stored. -/
theorem add_cases (buffer after : ValueReplayBuffer Scalar) (rollout : ValueTrainingRollout Scalar)
    (added : buffer.add rollout = .ok after) :
    rollout.samples ≠ [] ∧
      ((buffer.size = buffer.config.capacity ∧ after = buffer.evictOldest.store rollout) ∨
        (buffer.size ≠ buffer.config.capacity ∧ after = buffer.store rollout)) := by
  simp only [add, List.isEmpty_iff] at added
  by_cases unsampled : rollout.samples = []
  · simp [unsampled] at added
  · refine ⟨unsampled, ?_⟩
    by_cases full : buffer.size = buffer.config.capacity
    · simp only [unsampled, full, if_false, if_true, Except.ok.injEq] at added
      exact .inl ⟨full, added.symm⟩
    · simp only [unsampled, full, if_false, Except.ok.injEq] at added
      exact .inr ⟨full, added.symm⟩

/-- Admission keeps the thresholds, the books and the cap of every resident,
and it can only raise the ready flag. The occupancy stays at capacity exactly
when room had to be made. -/
theorem add_preserves (buffer after : ValueReplayBuffer Scalar)
    (rollout : ValueTrainingRollout Scalar) (books : Books buffer) (bands : Hysteresis buffer)
    (added : buffer.add rollout = .ok after) :
    after.config = buffer.config ∧ Books after ∧ Hysteresis after ∧
      after.attempts = buffer.attempts := by
  have batchPositive := buffer.config.batch_positive
  have batchLeRefill := buffer.config.batch_le_refill
  have refillLeCapacity := buffer.config.refill_le_capacity
  have bounded := bands.bounded
  obtain ⟨-, ⟨full, rfl⟩ | ⟨spare, rfl⟩⟩ := buffer.add_cases after rollout added
  · have occupied : buffer.size ≠ 0 := by omega
    obtain ⟨roomBooks, shrunk⟩ := buffer.evict_books books occupied
    obtain ⟨entryId, entry, rest, listed, evicted⟩ := buffer.evict_cases occupied
    have sameConfig : buffer.evictOldest.config = buffer.config := by rw [evicted]
    have sameAttempts : buffer.evictOldest.attempts = buffer.attempts := by rw [evicted]
    obtain ⟨afterBooks, grown⟩ := buffer.evictOldest.store_books rollout roomBooks
    obtain ⟨-, stored⟩ := buffer.evictOldest.store_eq rollout (fresh_entry _ roomBooks)
    have afterConfig : (buffer.evictOldest.store rollout).config = buffer.config := by
      rw [stored]
      exact sameConfig
    have isReady : (buffer.evictOldest.store rollout).ready = true := by
      rw [stored]
      simp only [Bool.or_eq_true, decide_eq_true_eq, sameConfig]
      omega
    refine ⟨afterConfig, afterBooks, ⟨?_, ?_, ?_⟩, by rw [stored]; exact sameAttempts⟩
    · rw [afterConfig]
      omega
    · intro _
      rw [afterConfig]
      omega
    · rw [isReady]
      exact fun impossible => absurd impossible (by decide)
  · obtain ⟨afterBooks, grown⟩ := buffer.store_books rollout books
    obtain ⟨-, stored⟩ := buffer.store_eq rollout (buffer.fresh_entry books)
    have afterConfig : (buffer.store rollout).config = buffer.config := by rw [stored]
    have afterReady : (buffer.store rollout).ready =
        (buffer.ready || decide (buffer.config.refillSize ≤ buffer.size + 1)) := by rw [stored]
    refine ⟨afterConfig, afterBooks, ⟨?_, ?_, ?_⟩, by rw [stored]⟩
    · rw [afterConfig]
      omega
    · intro isReady
      rw [afterReady, Bool.or_eq_true, decide_eq_true_eq] at isReady
      rw [afterConfig]
      rcases isReady with already | refilled
      · have enough := bands.enough already
        omega
      · omega
    · intro stillFilling
      rw [afterReady, Bool.or_eq_false_iff, decide_eq_false_iff_not] at stillFilling
      rw [afterConfig]
      omega

/-- A selected entry is either kept, being below the cap, or leaves as retired. -/
theorem retire_cases (buffer : ValueReplayBuffer Scalar) (entryId : Nat) :
    (buffer.retire entryId = buffer ∧
        ∀ entry, buffer.entries.get? entryId = some entry →
          entry.attempts ≠ buffer.config.maxUpdatesPerRollout) ∨
      ∃ entry, buffer.entries.get? entryId = some entry ∧
        entry.attempts = buffer.config.maxUpdatesPerRollout ∧
        buffer.retire entryId =
          { buffer with
            entries := buffer.entries.erase entryId
            samples := buffer.samples - entry.samples
            tokens := buffer.tokens - entry.tokens
            retired := buffer.retired + 1 } := by
  cases found : buffer.entries.get? entryId with
  | none => exact .inl ⟨by simp only [retire, found], fun entry impossible => by simp at impossible⟩
  | some entry =>
    by_cases capped : entry.attempts = buffer.config.maxUpdatesPerRollout
    · exact .inr ⟨entry, rfl, capped, by simp only [retire, found, capped, if_true, removeTotals]⟩
    · refine .inl ⟨by simp only [retire, found, capped, if_false], ?_⟩
      intro other same
      exact Option.some.inj same ▸ capped

/-- Fields that retirement leaves alone. -/
theorem retire_frame (buffer : ValueReplayBuffer Scalar) (entryId : Nat) :
    (buffer.retire entryId).config = buffer.config ∧
      (buffer.retire entryId).ready = buffer.ready ∧
      (buffer.retire entryId).nextEntryId = buffer.nextEntryId ∧
      (buffer.retire entryId).admitted = buffer.admitted ∧
      (buffer.retire entryId).attempts = buffer.attempts ∧
      (buffer.retire entryId).entries.entries.Sublist buffer.entries.entries := by
  obtain ⟨kept, -⟩ | ⟨entry, -, -, removed⟩ := buffer.retire_cases entryId
  · rw [kept]
    exact ⟨rfl, rfl, rfl, rfl, rfl, .refl _⟩
  · rw [removed]
    exact ⟨rfl, rfl, rfl, rfl, rfl, List.filter_sublist⟩

theorem retire_books (buffer : ValueReplayBuffer Scalar) (entryId : Nat) (books : Books buffer) :
    Books (buffer.retire entryId) := by
  obtain ⟨kept, -⟩ | ⟨entry, found, -, removed⟩ := buffer.retire_cases entryId
  · rw [kept]
    exact books
  · have samplesTotal := books.samples_total
    have tokensTotal := books.tokens_total
    have conserved := books.conserved
    have sizeListed := buffer.entries.size_erase entryId entry found
    have kept : (buffer.entries.erase entryId).keys.Sublist buffer.entries.keys :=
      List.filter_sublist.map Prod.fst
    rw [buffer.entries.total_erase entryId entry _ found] at samplesTotal tokensTotal
    rw [removed]
    refine ⟨?_, ?_, ?_, books.numbered, books.ordered.sublist kept, ?_⟩
    · simp only
      omega
    · simp only
      omega
    · simp only [size] at conserved ⊢
      omega
    · intro other member
      exact books.issued other (kept.subset member)

/-- Every resident is below the cap, except that a selected entry whose
retirement is still pending may have reached it. -/
def WithinCap (pending : List Nat) (buffer : ValueReplayBuffer Scalar) : Prop :=
  ∀ entry ∈ buffer.entries.entries, entry.2.attempts < buffer.config.maxUpdatesPerRollout ∨
    entry.1 ∈ pending ∧ entry.2.attempts ≤ buffer.config.maxUpdatesPerRollout

theorem retire_within (buffer : ValueReplayBuffer Scalar) (entryId : Nat) (pending : List Nat)
    (within : WithinCap (entryId :: pending) buffer) :
    WithinCap pending (buffer.retire entryId) := by
  obtain ⟨sameConfig, -, -, -, -, listed⟩ := buffer.retire_frame entryId
  intro entry member
  rw [sameConfig]
  rcases within entry (listed.subset member) with below | ⟨waiting, atMost⟩
  · exact .inl below
  · rcases List.mem_cons.mp waiting with same | later
    · left
      have found : buffer.entries.get? entryId = some entry.2 :=
        (OrderedDict.get?_eq_some_iff _ _ _).mpr (same ▸ listed.subset member)
      obtain ⟨-, uncapped⟩ | ⟨removedEntry, -, -, removed⟩ := buffer.retire_cases entryId
      · exact Nat.lt_of_le_of_ne atMost (uncapped entry.2 found)
      · rw [removed] at member
        have survives := (List.mem_filter.mp member).2
        simp [same] at survives
    · exact .inr ⟨later, atMost⟩

/-- The retirement loop keeps the books and leaves no resident at the cap. -/
theorem retire_all (buffer : ValueReplayBuffer Scalar) (entryIds : List Nat)
    (books : Books buffer) (within : WithinCap entryIds buffer) :
    Books (entryIds.foldl retire buffer) ∧ Reusable (entryIds.foldl retire buffer) ∧
      (entryIds.foldl retire buffer).config = buffer.config ∧
      (entryIds.foldl retire buffer).ready = buffer.ready ∧
      (entryIds.foldl retire buffer).admitted = buffer.admitted ∧
      (entryIds.foldl retire buffer).attempts = buffer.attempts ∧
      (entryIds.foldl retire buffer).entries.entries.Sublist buffer.entries.entries := by
  induction entryIds generalizing buffer with
  | nil =>
    refine ⟨books, ?_, rfl, rfl, rfl, rfl, .refl _⟩
    intro entry member
    obtain ⟨listed, present, rfl⟩ := List.mem_map.mp member
    rcases within listed present with below | ⟨waiting, -⟩
    · exact below
    · simp at waiting
  | cons entryId rest inductionHypothesis =>
    obtain ⟨sameConfig, sameReady, -, sameAdmitted, sameAttempts, listed⟩ :=
      buffer.retire_frame entryId
    obtain ⟨restBooks, reusable, config, ready, admitted, attempts, remaining⟩ :=
      inductionHypothesis _ (buffer.retire_books entryId books)
        (buffer.retire_within entryId rest within)
    exact ⟨restBooks, reusable, config.trans sameConfig, ready.trans sameReady,
      admitted.trans sameAdmitted, attempts.trans sameAttempts, remaining.trans listed⟩

/-- Counting selections changes the attempts of the drawn entries in place. -/
theorem select_all_entries (buffer : ValueReplayBuffer Scalar) (entryIds : List Nat)
    (unique : entryIds.Nodup) :
    (buffer.selectAll entryIds).entries.entries = buffer.entries.entries.map
      (fun entry => if entry.1 ∈ entryIds then (entry.1, entry.2.select) else entry) :=
  buffer.entries.modify_all_entries entryIds ReplayEntry.select unique

theorem select_all_books (buffer : ValueReplayBuffer Scalar) (entryIds : List Nat)
    (unique : entryIds.Nodup) (books : Books buffer) : Books (buffer.selectAll entryIds) := by
  have listed := buffer.select_all_entries entryIds unique
  have sameKeys : (buffer.selectAll entryIds).entries.keys = buffer.entries.keys := by
    simp only [OrderedDict.keys, listed, List.map_map]
    apply List.map_congr_left
    intro entry _
    simp only [Function.comp_apply]
    split <;> rfl
  have sameTotal (measure : ReplayEntry Scalar → Nat)
      (kept : ∀ entry, measure entry.select = measure entry) :
      (buffer.selectAll entryIds).entries.total measure = buffer.entries.total measure := by
    simp only [OrderedDict.total, OrderedDict.values, listed, List.map_map]
    congr 1
    apply List.map_congr_left
    intro entry _
    simp only [Function.comp_apply]
    split
    · exact kept entry.2
    · rfl
  have sameSize : (buffer.selectAll entryIds).size = buffer.size := by
    simp only [size, OrderedDict.size, listed, List.length_map]
  refine ⟨?_, ?_, ?_, books.numbered, sameKeys ▸ books.ordered, ?_⟩
  · rw [sameTotal _ (fun _ => rfl)]
    exact books.samples_total
  · rw [sameTotal _ (fun _ => rfl)]
    exact books.tokens_total
  · rw [sameSize]
    exact books.conserved
  · rw [sameKeys]
    exact books.issued

/-- Selecting residents below the cap leaves them at most at the cap. -/
theorem select_all_within (buffer : ValueReplayBuffer Scalar) (entryIds : List Nat)
    (unique : entryIds.Nodup) (reusable : Reusable buffer) :
    WithinCap entryIds (buffer.selectAll entryIds) := by
  intro entry member
  rw [select_all_entries buffer entryIds unique] at member
  obtain ⟨before, present, rfl⟩ := List.mem_map.mp member
  have below : before.2.attempts < buffer.config.maxUpdatesPerRollout :=
    reusable before.2 (List.mem_map_of_mem present)
  change _ < buffer.config.maxUpdatesPerRollout ∨ _ ∧ _ ≤ buffer.config.maxUpdatesPerRollout
  by_cases selected : before.1 ∈ entryIds
  · simp only [selected, if_true]
    exact .inr ⟨trivial, below⟩
  · simp only [selected, if_false]
    exact .inl below

/-- An allowed sample counts the drawn ids, retires the capped ones and settles. -/
theorem sample_cases (buffer after : ValueReplayBuffer Scalar) (draw : List Nat)
    (batch : ValueTrainingBatch Scalar) (sampled : buffer.sample draw = .ok (batch, after)) :
    buffer.canSample = true ∧
      batch = trainingBatch ((draw.insertionSort (· ≤ ·)).filterMap
        (buffer.selectAll (draw.insertionSort (· ≤ ·))).entries.get?) ∧
      after = ((draw.insertionSort (· ≤ ·)).foldl retire
        (buffer.selectAll (draw.insertionSort (· ≤ ·)))).settle := by
  by_cases allowed : buffer.canSample = true
  · simp only [sample, allowed, if_true, Except.ok.injEq, Prod.mk.injEq] at sampled
    exact ⟨allowed, sampled.1.symm, sampled.2.symm⟩
  · simp [sample, allowed] at sampled

/-- The settled flag is the old one while a batch remains, and false below it. -/
theorem settle_eq (buffer : ValueReplayBuffer Scalar) :
    buffer.settle =
      { buffer with
        ready := buffer.ready && decide (buffer.config.batchSize ≤ buffer.size) } := by
  simp only [settle]
  split
  · have short : ¬ buffer.config.batchSize ≤ buffer.size := by omega
    simp [short]
  · have remaining : buffer.config.batchSize ≤ buffer.size := by omega
    simp [remaining]

/-- Sampling keeps the thresholds, the books, the cap and the readiness bands,
and it counts one batch of selections. What remains are entries that were
resident before, with the drawn ones counted once more. -/
theorem sample_preserves (buffer after : ValueReplayBuffer Scalar) (draw : List Nat)
    (batch : ValueTrainingBatch Scalar) (books : Books buffer) (bands : Hysteresis buffer)
    (reusable : Reusable buffer) (drawn : buffer.Draws draw)
    (sampled : buffer.sample draw = .ok (batch, after)) :
    after.config = buffer.config ∧ Books after ∧ Hysteresis after ∧ Reusable after ∧
      after.admitted = buffer.admitted ∧
      after.attempts = buffer.attempts + buffer.config.batchSize ∧
      after.entries.entries.Sublist (buffer.entries.entries.map
        (fun entry => if entry.1 ∈ draw then (entry.1, entry.2.select) else entry)) := by
  obtain ⟨allowed, -, rfl⟩ := buffer.sample_cases after draw batch sampled
  obtain ⟨distinct, width, -⟩ := drawn
  have batchLeRefill := buffer.config.batch_le_refill
  have reordered : (draw.insertionSort (· ≤ ·)).Perm draw := List.perm_insertionSort _ draw
  have unique : (draw.insertionSort (· ≤ ·)).Nodup := reordered.nodup_iff.mpr distinct
  obtain ⟨afterBooks, afterReusable, config, ready, admitted, attempts, listed⟩ :=
    (buffer.selectAll (draw.insertionSort (· ≤ ·))).retire_all (draw.insertionSort (· ≤ ·))
      (buffer.select_all_books _ unique books) (buffer.select_all_within _ unique reusable)
  have fewer := listed.length_le
  rw [select_all_entries buffer _ unique] at listed fewer
  rw [List.length_map] at fewer
  have bounded := bands.bounded
  have counted : (buffer.selectAll (draw.insertionSort (· ≤ ·))).attempts =
      buffer.attempts + buffer.config.batchSize := by
    simp only [selectAll, List.length_insertionSort, width]
  have members (entry : Nat × ReplayEntry Scalar) :
      entry.1 ∈ draw.insertionSort (· ≤ ·) ↔ entry.1 ∈ draw := reordered.mem_iff
  simp only [members] at listed
  have isReady : buffer.ready = true := by
    simp only [canSample, Bool.and_eq_true] at allowed
    exact allowed.1
  simp only [size, OrderedDict.size] at fewer bounded
  rw [settle_eq]
  refine ⟨config, ⟨afterBooks.samples_total, afterBooks.tokens_total, afterBooks.conserved,
    afterBooks.numbered, afterBooks.ordered, afterBooks.issued⟩, ⟨?_, ?_, ?_⟩, afterReusable,
    admitted, attempts.trans counted, listed⟩
  · simp only [size, OrderedDict.size, config]
    simp only [selectAll] at fewer ⊢
    omega
  · simp only [Bool.and_eq_true, decide_eq_true_eq]
    exact fun both => both.2
  · simp only [Bool.and_eq_false_iff, decide_eq_false_iff_not, ready, config]
    rintro (notReady | short)
    · simp only [selectAll, isReady] at notReady
      exact absurd notReady (by decide)
    · simp only [selectAll, size] at short ⊢
      omega

/-- An accepted admission keeps residents in place, possibly without the oldest,
and appends the arrival under the next id. -/
theorem add_listed (buffer after : ValueReplayBuffer Scalar)
    (rollout : ValueTrainingRollout Scalar) (books : Books buffer)
    (added : buffer.add rollout = .ok after) :
    ∃ kept, kept.Sublist buffer.entries.entries ∧
      after.entries.entries = kept ++ [(buffer.nextEntryId, { rollout := rollout })] ∧
      after.nextEntryId = buffer.nextEntryId + 1 ∧ after.admitted = buffer.admitted + 1 := by
  obtain ⟨-, ⟨full, rfl⟩ | ⟨-, rfl⟩⟩ := buffer.add_cases after rollout added
  · have occupied : buffer.size ≠ 0 := by
      have batchPositive := buffer.config.batch_positive
      have batchLeRefill := buffer.config.batch_le_refill
      have refillLeCapacity := buffer.config.refill_le_capacity
      omega
    obtain ⟨entryId, entry, rest, listed, evicted⟩ := buffer.evict_cases occupied
    obtain ⟨appended, stored⟩ := buffer.evictOldest.store_eq rollout
      (fresh_entry _ (buffer.evict_books books occupied).1)
    refine ⟨rest.entries, ?_, ?_, by rw [stored, evicted], by rw [stored, evicted]⟩
    · rw [listed]
      exact List.sublist_cons_self _ _
    · rw [appended, evicted]
  · obtain ⟨appended, stored⟩ := buffer.store_eq rollout (buffer.fresh_entry books)
    exact ⟨buffer.entries.entries, .refl _, appended, by rw [stored], by rw [stored]⟩

/-- An arrival starts below every cap, so admission keeps all residents below it. -/
theorem add_reusable (buffer after : ValueReplayBuffer Scalar)
    (rollout : ValueTrainingRollout Scalar) (books : Books buffer) (reusable : Reusable buffer)
    (sameConfig : after.config = buffer.config) (added : buffer.add rollout = .ok after) :
    Reusable after := by
  obtain ⟨kept, remaining, listed, -, -⟩ := buffer.add_listed after rollout books added
  intro entry member
  rw [sameConfig]
  simp only [OrderedDict.values, listed, List.map_append, List.mem_append, List.map_cons,
    List.map_nil, List.mem_singleton] at member
  rcases member with old | rfl
  · exact reusable entry ((remaining.map Prod.snd).subset old)
  · exact buffer.config.updates_positive

/-- A constructed buffer is empty, filling and balanced, with the thresholds
that were passed in. -/
theorem init_cases (batchSize capacity refillSize maxUpdatesPerRollout : Int)
    (buffer : ValueReplayBuffer Scalar)
    (accepted : init batchSize capacity refillSize maxUpdatesPerRollout = .ok buffer) :
    ∃ config : ReplayConfig, buffer = { config := config } ∧
      (config.batchSize : Int) = batchSize ∧ (config.capacity : Int) = capacity ∧
      (config.refillSize : Int) = refillSize ∧
      (config.maxUpdatesPerRollout : Int) = maxUpdatesPerRollout := by
  unfold init at accepted
  split at accepted
  · cases accepted
  · split at accepted
    · cases accepted
    · split at accepted
      · cases accepted
      · split at accepted
        · cases accepted
        · cases accepted
          refine ⟨_, rfl, ?_⟩
          simp only
          omega

theorem init_books (config : ReplayConfig) :
    Books ({ config := config } : ValueReplayBuffer Scalar) where
  samples_total := rfl
  tokens_total := rfl
  conserved := rfl
  numbered := rfl
  ordered := List.Pairwise.nil
  issued := fun _ impossible => absurd impossible List.not_mem_nil

theorem init_hysteresis (config : ReplayConfig) :
    Hysteresis ({ config := config } : ValueReplayBuffer Scalar) where
  bounded := Nat.zero_le _
  enough := fun impossible => absurd impossible Bool.false_ne_true
  filling := fun _ => Nat.lt_of_lt_of_le config.batch_positive config.batch_le_refill

/-- Counting selections changes what is read under a resident id by one attempt
at most, and never the rollout. -/
theorem select_all_get (buffer : ValueReplayBuffer Scalar) (entryIds : List Nat) (entryId : Nat)
    (entry : ReplayEntry Scalar) (unique : entryIds.Nodup) (selected : entryId ∈ entryIds)
    (found : buffer.entries.get? entryId = some entry) :
    (buffer.selectAll entryIds).entries.get? entryId = some entry.select := by
  rw [OrderedDict.get?_eq_some_iff] at found ⊢
  rw [select_all_entries buffer entryIds unique]
  exact List.mem_map.mpr ⟨(entryId, entry), found, by simp only [selected, if_true]⟩

end ValueReplayBuffer

end PrimeRl.Value.Replay
