import Mathlib.Data.List.Flatten
import PrimeRl.Orchestrator.SinkBatches
import PrimeRl.Support.Gather
import PrimeRl.Support.Machine

/-!
# Runs of the training sink

What a sink has returned and done is recorded beside it. Along every sequence of
arrivals in which no group gets more than its size, each arrival is in one
window, each group is finalized once, and the queue passes every survivor on
once, in the order of finalization.
-/

namespace PrimeRl.Orchestrator.Sink

open PrimeRl.Orchestrator.MessageGraph PrimeRl.Transport

variable {Scalar : Type}

/-- A sink with the windows it returned, the groups it finalized and the cohorts
it popped, oldest first. -/
structure World (Scalar : Type) where
  sink : TrainSink Scalar
  windows : List (List Nat)
  finalized : List (Finalized Scalar)
  cohorts : List (List Nat)

def World.init : World Scalar := ⟨.init, [], [], []⟩

def World.record (world : World Scalar) (added : Added Scalar) : World Scalar where
  sink := added.sink
  windows := world.windows ++ (added.batch.map TrainBatch.rollouts).toList
  finalized := world.finalized ++ added.finalized.toList
  cohorts := world.cohorts ++ added.cohort.toList

/-- One call. A call that raises ends the run. -/
def World.step [Zero Scalar] (config : Config Scalar) (world : World Scalar)
    (rollout : Rollout Scalar) : Option (World Scalar) :=
  match world.sink.add config rollout with
  | .ok added => some (world.record added)
  | .error _ => none

/-- The places of the arrivals, each under its group. -/
def TrainSink.arrived (sink : TrainSink Scalar) : List (Nat × Nat) :=
  sink.fixed.mapIdx (fun place entry => (entry.groupId, place))

/-- The members of a group that have arrived, in order. -/
def TrainSink.membersOf (sink : TrainSink Scalar) (groupId : Nat) : List Nat :=
  Gather.itemsOf sink.arrived groupId

/-! ## The invariant -/

/-- The queue as the survivors that finalized groups kept. -/
def World.kept (world : World Scalar) : List Nat := world.finalized.flatMap Finalized.kept

/-- Windows, queue and counts, whatever waits in groups. -/
structure Books (config : Config Scalar) (world : World Scalar) : Prop where
  windows : (world.windows.flatten ++ world.sink.pendingRollouts).Perm
    (List.range world.sink.fixed.length)
  members : ∀ finalized ∈ world.finalized,
    finalized.members = world.sink.membersOf finalized.groupId
  judged : ∀ finalized ∈ world.finalized, Judged config world.sink.fixed finalized
  once : (world.finalized.map Finalized.groupId).Nodup
  queue : world.cohorts.flatten ++ world.sink.pendingBatch = world.kept
  tokens : world.sink.pendingTokens = countedTokens config world.sink.fixed world.sink.pendingBatch
  clean : ∀ place ∈ world.sink.pendingBatch, world.sink.Clean place

/-- The books are right, and groups that wait are clean and incomplete. -/
structure Conserved (config : Config Scalar) (size : Nat → Nat) (world : World Scalar) : Prop where
  books : Books config world
  gathered : Gather.Gathered size world.sink.arrived world.sink.pendingGroups
    (world.finalized.map (fun finalized => (finalized.groupId, finalized.members)))
  waiting : ∀ groupId, groupId ∉ world.finalized.map Finalized.groupId →
    ∀ place ∈ world.sink.membersOf groupId, world.sink.Clean place

theorem arrived_places (sink : TrainSink Scalar) :
    sink.arrived.map Prod.snd = List.range sink.fixed.length := by
  apply List.ext_getElem?
  intro place
  rw [TrainSink.arrived, List.getElem?_map, List.getElem?_mapIdx]
  by_cases inside : place < sink.fixed.length
  · rw [List.getElem?_eq_getElem inside, List.getElem?_range inside]
    rfl
  · rw [List.getElem?_eq_none (Nat.not_lt.mp inside),
      List.getElem?_eq_none (by rw [List.length_range]; exact Nat.not_lt.mp inside)]
    rfl

theorem arrived_distinct (sink : TrainSink Scalar) : (sink.arrived.map Prod.snd).Nodup := by
  rw [arrived_places]
  exact List.nodup_range

theorem members_present (sink : TrainSink Scalar) (groupId : Nat) :
    ∀ place ∈ sink.membersOf groupId, place < sink.fixed.length := by
  intro place member
  have listed := List.mem_map_of_mem (f := Prod.snd) ((Gather.mem_items _ groupId place).mp member)
  rw [arrived_places] at listed
  exact List.mem_range.mp listed

/-- What a finalized group keeps are members of it. -/
theorem kept_members {config : Config Scalar} {fixed : List Fixed} {finalized : Finalized Scalar}
    (judged : Judged config fixed finalized) : finalized.kept.Sublist finalized.members := by
  obtain ⟨env, -, survivors⟩ := judged.survivors
  have listed : (finalized.judged.map Prod.fst).Sublist finalized.members := by
    rw [survivors]
    split
    · exact List.nil_sublist _
    · exact List.filter_sublist
  exact (List.filter_sublist.map Prod.fst).trans listed

section Books
variable {config : Config Scalar} {world : World Scalar}

/-- A kept rollout is a member of a finalized group. -/
theorem Books.kept_member (books : Books config world) (place : Nat) (member : place ∈ world.kept) :
    ∃ groupId ∈ world.finalized.map Finalized.groupId, place ∈ world.sink.membersOf groupId := by
  obtain ⟨finalized, listed, inKept⟩ := List.mem_flatMap.mp member
  refine ⟨finalized.groupId, List.mem_map_of_mem listed, ?_⟩
  rw [← books.members finalized listed]
  exact (kept_members (books.judged finalized listed)).subset inKept

theorem Books.queued_kept (books : Books config world) (place : Nat)
    (queued : place ∈ world.sink.pendingBatch) : place ∈ world.kept :=
  books.queue ▸ List.mem_append_right world.cohorts.flatten queued

/-- A queued rollout is a member of a finalized group. -/
theorem Books.queued_member (books : Books config world) (place : Nat)
    (queued : place ∈ world.sink.pendingBatch) :
    ∃ groupId ∈ world.finalized.map Finalized.groupId, place ∈ world.sink.membersOf groupId :=
  books.kept_member place (books.queued_kept place queued)

theorem Books.queued_present (books : Books config world) (place : Nat)
    (queued : place ∈ world.sink.pendingBatch) : place < world.sink.rollouts.length := by
  obtain ⟨groupId, -, member⟩ := books.queued_member place queued
  have present := members_present world.sink groupId place member
  rwa [TrainSink.fixed, List.length_map] at present

/-- A member of a group that is not finalized is not in the queue. -/
theorem Books.queued_other (books : Books config world) (groupId place : Nat)
    (isOpen : groupId ∉ world.finalized.map Finalized.groupId)
    (member : place ∈ world.sink.membersOf groupId) : place ∉ world.sink.pendingBatch := by
  intro queued
  obtain ⟨other, finalized, otherMember⟩ := books.queued_member place queued
  have same := Gather.key_of_item (arrived_distinct world.sink) member otherMember
  exact isOpen (same ▸ finalized)

/-- No rollout is kept twice. -/
theorem Books.kept_distinct (books : Books config world) : world.kept.Nodup := by
  have shorter := List.Sublist.flatMap_right world.finalized
    (fun finalized listed =>
      books.members finalized listed ▸ kept_members (books.judged finalized listed))
  refine List.Nodup.sublist shorter (List.nodup_flatMap.mpr ⟨?_, ?_⟩)
  · intro finalized _
    exact Gather.items_distinct (arrived_distinct world.sink) finalized.groupId
  · refine (List.pairwise_map.mp books.once).imp ?_
    intro first second different place member otherMember
    exact different (Gather.key_of_item (arrived_distinct world.sink) member otherMember)

theorem Books.queue_distinct (books : Books config world) :
    (world.cohorts.flatten ++ world.sink.pendingBatch).Nodup := by
  rw [books.queue]
  exact books.kept_distinct

end Books

/-! ## An arrival -/

/-- What was said of rollouts before an arrival is still said of them. -/
theorem lookup_grows (fixed : List Fixed) (entry : Fixed) (places : List Nat)
    (present : ∀ place ∈ places, place < fixed.length) :
    ∀ place ∈ places, (fixed ++ [entry])[place]? = fixed[place]? :=
  fun place member => List.getElem?_append_left (present place member)

theorem judged_grows {config : Config Scalar} {fixed : List Fixed} {finalized : Finalized Scalar}
    (entry : Fixed) (judged : Judged config fixed finalized)
    (present : ∀ place ∈ finalized.members, place < fixed.length) :
    Judged config (fixed ++ [entry]) finalized := by
  have same := lookup_grows fixed entry finalized.members present
  have sameSurvivors : survivorsOf (fixed ++ [entry]) finalized.members =
      survivorsOf fixed finalized.members := by
    apply List.filter_congr
    intro place member
    rw [same place member]
  have sameEnv : groupEnv config (fixed ++ [entry]) finalized.members =
      groupEnv config fixed finalized.members := by
    rw [groupEnv, groupEnv]
    cases isMembers : finalized.members with
    | nil => rfl
    | cons place rest =>
      rw [List.head?_cons, Option.bind_some, Option.bind_some,
        same place (isMembers ▸ List.mem_cons_self)]
  constructor
  · rw [sameSurvivors, sameEnv]
    exact judged.survivors
  · exact judged.verdicts

theorem counted_grows (config : Config Scalar) (fixed : List Fixed) (entry : Fixed)
    (places : List Nat) (present : ∀ place ∈ places, place < fixed.length) :
    countedTokens config (fixed ++ [entry]) places = countedTokens config fixed places := by
  rw [countedTokens, countedTokens]
  cases config.threshold with
  | batchSize _ => rfl
  | tokenBatchSize _ =>
    refine congrArg List.sum (List.map_congr_left ?_)
    intro place member
    rw [lookup_grows fixed entry places present place member]

section Arrival
variable (sink : TrainSink Scalar) (rollout : Rollout Scalar) (scoring : Bool)

theorem record_fixed : (recordArrival sink rollout scoring).fixed = sink.fixed ++ [rollout.fixed] :=
  List.map_append

theorem record_arrived : (recordArrival sink rollout scoring).arrived =
    sink.arrived ++ [(rollout.groupId, sink.rollouts.length)] := by
  rw [TrainSink.arrived, record_fixed, List.mapIdx_append, List.mapIdx_cons, List.mapIdx_nil,
    Nat.zero_add, TrainSink.fixed, List.length_map]
  rfl

theorem record_members_other (groupId : Nat) (different : groupId ≠ rollout.groupId) :
    (recordArrival sink rollout scoring).membersOf groupId = sink.membersOf groupId := by
  rw [TrainSink.membersOf, record_arrived]
  exact Gather.items_append_other sink.arrived rollout.groupId groupId _ different

theorem record_clean (place : Nat) (present : place < sink.rollouts.length)
    (clean : sink.Clean place) : (recordArrival sink rollout scoring).Clean place := by
  intro other found
  have same : (sink.rollouts ++ [rollout])[place]? = sink.rollouts[place]? :=
    List.getElem?_append_left present
  exact clean other (same ▸ found)

end Arrival

/-- An arrival of a group that is not finalized joins the window. -/
theorem Books.record {config : Config Scalar} {world : World Scalar} (books : Books config world)
    (rollout : Rollout Scalar) (scoring : Bool)
    (isOpen : rollout.groupId ∉ world.finalized.map Finalized.groupId) :
    Books config { world with sink := recordArrival world.sink rollout scoring } := by
  have presentMembers : ∀ finalized ∈ world.finalized, ∀ place ∈ finalized.members,
      place < world.sink.fixed.length := by
    intro finalized listed place member
    rw [books.members finalized listed] at member
    exact members_present world.sink finalized.groupId place member
  have presentQueue : ∀ place ∈ world.sink.pendingBatch, place < world.sink.fixed.length := by
    intro place queued
    rw [TrainSink.fixed, List.length_map]
    exact books.queued_present place queued
  constructor
  · change (world.windows.flatten ++ (world.sink.pendingRollouts ++ [world.sink.rollouts.length])).Perm _
    rw [record_fixed, List.length_append, List.length_singleton, List.range_succ, ← List.append_assoc,
      TrainSink.fixed, List.length_map]
    have windows := books.windows
    rw [TrainSink.fixed, List.length_map] at windows
    exact windows.append_right _
  · intro finalized listed
    have different : finalized.groupId ≠ rollout.groupId :=
      fun same => isOpen (same ▸ List.mem_map_of_mem listed)
    rw [record_members_other world.sink rollout scoring finalized.groupId different]
    exact books.members finalized listed
  · intro finalized listed
    rw [record_fixed]
    exact judged_grows rollout.fixed (books.judged finalized listed) (presentMembers finalized listed)
  · exact books.once
  · exact books.queue
  · rw [record_fixed]
    exact books.tokens.trans (congrArg Nat.cast
      (counted_grows config world.sink.fixed rollout.fixed _ presentQueue).symm)
  · intro place queued
    exact record_clean world.sink rollout scoring place (books.queued_present place queued)
      (books.clean place queued)

/-! ## A finalized group -/

theorem Touches.clean {places : List Nat} {sink next : TrainSink Scalar}
    (touches : Touches places sink next) {place : Nat} (outside : place ∉ places)
    (clean : sink.Clean place) : next.Clean place := by
  intro rollout found
  exact clean rollout (touches.others place outside ▸ found)

theorem Touches.members {places : List Nat} {sink next : TrainSink Scalar}
    (touches : Touches places sink next) : next.membersOf = sink.membersOf := by
  funext groupId
  rw [TrainSink.membersOf, TrainSink.membersOf, TrainSink.arrived, TrainSink.arrived, touches.fixed]

/-- A finalized group adds what it keeps to the end of the queue. -/
theorem Books.finalize {config : Config Scalar} {world : World Scalar} (books : Books config world)
    {next : TrainSink Scalar} {finalized : Finalized Scalar}
    (isOpen : finalized.groupId ∉ world.finalized.map Finalized.groupId)
    (members : finalized.members = world.sink.membersOf finalized.groupId)
    (judged : Judged config world.sink.fixed finalized)
    (queues : Queues config finalized.members finalized.kept
      { world.sink with pendingGroups := world.sink.pendingGroups.erase finalized.groupId } next)
    (kept : ∀ place ∈ finalized.kept, next.Clean place) :
    Books config { world with sink := next, finalized := world.finalized ++ [finalized] } := by
  have sameFixed : next.fixed = world.sink.fixed := queues.touches.fixed
  have sameMembers : next.membersOf = world.sink.membersOf := queues.touches.members
  constructor
  · change (world.windows.flatten ++ next.pendingRollouts).Perm (List.range next.fixed.length)
    rw [sameFixed, queues.window]
    exact books.windows
  · intro other listed
    change other.members = next.membersOf other.groupId
    rw [sameMembers]
    rcases List.mem_append.mp listed with earlier | last
    · exact books.members other earlier
    · rw [List.mem_singleton.mp last]
      exact members
  · intro other listed
    change Judged config next.fixed other
    rw [sameFixed]
    rcases List.mem_append.mp listed with earlier | last
    · exact books.judged other earlier
    · rw [List.mem_singleton.mp last]
      exact judged
  · change ((world.finalized ++ [finalized]).map Finalized.groupId).Nodup
    rw [List.map_append, List.map_singleton]
    exact List.nodup_append.mpr ⟨books.once, List.nodup_singleton _, by
      intro groupId earlier last isLast same
      rw [List.mem_singleton] at isLast
      exact isOpen (isLast ▸ same ▸ earlier)⟩
  · change world.cohorts.flatten ++ next.pendingBatch =
      (world.finalized ++ [finalized]).flatMap Finalized.kept
    rw [queues.queue, ← List.append_assoc, List.flatMap_append, List.flatMap_singleton]
    exact congrArg (· ++ finalized.kept) books.queue
  · change next.pendingTokens = countedTokens config next.fixed next.pendingBatch
    rw [queues.tokens, queues.queue, sameFixed, counted_append, Nat.cast_add]
    exact congrArg (· + _) books.tokens
  · intro place queued
    change next.Clean place
    have inQueue : place ∈ world.sink.pendingBatch ++ finalized.kept := queues.queue ▸ queued
    rcases List.mem_append.mp inQueue with before | last
    · have outside : place ∉ finalized.members := by
        intro member
        rw [members] at member
        exact books.queued_other finalized.groupId place isOpen member before
      exact queues.touches.clean outside (books.clean place before)
    · exact kept place last

/-! ## A batch -/

/-- A batch takes its cohort off the front of the queue. -/
theorem Books.batch {config : Config Scalar} {world : World Scalar} (books : Books config world)
    {next : TrainSink Scalar} {batch : TrainBatch Scalar} {cohort : List Nat}
    (batched : Batched config cohort world.sink next batch) :
    Books config { world with
      sink := next
      windows := world.windows ++ [batch.rollouts]
      cohorts := world.cohorts ++ [cohort] } := by
  have sameFixed := batched.touches.fixed
  have distinct : (cohort ++ next.pendingBatch).Nodup := by
    rw [batched.queue]
    exact (List.nodup_append.mp books.queue_distinct).2.1
  constructor
  · change ((world.windows ++ [batch.rollouts]).flatten ++ next.pendingRollouts).Perm
      (List.range next.fixed.length)
    rw [List.flatten_append, List.flatten_singleton, List.append_assoc, sameFixed]
    exact (batched.arrivals.append_left _).trans books.windows
  · intro finalized listed
    change finalized.members = next.membersOf finalized.groupId
    rw [batched.touches.members]
    exact books.members finalized listed
  · intro finalized listed
    change Judged config next.fixed finalized
    rw [sameFixed]
    exact books.judged finalized listed
  · exact books.once
  · change (world.cohorts ++ [cohort]).flatten ++ next.pendingBatch = world.kept
    rw [List.flatten_append, List.flatten_singleton, List.append_assoc, batched.queue]
    exact books.queue
  · change next.pendingTokens = countedTokens config next.fixed next.pendingBatch
    have counted := counted_append config world.sink.fixed cohort next.pendingBatch
    have tokens := books.tokens
    rw [← batched.queue, counted] at tokens
    rw [batched.tokens, sameFixed, tokens]
    omega
  · intro place queued
    have inQueue : place ∈ world.sink.pendingBatch :=
      batched.queue ▸ List.mem_append_right cohort queued
    have outside : place ∉ cohort :=
      fun member => (List.nodup_append.mp distinct).2.2 place member place queued rfl
    exact batched.touches.clean outside (books.clean place inQueue)

/-- A batch of settled drops takes arrivals out of the window only. -/
theorem Books.consume {config : Config Scalar} {world : World Scalar} (books : Books config world)
    {next : TrainSink Scalar} {windows : List (List Nat)}
    (consumes : Consumes windows.flatten world.sink next) :
    Books config { world with sink := next, windows := world.windows ++ windows } := by
  have touches : Touches [] world.sink next := touches_same [] consumes.rollouts
  constructor
  · change ((world.windows ++ windows).flatten ++ next.pendingRollouts).Perm
      (List.range next.fixed.length)
    rw [List.flatten_append, List.append_assoc, touches.fixed]
    exact (consumes.arrivals.append_left _).trans books.windows
  · intro finalized listed
    change finalized.members = next.membersOf finalized.groupId
    rw [touches.members]
    exact books.members finalized listed
  · intro finalized listed
    change Judged config next.fixed finalized
    rw [touches.fixed]
    exact books.judged finalized listed
  · exact books.once
  · change world.cohorts.flatten ++ next.pendingBatch = world.kept
    rw [consumes.queue]
    exact books.queue
  · change next.pendingTokens = countedTokens config next.fixed next.pendingBatch
    rw [consumes.tokens, consumes.queue, touches.fixed]
    exact books.tokens
  · intro place queued
    have inQueue : place ∈ world.sink.pendingBatch := consumes.queue ▸ queued
    exact touches.clean List.not_mem_nil (books.clean place inQueue)

/-! ## One call -/

theorem process_rollout_same {config : Config Scalar} {rollout processed : Rollout Scalar}
    {scoring : Bool} (accepted : processRollout config rollout = .ok (processed, scoring)) :
    processed.groupId = rollout.groupId ∧ processed.envName = rollout.envName ∧
      processed.isFiltered = rollout.isFiltered := by
  rw [processRollout] at accepted
  split at accepted
  · obtain ⟨rfl, -⟩ := Prod.mk.inj (Except.ok.inj accepted)
    exact ⟨rfl, rfl, rfl⟩
  · obtain ⟨env, -, accepted⟩ := Fallible.bind_ok accepted
    dsimp only at accepted
    generalize (if env.hasValueEvaluator = true then rollout.valueFunctionPrompt else none) =
      taskPrompt at accepted
    split at accepted
    · cases accepted
    · obtain ⟨materialization, -, accepted⟩ := Fallible.bind_ok accepted
      obtain ⟨valuePrefix, -, accepted⟩ := Fallible.bind_ok accepted
      split at accepted
      · obtain ⟨valueTrajectory, -, accepted⟩ := Fallible.bind_ok accepted
        obtain ⟨rfl, -⟩ := Prod.mk.inj (Except.ok.inj accepted)
        exact ⟨rfl, rfl, rfl⟩
      · obtain ⟨rfl, -⟩ := Prod.mk.inj (Except.ok.inj accepted)
        exact ⟨rfl, rfl, rfl⟩

section Call
variable {config : Config Scalar} {size : Nat → Nat} {world : World Scalar}

/-- A group with room is not finalized. -/
theorem Conserved.isOpen (conserved : Conserved config size world) {groupId : Nat}
    (room : (world.sink.membersOf groupId).length < size groupId) :
    groupId ∉ world.finalized.map Finalized.groupId := by
  intro listed
  obtain ⟨finalized, isFinalized, rfl⟩ := List.mem_map.mp listed
  obtain ⟨isMembers, full⟩ := conserved.gathered.all_items finalized.groupId finalized.members
    (List.mem_map_of_mem (f := fun finalized => (finalized.groupId, finalized.members)) isFinalized)
  rw [isMembers] at full
  exact absurd full (Nat.ne_of_lt room)

/-- What waits under a group with room. -/
theorem Conserved.pending_members (conserved : Conserved config size world) {groupId : Nat}
    (room : (world.sink.membersOf groupId).length < size groupId) :
    (world.sink.pendingGroups.get? groupId).getD [] = world.sink.membersOf groupId :=
  conserved.gathered.waiting_items groupId room

/-- After an arrival the members of open groups are clean. -/
theorem Conserved.record_waiting (conserved : Conserved config size world) (rollout : Rollout Scalar)
    (scoring : Bool) (clean : rollout.isFiltered = false) (groupId : Nat)
    (isOpen : groupId ∉ world.finalized.map Finalized.groupId) :
    ∀ place ∈ (recordArrival world.sink rollout scoring).membersOf groupId,
      (recordArrival world.sink rollout scoring).Clean place := by
  intro place member
  have listed := (Gather.mem_items _ groupId place).mp member
  rw [record_arrived] at listed
  rcases List.mem_append.mp listed with before | last
  · have earlier : place ∈ world.sink.membersOf groupId := (Gather.mem_items _ groupId place).mpr before
    have present := members_present world.sink groupId place earlier
    rw [TrainSink.fixed, List.length_map] at present
    exact record_clean world.sink rollout scoring place present
      (conserved.waiting groupId isOpen place earlier)
  · obtain ⟨-, rfl⟩ := Prod.mk.inj (List.mem_singleton.mp last)
    intro other found
    have isLast : (world.sink.rollouts ++ [rollout])[world.sink.rollouts.length]? = some rollout :=
      List.getElem?_concat_length
    obtain rfl := Option.some.inj (isLast.symm.trans found)
    exact clean

/-- An arrival that leaves its group incomplete waits in it. -/
theorem Conserved.wait (conserved : Conserved config size world) (rollout : Rollout Scalar)
    (scoring : Bool) (clean : rollout.isFiltered = false)
    (room : (world.sink.membersOf rollout.groupId).length + 1 < size rollout.groupId) :
    Conserved config size { world with sink := recordArrival world.sink rollout scoring } := by
  have isOpen := conserved.isOpen (Nat.lt_of_succ_lt room)
  constructor
  · exact conserved.books.record rollout scoring isOpen
  · rw [record_arrived]
    apply conserved.gathered.wait
    rw [Gather.items_append_same, List.length_append, List.length_singleton]
    exact room
  · intro groupId stillOpen
    exact conserved.record_waiting rollout scoring clean groupId stillOpen

/-- The arrival that completes its group finalizes it. -/
theorem Conserved.finish [Zero Scalar] (conserved : Conserved config size world)
    (rollout : Rollout Scalar) (scoring : Bool) (clean : rollout.isFiltered = false)
    (last : (world.sink.membersOf rollout.groupId).length + 1 = size rollout.groupId)
    {next : TrainSink Scalar} {finalized : Finalized Scalar}
    (accepted : processGroup config (recordArrival world.sink rollout scoring) rollout.groupId =
      .ok (next, finalized)) :
    Conserved config size
        { world with sink := next, finalized := world.finalized ++ [finalized] } ∧
      next.arrived = world.sink.arrived ++ [(rollout.groupId, world.sink.rollouts.length)] := by
  have room : (world.sink.membersOf rollout.groupId).length < size rollout.groupId := by omega
  have isOpen := conserved.isOpen room
  have recorded := conserved.books.record rollout scoring isOpen
  have isMembers : (recordArrival world.sink rollout scoring).membersOf rollout.groupId =
      world.sink.membersOf rollout.groupId ++ [world.sink.rollouts.length] := by
    rw [TrainSink.membersOf, record_arrived, Gather.items_append_same]
    rfl
  have isGroup : (recordArrival world.sink rollout scoring).pendingGroups.get? rollout.groupId =
      some ((recordArrival world.sink rollout scoring).membersOf rollout.groupId) := by
    rw [OrderedDict.get?_eq_some_iff, isMembers, ← conserved.pending_members room]
    exact (OrderedDict.mem_set _ _ _ _ _).mpr (Or.inl ⟨rfl, rfl⟩)
  have waiting := conserved.record_waiting rollout scoring clean
  obtain ⟨sameId, sameMembers, judged, queues, kept⟩ := process_group_queues accepted isGroup
    (by rw [isMembers]; exact List.append_ne_nil_of_right_ne_nil _ (List.cons_ne_nil _ _))
    (by
      intro place member
      have present := members_present _ rollout.groupId place member
      rwa [TrainSink.fixed, List.length_map] at present)
    (waiting rollout.groupId isOpen)
  rw [← sameMembers, ← sameId] at queues
  rw [← sameId] at sameMembers
  have sameArrived : next.arrived =
      world.sink.arrived ++ [(rollout.groupId, world.sink.rollouts.length)] := by
    rw [← record_arrived world.sink rollout scoring, TrainSink.arrived, queues.touches.fixed]
    rfl
  refine ⟨⟨?_, ?_, ?_⟩, sameArrived⟩
  · refine recorded.finalize ?_ sameMembers judged queues kept
    rw [sameId]
    exact isOpen
  · change Gather.Gathered size next.arrived next.pendingGroups
      ((world.finalized ++ [finalized]).map (fun other => (other.groupId, other.members)))
    rw [queues.groups, sameArrived, List.map_append, List.map_singleton, sameMembers, sameId,
      TrainSink.membersOf, record_arrived]
    apply conserved.gathered.finish
    rw [Gather.items_append_same, List.length_append, List.length_singleton]
    exact last
  · intro groupId stillOpen place member
    change groupId ∉ (world.finalized ++ [finalized]).map Finalized.groupId at stillOpen
    rw [List.map_append, List.mem_append, not_or, List.map_singleton, List.mem_singleton] at stillOpen
    change place ∈ next.membersOf groupId at member
    rw [queues.touches.members] at member
    have outside : place ∉ finalized.members := by
      intro inGroup
      rw [sameMembers] at inGroup
      exact stillOpen.2 (Gather.key_of_item (arrived_distinct _) member inGroup)
    exact queues.touches.clean outside (waiting groupId stillOpen.1 place member)

/-- A batch leaves open groups alone. -/
theorem Conserved.batch (conserved : Conserved config size world) {next : TrainSink Scalar}
    {batch : TrainBatch Scalar} {cohort : List Nat}
    (batched : Batched config cohort world.sink next batch) :
    Conserved config size { world with
      sink := next
      windows := world.windows ++ [batch.rollouts]
      cohorts := world.cohorts ++ [cohort] } := by
  have sameArrived : next.arrived = world.sink.arrived := by
    rw [TrainSink.arrived, TrainSink.arrived, batched.touches.fixed]
  constructor
  · exact conserved.books.batch batched
  · change Gather.Gathered size next.arrived next.pendingGroups _
    rw [sameArrived, batched.groups]
    exact conserved.gathered
  · intro groupId isOpen place member
    change place ∈ next.membersOf groupId at member
    rw [batched.touches.members] at member
    have outside : place ∉ cohort := by
      intro popped
      refine conserved.books.queued_other groupId place isOpen member ?_
      rw [← batched.queue]
      exact List.mem_append_left next.pendingBatch popped
    exact batched.touches.clean outside (conserved.waiting groupId isOpen place member)

theorem Conserved.consume (conserved : Conserved config size world) {next : TrainSink Scalar}
    {windows : List (List Nat)} (consumes : Consumes windows.flatten world.sink next) :
    Conserved config size { world with sink := next, windows := world.windows ++ windows } := by
  have touches : Touches [] world.sink next := touches_same [] consumes.rollouts
  constructor
  · exact conserved.books.consume consumes
  · change Gather.Gathered size next.arrived next.pendingGroups _
    rw [TrainSink.arrived, touches.fixed, consumes.groups]
    exact conserved.gathered
  · intro groupId isOpen place member
    change place ∈ next.membersOf groupId at member
    rw [touches.members] at member
    exact touches.clean List.not_mem_nil (conserved.waiting groupId isOpen place member)

/-- What a kept rollout carries has samples. -/
theorem Books.kept_samples (books : Books config world) (place : Nat) (member : place ∈ world.kept)
    (rollout : Rollout Scalar) (found : world.sink.rollouts[place]? = some rollout) :
    rollout.samples ≠ [] := by
  obtain ⟨finalized, listed, inKept⟩ := List.mem_flatMap.mp member
  obtain ⟨env, -, survivors⟩ := (books.judged finalized listed).survivors
  have survives : place ∈ survivorsOf world.sink.fixed finalized.members := by
    have inJudged : place ∈ finalized.judged.map Prod.fst :=
      (List.filter_sublist.map Prod.fst).subset inKept
    rw [survivors] at inJudged
    split at inJudged
    · exact absurd inJudged List.not_mem_nil
    · exact inJudged
  have usable := (List.mem_filter.mp survives).2
  rw [TrainSink.fixed, List.getElem?_map, found, Option.map_some, Option.any_some] at usable
  intro empty
  rw [Rollout.fixed, empty, List.isEmpty_nil, Bool.not_true, Bool.and_false] at usable
  exact Bool.false_ne_true usable

/-- The arrival of a group with room is recorded, and its group is finalized if it
is complete. -/
theorem Conserved.arrive [Zero Scalar] (conserved : Conserved config size world)
    (rollout processed : Rollout Scalar) (scoring : Bool) (clean : processed.isFiltered = false)
    (sameId : processed.groupId = rollout.groupId)
    (room : (world.sink.membersOf rollout.groupId).length < size rollout.groupId)
    (fits : ∀ env, config.trainEnvs rollout.envName = some env → env.groupSize = size rollout.groupId)
    {completed : TrainSink Scalar} {finalized : Option (Finalized Scalar)}
    (accepted : completeGroup config (recordArrival world.sink processed scoring) rollout =
      .ok (completed, finalized)) :
    Conserved config size
        { world with sink := completed, finalized := world.finalized ++ finalized.toList } ∧
      completed.arrived = world.sink.arrived ++ [(rollout.groupId, world.sink.rollouts.length)] := by
  rw [completeGroup] at accepted
  obtain ⟨groupSize, isSize, accepted⟩ := Fallible.bind_ok accepted
  obtain ⟨env, isEnv, sameSize⟩ := Fallible.map_ok isSize
  have sized : groupSize = size rollout.groupId := by
    rw [trainEnv] at isEnv
    split at isEnv
    · rename_i known
      obtain rfl := Except.ok.inj isEnv
      exact sameSize.symm.trans (fits _ known)
    · cases isEnv
  rw [← sameId] at room accepted sized ⊢
  have held : ((recordArrival world.sink processed scoring).pendingGroups.get?
      processed.groupId).getD [] =
        world.sink.membersOf processed.groupId ++ [world.sink.rollouts.length] := by
    have isGroup : (recordArrival world.sink processed scoring).pendingGroups.get? processed.groupId =
        some ((world.sink.pendingGroups.get? processed.groupId).getD [] ++
          [world.sink.rollouts.length]) := by
      rw [OrderedDict.get?_eq_some_iff]
      exact (OrderedDict.mem_set _ _ _ _ _).mpr (Or.inl ⟨rfl, rfl⟩)
    rw [isGroup, Option.getD_some, conserved.pending_members room]
  rw [held, List.length_append, List.length_singleton, sized] at accepted
  split at accepted
  · rename_i full
    obtain ⟨⟨next, last⟩, processes, accepted⟩ := Fallible.bind_ok accepted
    obtain ⟨rfl, rfl⟩ := Prod.mk.inj (Except.ok.inj accepted)
    exact conserved.finish processed scoring clean (by omega) processes
  · rename_i incomplete
    obtain ⟨rfl, rfl⟩ := Prod.mk.inj (Except.ok.inj accepted)
    rw [Option.toList_none, List.append_nil]
    exact ⟨conserved.wait processed scoring clean (by omega),
      record_arrived world.sink processed scoring⟩

/-- A returned batch ships the rollouts of one cohort, which all have samples, or is
a batch of settled drops, which pops no cohort and has no samples. -/
def ShipsCohort (config : Config Scalar) (added : Added Scalar) : Prop :=
  ∀ batch, added.batch = some batch →
    (∃ cohort, added.cohort = some cohort ∧ Ships config cohort added.sink batch ∧
      ∀ entry ∈ added.sink.unfiltered cohort, entry.2.samples ≠ []) ∨
    (added.cohort = none ∧ batch.samples = [] ∧ batch.shippedValueVersionMin = none)

/-- One call keeps the invariant and records its arrival. -/
theorem add_conserved [Zero Scalar] (conserved : Conserved config size world)
    (rollout : Rollout Scalar) (clean : rollout.isFiltered = false)
    (room : (world.sink.membersOf rollout.groupId).length < size rollout.groupId)
    (fits : ∀ env, config.trainEnvs rollout.envName = some env → env.groupSize = size rollout.groupId)
    {added : Added Scalar} (accepted : world.sink.add config rollout = .ok added) :
    Conserved config size (world.record added) ∧ ShipsCohort config added ∧
      added.sink.arrived = world.sink.arrived ++ [(rollout.groupId, world.sink.rollouts.length)] := by
  rw [TrainSink.add] at accepted
  obtain ⟨⟨processed, scoring⟩, processes, accepted⟩ := Fallible.bind_ok accepted
  obtain ⟨sameId, -, sameFilter⟩ := process_rollout_same processes
  obtain ⟨⟨completed, finalized⟩, completes, accepted⟩ := Fallible.bind_ok accepted
  obtain ⟨arrived, sameArrived⟩ := conserved.arrive rollout processed scoring
    (sameFilter.trans clean) sameId room fits completes
  dsimp only at accepted
  split at accepted
  · have batched := process_batch_batched config completed
      (List.nodup_append.mp arrived.books.queue_distinct).2.1
      arrived.books.queued_present arrived.books.clean
    have shipped := arrived.batch batched
    obtain rfl := Except.ok.inj accepted
    refine ⟨shipped, ?_, ?_⟩
    · intro batch isBatch
      obtain rfl := Option.some.inj isBatch
      refine Or.inl ⟨_, rfl, batched.ships, ?_⟩
      rintro ⟨place, held⟩ listed
      obtain ⟨popped, found⟩ := (mem_read _ _ place held).mp (List.mem_of_mem_filter listed)
      refine shipped.books.kept_samples place ?_ held found
      rw [← shipped.books.queue]
      refine List.mem_append_left _ (List.mem_flatten.mpr ⟨_, ?_, popped⟩)
      exact List.mem_append_right world.cohorts (List.mem_singleton_self _)
    · rw [← sameArrived, TrainSink.arrived, batched.touches.fixed]
      rfl
  split at accepted
  · obtain ⟨window, consumes, flushed⟩ := flush_settled_consumes config completed
    obtain rfl := Except.ok.inj accepted
    have touches : Touches [] completed (flushSettled config completed).1 :=
      touches_same [] consumes.rollouts
    have sameRecord : (flushSettled config completed).1.arrived = completed.arrived := by
      rw [TrainSink.arrived, touches.fixed]
      rfl
    have isWindow : ((flushSettled config completed).2.map TrainBatch.rollouts).toList.flatten =
        window := by
      rcases flushed with ⟨none, rfl⟩ | ⟨batch, some, rfl, -, -⟩
      · rw [none]
        rfl
      · rw [some]
        exact List.flatten_singleton
    rw [← isWindow] at consumes
    have kept := arrived.consume consumes
    refine ⟨?_, ?_, sameRecord.trans sameArrived⟩
    · rw [World.record, Option.toList_none, List.append_nil]
      exact kept
    · intro batch isBatch
      rcases flushed with ⟨none, -⟩ | ⟨other, some, -, samples, version⟩
      · exact absurd (none.symm.trans isBatch) (Option.some_ne_none batch).symm
      · obtain rfl := Option.some.inj (some.symm.trans isBatch)
        exact Or.inr ⟨rfl, samples, version⟩
  · obtain rfl := Except.ok.inj accepted
    refine ⟨?_, fun batch impossible => absurd impossible (Option.some_ne_none batch).symm, sameArrived⟩
    rw [World.record, Option.map_none, Option.toList_none, List.append_nil]
    change Conserved config size { world with
      sink := completed
      finalized := world.finalized ++ finalized.toList
      cohorts := world.cohorts ++ [] }
    rw [List.append_nil]
    exact arrived

end Call

/-! ## A run -/

/-- What the sink's bookkeeping says of the arrivals so far. -/
structure Accounted (config : Config Scalar) (size : Nat → Nat) (world : World Scalar) : Prop where
  /-- Every arrival is in one returned window or still in the open one. -/
  windows : (world.windows.flatten ++ world.sink.pendingRollouts).Perm
    (List.range world.sink.rollouts.length)
  /-- A group is finalized at most once, and has been when its last member arrived. -/
  once : (world.finalized.map Finalized.groupId).Nodup
  complete : ∀ groupId, world.sink.membersOf groupId ≠ [] →
    (groupId ∈ world.finalized.map Finalized.groupId ↔
      (world.sink.membersOf groupId).length = size groupId)
  members : ∀ finalized ∈ world.finalized,
    finalized.members = world.sink.membersOf finalized.groupId
  /-- The survivors of a group that is not dropped are judged by the pre-filters. -/
  judged : ∀ finalized ∈ world.finalized, Judged config world.sink.fixed finalized
  /-- Those no pre-filter caught pass through the queue once, in the order of
  finalization. -/
  queue : world.cohorts.flatten ++ world.sink.pendingBatch = world.kept
  distinct : (world.cohorts.flatten ++ world.sink.pendingBatch).Nodup
  tokens : ∀ tokenBatchSize, config.threshold = .tokenBatchSize tokenBatchSize →
    world.sink.pendingTokens = tokensOf world.sink.fixed world.sink.pendingBatch

/-- What the dispatcher promises of a sequence of arrivals: a group's members come
from environments of its size, no more of them come than that, and none of them is
annotated by a filter yet. -/
structure Grouped (config : Config Scalar) (size : Nat → Nat) (arrivals : List (Rollout Scalar)) :
    Prop where
  sizes : ∀ rollout ∈ arrivals, ∀ env, config.trainEnvs rollout.envName = some env →
    env.groupSize = size rollout.groupId
  counts : ∀ groupId, arrivals.countP (fun rollout => decide (rollout.groupId = groupId)) ≤
    size groupId
  clean : ∀ rollout ∈ arrivals, rollout.isFiltered = false

/-- The books are right before a call and after it, and what it returns ships a
cohort. -/
def Upholds [Zero Scalar] (config : Config Scalar) (size : Nat → Nat) (world : World Scalar)
    (rollout : Rollout Scalar) : Prop :=
  Accounted config size world ∧
    ∀ added, world.sink.add config rollout = .ok added →
      Accounted config size (world.record added) ∧ ShipsCohort config added

theorem Conserved.accounted {config : Config Scalar} {size : Nat → Nat} {world : World Scalar}
    (conserved : Conserved config size world) : Accounted config size world where
  windows := by
    have windows := conserved.books.windows
    rwa [TrainSink.fixed, List.length_map] at windows
  once := conserved.books.once
  complete := by
    intro groupId started
    have finished := conserved.gathered.finished_iff groupId started
    rw [List.map_map] at finished
    exact finished
  members := conserved.books.members
  judged := conserved.books.judged
  queue := conserved.books.queue
  distinct := conserved.books.queue_distinct
  tokens := by
    intro tokenBatchSize byTokens
    have tokens := conserved.books.tokens
    rw [countedTokens, byTokens] at tokens
    exact tokens

theorem conserved_init (config : Config Scalar) (size : Nat → Nat) :
    Conserved config size (World.init : World Scalar) where
  books := {
    windows := .refl _
    members := fun _ impossible => absurd impossible List.not_mem_nil
    judged := fun _ impossible => absurd impossible List.not_mem_nil
    once := List.nodup_nil
    queue := rfl
    tokens := by
      rw [countedTokens]
      cases config.threshold with
      | batchSize _ => rfl
      | tokenBatchSize _ => rfl
    clean := fun _ impossible => absurd impossible List.not_mem_nil }
  gathered := Gather.gathered_empty size
  waiting := fun _ _ _ impossible => absurd impossible List.not_mem_nil

/-- The arrivals that may still come leave every group within its size. -/
def Fits (size : Nat → Nat) (sink : TrainSink Scalar) (arrivals : List (Rollout Scalar)) : Prop :=
  ∀ groupId, (sink.membersOf groupId).length +
    arrivals.countP (fun rollout => decide (rollout.groupId = groupId)) ≤ size groupId

theorem Fits.tail {size : Nat → Nat} {sink next : TrainSink Scalar} {rollout : Rollout Scalar}
    {rest : List (Rollout Scalar)} (fits : Fits size sink (rollout :: rest))
    (arrived : next.arrived = sink.arrived ++ [(rollout.groupId, sink.rollouts.length)]) :
    Fits size next rest := by
  intro groupId
  have before := fits groupId
  rw [TrainSink.membersOf, arrived]
  by_cases same : rollout.groupId = groupId
  · rw [List.countP_cons_of_pos (by simp [same])] at before
    rw [← same, Gather.items_append_same, List.length_append, List.length_singleton, same]
    rw [TrainSink.membersOf] at before
    omega
  · rw [List.countP_cons_of_neg (by simp [same])] at before
    rw [Gather.items_append_other _ _ _ _ (Ne.symm same)]
    exact before

theorem conserved_along [Zero Scalar] (config : Config Scalar) (size : Nat → Nat)
    (arrivals : List (Rollout Scalar)) (world : World Scalar)
    (conserved : Conserved config size world) (fits : Fits size world.sink arrivals)
    (sizes : ∀ rollout ∈ arrivals, ∀ env, config.trainEnvs rollout.envName = some env →
      env.groupSize = size rollout.groupId)
    (clean : ∀ rollout ∈ arrivals, rollout.isFiltered = false) :
    Machine.Along (World.step config) (Upholds config size) world arrivals := by
  induction arrivals generalizing world with
  | nil => trivial
  | cons rollout rest inductionHypothesis =>
    have room : (world.sink.membersOf rollout.groupId).length < size rollout.groupId := by
      have within := fits rollout.groupId
      rw [List.countP_cons_of_pos (by simp)] at within
      omega
    have step (added : Added Scalar) (accepted : world.sink.add config rollout = .ok added) :=
      add_conserved conserved rollout (clean rollout List.mem_cons_self) room
        (sizes rollout List.mem_cons_self) accepted
    constructor
    · refine ⟨conserved.accounted, fun added accepted => ?_⟩
      obtain ⟨after, ships, -⟩ := step added accepted
      exact ⟨after.accounted, ships⟩
    · intro next stepped
      rw [World.step] at stepped
      split at stepped
      · rename_i added accepted
        obtain rfl := Option.some.inj stepped
        obtain ⟨after, -, arrived⟩ := step added accepted
        exact inductionHypothesis (world.record added) after (fits.tail arrived)
          (fun other member => sizes other (List.mem_cons_of_mem rollout member))
          (fun other member => clean other (List.mem_cons_of_mem rollout member))
      · cases stepped

/-- Along every sequence of arrivals within their groups' sizes the sink accounts
for each of them. -/
theorem sink_conserves_arrivals [Zero Scalar] (config : Config Scalar) (size : Nat → Nat)
    (arrivals : List (Rollout Scalar)) (grouped : Grouped config size arrivals) :
    Machine.Along (World.step config) (Upholds config size) World.init arrivals := by
  refine conserved_along config size arrivals World.init (conserved_init config size) ?_
    grouped.sizes grouped.clean
  intro groupId
  change 0 + _ ≤ size groupId
  rw [Nat.zero_add]
  exact grouped.counts groupId

/-! ## A partial group

A group of two whose environment scores groups as a whole. One member failed.
-/

/-- One sampled message. -/
def sampledTrace : Trace Int where
  id := "trace"
  stopCondition := none
  mmTokenTypeIdMap := []
  tools := []
  nodes := [⟨[7, 8], [false, true], true, [], none, [], [], none, false⟩]
  branches := [⟨0, [0], [7, 8], [false, true], [0, 0], none, true⟩]

/-- No credit, samples as they are. -/
def noScores : Scores Int := ⟨fun _ sample => sample, none, none, none, none⟩

def groupScoredEnv : TrainEnv Int where
  groupSize := 2
  requiresGroupScoring := true
  samplesFromLivePolicy := true
  temperature := 1
  hasValueEvaluator := false
  minimumGroupSize := 1
  finalizeRollout := fun _ => .ok noScores
  finalizeGroup := fun _ => .ok (fun _ => noScores)

def groupScored : Config Int where
  trainEnvs := fun name => if name = "env" then some groupScoredEnv else none
  threshold := .batchSize 1
  emptyBatchRolloutLimit := 4
  preFilters := []
  postFilters := []
  plane := ⟨fun _ => [], none, none⟩
  hasPublisher := false
  privilegedContext := .task
  groupPrompts := fun _ => .ok []

def arrival (envName : String) (groupId : Nat) (reward : Int) (hasError : Bool) : Rollout Int where
  samples := []
  valueTrajectory := none
  valueReturns := none
  valueVersion := none
  trace := sampledTrace
  envName := envName
  groupId := groupId
  taskIdx := 0
  valueFunctionPrompt := none
  policyVersion := 0
  reward := reward
  hasError := hasError
  trainable := !hasError
  numTotalTokens := 2
  trainingLayout := none
  valuePrefix := none
  advantages := none
  isFiltered := false
  filterResults := []

def partialGroup : List (Rollout Int) := [arrival "env" 0 1 false, arrival "env" 0 1 true]

theorem partial_group_grouped : Grouped groupScored (fun _ => 2) partialGroup where
  sizes := by
    intro rollout _ env known
    change (if rollout.envName = "env" then some groupScoredEnv else none) = some env at known
    split at known
    · rw [← Option.some.inj known]
      rfl
    · cases known
  counts := fun _ => List.countP_le_length
  clean := by
    intro rollout listed
    rcases List.mem_cons.mp listed with rfl | last
    · rfl
    · rw [List.mem_singleton.mp last]
      rfl

/-- The member that did not fail survives, no pre-filter caught it, and its group is
finalized. It never enters the queue. -/
theorem survivor_dropped_with_group :
    ∃ world, Machine.run (World.step groupScored) World.init partialGroup = some world ∧
      Grouped groupScored (fun _ => 2) partialGroup ∧
      groupScored.preFilters = [] ∧ world.finalized.map Finalized.members = [[0, 1]] ∧
      survivorsOf world.sink.fixed [0, 1] = [0] ∧
      0 ∉ world.cohorts.flatten ++ world.sink.pendingBatch := by
  refine ⟨_, rfl, partial_group_grouped, rfl, ?_⟩
  decide

/-! ## Two environments

The partial group comes in between the members of a group of four, whose survivors
are older the later they come. The filter catches the one without reward.
-/

def survivorScoredEnv : TrainEnv Int :=
  { groupScoredEnv with
    groupSize := 4
    requiresGroupScoring := false
    finalizeGroup := fun _ => .ok (fun position => { noScores with valueVersion := some (5 - position) }) }

def filtered : Config Int :=
  { groupScored with
    trainEnvs := fun name =>
      if name = "env" then some groupScoredEnv
      else if name = "solo" then some survivorScoredEnv
      else none
    threshold := .batchSize 2
    emptyBatchRolloutLimit := 2
    preFilters := [⟨"zero_reward", true, fun rollout => decide (rollout.reward = 0)⟩] }

def twoSizes (groupId : Nat) : Nat := if groupId = 0 then 2 else 4

def interleaved : List (Rollout Int) :=
  [arrival "solo" 1 1 false, arrival "env" 0 1 false, arrival "solo" 1 0 false,
    arrival "env" 0 1 true, arrival "solo" 1 1 false, arrival "solo" 2 1 false]

/-- The last member of the group of four. -/
def closing : Rollout Int := arrival "solo" 1 1 false

theorem interleaved_grouped : Grouped filtered twoSizes (interleaved ++ [closing]) where
  sizes := by
    intro rollout listed env known
    have sized : (interleaved ++ [closing]).all (fun rollout =>
        (filtered.trainEnvs rollout.envName).all
          (fun env => env.groupSize == twoSizes rollout.groupId)) := by decide
    have ofRollout := List.all_eq_true.mp sized rollout listed
    rw [known] at ofRollout
    exact eq_of_beq ofRollout
  counts := by
    intro groupId
    match groupId with
    | 0 | 1 | 2 => decide
    | groupId + 3 =>
      refine (List.countP_eq_zero.mpr ?_).trans_le (Nat.zero_le _)
      intro rollout listed same
      have few : (interleaved ++ [closing]).all (fun rollout => decide (rollout.groupId < 3)) := by
        decide
      have small := of_decide_eq_true (List.all_eq_true.mp few rollout listed)
      have large := of_decide_eq_true same
      omega
  clean := by
    intro rollout listed
    have unfiltered : (interleaved ++ [closing]).all (fun rollout => !rollout.isFiltered) := by decide
    exact Bool.not_eq_true' _ ▸ List.all_eq_true.mp unfiltered rollout listed

/-- The partial group leaves as a window of settled drops. The last arrival ships
the first two survivors in the window of all that still wait, the one of an open
group included, and the third survivor stays in the queue. -/
theorem sink_conserves_interleaved :
    Machine.Along (World.step filtered) (Upholds filtered twoSizes) World.init
        (interleaved ++ [closing]) ∧
      ∃ world added, Machine.run (World.step filtered) World.init interleaved = some world ∧
        world.windows = [[1, 3]] ∧ world.sink.pendingBatch = [] ∧
        world.sink.add filtered closing = .ok added ∧
        added.batch.map (fun batch =>
            (batch.rollouts, batch.samples.length, batch.shippedValueVersionMin)) =
          some ([0, 2, 4, 5, 6], 2, some 3) ∧
        added.cohort = some [0, 4] ∧ added.sink.pendingBatch = [6] ∧
        added.sink.preFilterDropped = 1 := by
  refine ⟨sink_conserves_arrivals filtered twoSizes _ interleaved_grouped, _, _, rfl, ?_, ?_, rfl, ?_⟩
  all_goals decide

end PrimeRl.Orchestrator.Sink
