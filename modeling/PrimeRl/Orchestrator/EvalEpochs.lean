import Mathlib.Algebra.Ring.Int.Defs
import Mathlib.Algebra.Ring.Nat
import Mathlib.Data.List.Flatten
import PrimeRl.Orchestrator.EvalRuns

/-!
# Every fired epoch completes once

A batch leaves exactly when nothing of its environment and step is outstanding, and
it holds every rollout of one group for each example. Once the queue is empty and
everything has arrived, each fired environment and step has its batch and the sink
is empty.
-/

namespace PrimeRl.Orchestrator.Eval

variable {Task : Type}

/-- A row waits, a group has rollouts to schedule or a rollout is in flight. -/
def World.Outstanding (world : World Task) (key : EpochKey) : Prop :=
  (∃ row ∈ world.source.queue, row.key = key) ∨
    ∃ groupId group, world.groups[groupId]? = some group ∧ group.row.key = key ∧
      (0 < group.rolloutsToSchedule ∨ ∃ number, (groupId, number) ∈ world.inflight)

/-- Nothing waits, nothing is left to schedule and nothing is in flight. -/
structure World.Drained (world : World Task) : Prop where
  queue : world.source.queue = []
  groups : ∀ group ∈ world.groups, group.rolloutsToSchedule = 0
  inflight : world.inflight = []

/-- A batch of a fired environment and step with one group for each example, in the
order of the examples, and every rollout of these groups. -/
structure CompleteEpoch (envs : EvalEnvs Task) (world : World Task) (batch : EvalBatch) : Prop where
  fired : batch.key ∈ world.fired
  stamped : ∀ rollout ∈ batch.rollouts, rollout.key = batch.key
  members : ∃ env, envs.get? batch.envName = some env ∧
    batch.rollouts.length = env.examples.length * env.groupSize ∧
    (world.groupsWith batch.key).map
        (fun groupId => world.groups[groupId]?.map (fun group => group.task)) =
      env.examples.map some ∧
    (batch.rollouts.map place).Perm ((world.groupsWith batch.key).flatMap
      (fun groupId => (List.range env.groupSize).map (fun number => (groupId, number))))

section Running
variable {envs : EvalEnvs Task} {world : World Task}

/-- A fired key is of an environment, with as many rows as examples. -/
theorem Opened.fired_rows (opened : Opened envs world) {key : EpochKey} (fired : key ∈ world.fired) :
    ∃ env, envs.get? key.1 = some env ∧
      world.rows.filter (fun row => decide (row.key = key)) = rowsAt key.2 (key.1, env) := by
  obtain ⟨trigger, triggered, listed⟩ := List.mem_flatMap.mp fired
  obtain ⟨entry, isEntry, rfl⟩ := List.mem_map.mp listed
  exact ⟨entry.2, opened.known trigger triggered entry isEntry, opened.rows_of triggered isEntry⟩

theorem Opened.row_fired (opened : Opened envs world) {row : Row Task} (listed : row ∈ world.rows) :
    row.key ∈ world.fired := by
  obtain ⟨trigger, triggered, entry, isEntry, ofEntry⟩ := opened.mem_rows listed
  rw [rows_key trigger.1 ofEntry]
  exact List.mem_flatMap.mpr ⟨trigger, triggered, List.mem_map.mpr ⟨entry, isEntry, rfl⟩⟩

theorem Opened.fired_once (opened : Opened envs world) : world.fired.Nodup := by
  rw [World.fired, List.nodup_flatMap]
  constructor
  · intro trigger triggered
    have names := opened.distinct trigger triggered
    have keys : trigger.2.map (fun entry => (entry.1, trigger.1)) =
        (trigger.2.map Prod.fst).map (fun name => (name, trigger.1)) := by
      rw [List.map_map]
      rfl
    rw [keys]
    exact names.map (fun first second same => (Prod.mk.inj same).1)
  · refine (List.pairwise_map.mp opened.once).imp ?_
    intro first second different key inFirst inSecond
    obtain ⟨entry, -, rfl⟩ := List.mem_map.mp inFirst
    obtain ⟨other, -, same⟩ := List.mem_map.mp inSecond
    exact different (Prod.mk.inj same).2.symm

/-- The examples of a fired key are those of its groups, then those that wait. -/
theorem Opened.examples_split (opened : Opened envs world) {key : EpochKey} {env : EvalEnv Task}
    (fired : key ∈ world.fired) (found : envs.get? key.1 = some env) :
    env.examples.map some =
      (world.groupsWith key).map
          (fun groupId => world.groups[groupId]?.map (fun group => group.task)) ++
        (world.source.queue.filter (fun row => decide (row.key = key))).map
          (fun row => some row.task) := by
  obtain ⟨other, otherFound, rows⟩ := opened.fired_rows fired
  obtain rfl := Option.some.inj (found.symm.trans otherFound)
  have split := congrArg (List.map (Option.map Row.task)) (rows_of_groups world key)
  rw [rows, rowsAt, List.map_map, List.map_map, List.map_append, List.map_map, List.map_map] at split
  refine split.trans ?_
  congr 1
  apply List.map_congr_left
  intro groupId _
  change (world.groups[groupId]?.map GroupState.row).map Row.task = _
  rw [Option.map_map]
  rfl

/-- The arrivals of a group whose rollouts have all arrived. -/
theorem Running.group_full (running : Running envs world) {groupId : Nat} {group : GroupState Task}
    (found : world.groups[groupId]? = some group) :
    (Gather.itemsOf (byGroup world.arrived) groupId).length = group.targetRollouts ↔
      group.rolloutsToSchedule = 0 ∧ ∀ number, (groupId, number) ∉ world.inflight := by
  obtain ⟨env, -, -, bounded⟩ := running.opened.sized group (List.mem_of_getElem? found)
  have tasks := running.opened.tasks groupId
  have lengths := tasks.length_eq
  rw [List.filter_append, List.length_append, ← items_length, tasksOf, found] at lengths
  dsimp only at lengths
  rw [List.length_map, List.length_range, GroupState.dispatched] at lengths
  constructor
  · intro full
    have none : (world.inflight.filter (fun task => decide (task.1 = groupId))).length = 0 := by omega
    refine ⟨by omega, ?_⟩
    intro number flies
    have listed : (groupId, number) ∈ world.inflight.filter (fun task => decide (task.1 = groupId)) :=
      List.mem_filter.mpr ⟨flies, decide_eq_true rfl⟩
    rw [List.length_eq_zero_iff.mp none] at listed
    cases listed
  · rintro ⟨scheduled, landed⟩
    have none : world.inflight.filter (fun task => decide (task.1 = groupId)) = [] := by
      rw [List.filter_eq_nil_iff]
      rintro ⟨other, number⟩ flies isGroup
      obtain rfl : other = groupId := of_decide_eq_true isGroup
      exact landed number flies
    rw [none, List.length_nil] at lengths
    omega

/-- A batch has left exactly when nothing of its key is outstanding. -/
theorem Running.returned_iff (running : Running envs world)
    (valid : ∀ entry ∈ envs.entries, entry.2.examples ≠ [] ∧ 0 < entry.2.groupSize)
    {key : EpochKey} (fired : key ∈ world.fired) :
    key ∈ world.returned.map EvalBatch.key ↔ ¬world.Outstanding key := by
  obtain ⟨finished, sunk⟩ := running.sunk
  obtain ⟨env, found, -⟩ := running.opened.fired_rows fired
  obtain ⟨some, positive⟩ := valid (key.1, env) ((OrderedDict.get?_eq_some_iff envs key.1 env).mp found)
  have positive : 0 < env.groupSize := positive
  have split := congrArg List.length (running.opened.examples_split fired found)
  rw [List.length_map, List.length_append, List.length_map, List.length_map] at split
  have distinct := groupsOf_distinct sunk.gathered.once key
  have inside := running.finished_opened sunk key
  constructor
  · intro left outstanding
    obtain ⟨batch, listed, rfl⟩ := List.mem_map.mp left
    obtain ⟨-, other, otherFound, full⟩ := sunk.whole batch listed
    obtain rfl : env = other := Option.some.inj (found.symm.trans otherFound)
    have atMost := (List.subperm_of_subset distinct inside).length_le
    rw [List.length_map] at atMost
    have noneWaits : (world.source.queue.filter
        (fun row => decide (row.key = batch.key))).length = 0 := by omega
    rcases outstanding with ⟨row, queued, isKey⟩ | ⟨groupId, group, isGroup, isKey, busy⟩
    · have listed : row ∈ world.source.queue.filter (fun row => decide (row.key = batch.key)) :=
        List.mem_filter.mpr ⟨queued, decide_eq_true isKey⟩
      rw [List.length_eq_zero_iff.mp noneWaits] at listed
      cases listed
    · have isMember : groupId ∈ (groupsOf finished batch.key).map Prod.fst := by
        have reordered := (List.subperm_of_subset distinct inside).perm_of_length_le
          (by rw [List.length_map]; omega)
        exact reordered.symm.subset ((mem_groupsWith world _ groupId).mpr ⟨group, isGroup, isKey⟩)
      obtain ⟨complete, isComplete, rfl⟩ := List.mem_map.mp isMember
      obtain ⟨isItems, size⟩ := sunk.gathered.all_items complete.1 complete.2
        (List.mem_filter.mp isComplete).1
      rw [isItems, targetOf, isGroup] at size
      obtain ⟨scheduled, landed⟩ := (running.group_full isGroup).mp size
      rcases busy with waits | ⟨number, flies⟩
      · omega
      · exact landed number flies
  · intro settled
    apply sunk.complete key env found (List.length_pos_iff.mpr some)
    have noneWaits : world.source.queue.filter (fun row => decide (row.key = key)) = [] := by
      rw [List.filter_eq_nil_iff]
      intro row queued isKey
      exact settled (.inl ⟨row, queued, of_decide_eq_true isKey⟩)
    rw [noneWaits, List.length_nil, Nat.add_zero] at split
    have allFinished : world.groupsWith key ⊆ (groupsOf finished key).map Prod.fst := by
      intro groupId listed
      obtain ⟨group, isGroup, isKey⟩ := (mem_groupsWith world key groupId).mp listed
      obtain ⟨other, otherFound, target, -⟩ :=
        running.opened.sized group (List.mem_of_getElem? isGroup)
      have sameName : group.envName = key.1 := congrArg Prod.fst isKey
      rw [sameName, found] at otherFound
      obtain rfl := Option.some.inj otherFound
      have full := (running.group_full isGroup).mpr
        ⟨by
          by_contra waits
          exact settled (.inr ⟨groupId, group, isGroup, isKey, .inl (Nat.pos_of_ne_zero waits)⟩),
        fun number flies => settled (.inr ⟨groupId, group, isGroup, isKey, .inr ⟨number, flies⟩⟩)⟩
      have arrived : Gather.itemsOf (byGroup world.arrived) groupId ≠ [] :=
        List.ne_nil_of_length_pos (by omega)
      have size : targetOf world.groups groupId = group.targetRollouts := by rw [targetOf, isGroup]
      have isFinished := (sunk.gathered.finished_iff groupId arrived).mpr (full.trans size.symm)
      obtain ⟨complete, isComplete, rfl⟩ := List.mem_map.mp isFinished
      refine List.mem_map.mpr ⟨complete, List.mem_filter.mpr ⟨isComplete, decide_eq_true ?_⟩, rfl⟩
      obtain ⟨own, isOwn, members, -⟩ := sunk.group_key isComplete
      obtain ⟨rollout, member⟩ := List.exists_mem_of_ne_nil _ (sunk.filled complete isComplete)
      obtain ⟨isItems, -⟩ := sunk.gathered.all_items complete.1 complete.2 isComplete
      obtain ⟨inArrived, isGroupId⟩ := mem_items_by_group.mp (isItems ▸ member)
      obtain ⟨another, isAnother, sameKey⟩ := running.opened.stamped rollout inArrived
      rw [isGroupId, isGroup] at isAnother
      rw [isOwn, ← members rollout member, sameKey, ← Option.some.inj isAnother, isKey]
    have groupsDistinct : (world.groupsWith key).Nodup := List.nodup_range.filter _
    have atLeast := (List.subperm_of_subset groupsDistinct allFinished).length_le
    have atMost := (List.subperm_of_subset distinct inside).length_le
    rw [List.length_map] at atLeast atMost
    omega

/-- A batch that has left holds every rollout of one group for each example. -/
theorem Running.complete_epoch (running : Running envs world) {batch : EvalBatch}
    (left : batch ∈ world.returned)
    (valid : ∀ entry ∈ envs.entries, entry.2.examples ≠ [] ∧ 0 < entry.2.groupSize) :
    CompleteEpoch envs world batch := by
  obtain ⟨finished, sunk⟩ := running.sunk
  obtain ⟨isBatch, env, found, full⟩ := sunk.whole batch left
  obtain ⟨someExample, -⟩ := valid (batch.envName, env)
    ((OrderedDict.get?_eq_some_iff envs batch.envName env).mp found)
  have positive : 0 < env.examples.length := List.length_pos_iff.mpr someExample
  have inside := running.finished_opened sunk batch.key
  have fired : batch.key ∈ world.fired := by
    obtain ⟨complete, isComplete⟩ := List.exists_mem_of_length_pos (full.symm ▸ positive)
    obtain ⟨group, isGroup, isKey⟩ := (mem_groupsWith world _ complete.1).mp
      (inside complete.1 (List.mem_map_of_mem isComplete))
    rw [← isKey]
    exact running.opened.row_fired
      (List.mem_append_left _ (List.mem_map_of_mem (List.mem_of_getElem? isGroup)))
  have stamped : ∀ rollout ∈ batch.rollouts, rollout.key = batch.key := by
    intro rollout listed
    rw [isBatch] at listed
    obtain ⟨complete, isComplete, member⟩ := List.mem_flatMap.mp listed
    obtain ⟨isFinished, isKey⟩ := List.mem_filter.mp isComplete
    obtain ⟨own, isOwn, members, -⟩ := sunk.group_key isFinished
    rw [of_decide_eq_true isKey] at isOwn
    rw [members rollout member, ← Option.some.inj isOwn]
  have split := running.opened.examples_split fired found
  have lengths := congrArg List.length split
  rw [List.length_map, List.length_append, List.length_map, List.length_map] at lengths
  have distinct := groupsOf_distinct sunk.gathered.once batch.key
  have atMost := (List.subperm_of_subset distinct inside).length_le
  rw [List.length_map] at atMost
  have noneWaits : world.source.queue.filter (fun row => decide (row.key = batch.key)) = [] :=
    List.length_eq_zero_iff.mp (by omega)
  have reordered : ((groupsOf finished batch.key).map Prod.fst).Perm (world.groupsWith batch.key) :=
    (List.subperm_of_subset distinct inside).perm_of_length_le (by rw [List.length_map]; omega)
  refine ⟨fired, stamped, env, found, ?_, ?_, ?_⟩
  · have isLength : (gatheredOf finished batch.key).length =
        (groupsOf finished batch.key).length * env.groupSize := sunk.gathered_length found
    rw [isBatch, isLength, full]
  · rw [noneWaits, List.map_nil, List.append_nil] at split
    exact split.symm
  · have places : batch.rollouts.map place =
        (groupsOf finished batch.key).flatMap (fun complete => complete.2.map place) := by
      rw [isBatch, gatheredOf, List.map_flatMap]
    have numbers : ∀ complete ∈ groupsOf finished batch.key, (complete.2.map place).Perm
        ((List.range env.groupSize).map (fun number => (complete.1, number))) := by
      intro complete isComplete
      obtain ⟨group, isGroup, isKey⟩ := (mem_groupsWith world _ complete.1).mp
        (inside complete.1 (List.mem_map_of_mem isComplete))
      obtain ⟨other, otherFound, target, -⟩ :=
        running.opened.sized group (List.mem_of_getElem? isGroup)
      have sameName : group.envName = batch.envName := congrArg Prod.fst isKey
      rw [sameName, found] at otherFound
      obtain rfl := Option.some.inj otherFound
      obtain ⟨isItems, size⟩ := sunk.gathered.all_items complete.1 complete.2
        (List.mem_filter.mp isComplete).1
      rw [isItems, targetOf, isGroup] at size
      obtain ⟨scheduled, landed⟩ := (running.group_full isGroup).mp size
      have tasks := running.opened.tasks complete.1
      have none : world.inflight.filter (fun task => decide (task.1 = complete.1)) = [] := by
        rw [List.filter_eq_nil_iff]
        rintro ⟨groupId, number⟩ flies isOwn
        obtain rfl : groupId = complete.1 := of_decide_eq_true isOwn
        exact landed number flies
      rw [List.filter_append, none, List.nil_append, tasksOf, isGroup] at tasks
      dsimp only at tasks
      rw [GroupState.dispatched, scheduled, target, Nat.sub_zero] at tasks
      have sameItems : complete.2.map place =
          (world.arrived.map place).filter (fun task => decide (task.1 = complete.1)) := by
        rw [isItems, Gather.itemsOf, byGroup, List.filter_map, List.map_map, List.map_map,
          List.filter_map]
        rfl
      rw [sameItems]
      exact tasks
    rw [places]
    have regrouped := List.Perm.flatMap_left (groupsOf finished batch.key) numbers
    refine regrouped.trans ?_
    have isFlat : (groupsOf finished batch.key).flatMap
          (fun complete => (List.range env.groupSize).map (fun number => (complete.1, number))) =
        ((groupsOf finished batch.key).map Prod.fst).flatMap
          (fun groupId => (List.range env.groupSize).map (fun number => (groupId, number))) := by
      rw [List.flatMap_map]
    rw [isFlat]
    exact reordered.flatMap_right _

/-- No rollout is in two batches, and none twice in one. -/
theorem Running.rollouts_distinct (running : Running envs world) :
    (world.returned.flatMap EvalBatch.rollouts).Nodup := by
  obtain ⟨finished, sunk⟩ := running.sunk
  have places : ((world.inflight ++ world.arrived.map place)).Nodup := by
    rw [List.nodup_iff_count_le_one]
    rintro ⟨groupId, number⟩
    have tasks := running.opened.tasks groupId
    have isCount : List.count (groupId, number) (world.inflight ++ world.arrived.map place) =
        List.count (groupId, number) (tasksOf world.groups groupId) := by
      rw [← tasks.count_eq]
      exact (List.count_filter (p := fun task : Nat × Nat => decide (task.1 = groupId))
        (decide_eq_true rfl)).symm
    rw [isCount]
    apply List.nodup_iff_count_le_one.mp
    rw [tasksOf]
    split
    · exact List.nodup_nil
    · exact List.nodup_range.map (fun first second same => (Prod.mk.inj same).2)
  have arrived : world.arrived.Nodup := List.Nodup.of_map place (List.nodup_append.mp places).2.1
  have distinct : ((byGroup world.arrived).map Prod.snd).Nodup := by
    rw [byGroup, List.map_map]
    exact (List.map_id _).symm ▸ arrived
  have all := sunk.gathered.finished_distinct distinct
  rw [List.nodup_flatMap]
  constructor
  · intro batch listed
    rw [(sunk.whole batch listed).1, gatheredOf]
    exact all.sublist (List.filter_sublist.map Prod.snd).flatten
  · refine (List.pairwise_map.mp sunk.once).imp_of_mem ?_
    intro batch other listed otherListed different rollout inBatch inOther
    rw [(sunk.whole batch listed).1] at inBatch
    rw [(sunk.whole other otherListed).1] at inOther
    have keyOf {key : EpochKey} (member : rollout ∈ gatheredOf finished key) : rollout.key = key := by
      obtain ⟨complete, isComplete, isMember⟩ := List.mem_flatMap.mp member
      obtain ⟨isFinished, isKey⟩ := List.mem_filter.mp isComplete
      obtain ⟨own, isOwn, members, -⟩ := sunk.group_key isFinished
      rw [of_decide_eq_true isKey] at isOwn
      rw [members rollout isMember, ← Option.some.inj isOwn]
    exact different ((keyOf inBatch).symm.trans (keyOf inOther))

/-- When everything has arrived, each fired key has left once and the sink is empty. -/
theorem Running.drained (running : Running envs world) (drained : world.Drained)
    (valid : ∀ entry ∈ envs.entries, entry.2.examples ≠ [] ∧ 0 < entry.2.groupSize) :
    world.fired.Perm (world.returned.map EvalBatch.key) ∧
      world.sink.pendingGroups.entries = [] ∧ world.sink.pendingBatches.entries = [] := by
  obtain ⟨finished, sunk⟩ := running.sunk
  have settled (key : EpochKey) : ¬world.Outstanding key := by
    rintro (⟨row, queued, -⟩ | ⟨groupId, group, isGroup, -, waits | ⟨number, flies⟩⟩)
    · rw [drained.queue] at queued
      cases queued
    · have none := drained.groups group (List.mem_of_getElem? isGroup)
      omega
    · rw [drained.inflight] at flies
      cases flies
  have arrivedFired {rollout : Rollout} (arrived : rollout ∈ world.arrived) :
      rollout.key ∈ world.fired := by
    obtain ⟨group, isGroup, isKey⟩ := running.opened.stamped rollout arrived
    rw [isKey]
    exact running.opened.row_fired
      (List.mem_append_left _ (List.mem_map_of_mem (List.mem_of_getElem? isGroup)))
  refine ⟨?_, ?_, ?_⟩
  · rw [List.perm_ext_iff_of_nodup running.opened.fired_once sunk.once]
    intro key
    constructor
    · intro fired
      exact (running.returned_iff valid fired).mpr (settled key)
    · intro left
      obtain ⟨batch, listed, rfl⟩ := List.mem_map.mp left
      exact (running.complete_epoch listed valid).fired
  · rw [List.eq_nil_iff_forall_not_mem]
    rintro ⟨groupId, items⟩ stored
    obtain ⟨isItems, some, fewer⟩ := sunk.gathered.open_items groupId items stored
    obtain ⟨rollout, member⟩ := List.exists_mem_of_length_pos some
    obtain ⟨arrived, isGroupId⟩ := mem_items_by_group.mp (isItems ▸ member)
    obtain ⟨group, isGroup, -⟩ := running.opened.stamped rollout arrived
    rw [isGroupId] at isGroup
    have full := (running.group_full isGroup).mpr
      ⟨drained.groups group (List.mem_of_getElem? isGroup), fun number flies => by
        rw [drained.inflight] at flies
        cases flies⟩
    rw [targetOf, isGroup, isItems] at fewer
    exact absurd full (Nat.ne_of_lt fewer)
  · rw [List.eq_nil_iff_forall_not_mem]
    rintro ⟨key, items⟩ stored
    have isStored : (world.sink.pendingBatches.get? key).isSome := by
      rw [(OrderedDict.get?_eq_some_iff _ key items).mpr stored]
      rfl
    obtain ⟨⟨rollout, arrived, rfl⟩, fewer⟩ := sunk.stored key isStored
    have left := (running.returned_iff valid (arrivedFired arrived)).mpr (settled _)
    obtain ⟨batch, listed, sameKey⟩ := List.mem_map.mp left
    obtain ⟨-, env, found, full⟩ := sunk.whole batch listed
    rw [sameKey] at full
    have ofKey : envs.get? rollout.key.1 = some env := by
      rw [← sameKey]
      exact found
    exact absurd full (Nat.ne_of_lt (fewer env ofKey))

/-! ## Progress -/

/-- The work left: pulls, dispatches and arrivals. -/
def World.remaining (envs : EvalEnvs Task) (world : World Task) : Nat :=
  (world.source.queue.map (fun row => 2 * ((envs.get? row.envName).elim 0 EvalEnv.groupSize) + 1)).sum +
    (world.groups.map (fun group => 2 * group.rolloutsToSchedule)).sum + world.inflight.length

/-- A pull, a dispatch or an arrival. -/
def Event.IsWork : Event → Prop
  | .trigger _ => False
  | .pull _ | .schedule _ | .arrive _ _ => True

/-- While something is left, some work is accepted, and less is left after it. -/
theorem Running.progress (running : Running envs world) (skipFirstStep : Bool)
    (busy : ¬world.Drained) :
    ∃ event next, event.IsWork ∧ world.step envs skipFirstStep event = some next ∧
      next.remaining envs < world.remaining envs := by
  cases isQueue : world.source.queue with
  | cons row rest =>
    have inRows : row ∈ world.rows := List.mem_append_right _ (isQueue ▸ List.mem_cons_self)
    obtain ⟨env, found, -⟩ := running.opened.fired_rows (running.opened.row_fired inRows)
    have found : envs.get? row.envName = some env := found
    refine ⟨.pull env.cost, { world with
      source := { world.source with queue := rest }
      groups := world.groups ++ [⟨row.envName, row.task, env.groupSize, env.groupSize, row.evalStep⟩] },
      trivial, ?_, ?_⟩
    · rw [World.step, World.pull, next_fresh_group_fits isQueue found (Int.le_refl _)]
    · simp only [World.remaining, isQueue, found, List.map_cons, List.map_append, List.sum_append,
        List.sum_cons, List.map_nil, List.sum_nil, Option.elim_some]
      omega
  | nil =>
    by_cases scheduled : ∀ group ∈ world.groups, group.rolloutsToSchedule = 0
    · have flies : world.inflight ≠ [] := fun none => busy ⟨isQueue, scheduled, none⟩
      obtain ⟨⟨groupId, number⟩, listed⟩ := List.exists_mem_of_ne_nil _ flies
      obtain ⟨next, arrives, -, inflight, groups, source⟩ := running.arrives listed
      refine ⟨.arrive groupId number, next, trivial, arrives, ?_⟩
      have fewer := List.length_erase_of_mem listed
      have positive := List.length_pos_of_mem listed
      rw [World.remaining, World.remaining, inflight, groups, source, fewer]
      omega
    · obtain ⟨group, waits⟩ := not_forall.mp scheduled
      obtain ⟨listed, waits⟩ := Classical.not_imp.mp waits
      obtain ⟨groupId, isGroup⟩ := List.mem_iff_getElem?.mp listed
      obtain ⟨env, found, target, bounded⟩ := running.opened.sized group listed
      have permits : 0 < group.permits env ∧ group.permits env ≤ group.rolloutsToSchedule := by
        rw [GroupState.permits]
        split <;> omega
      refine ⟨.schedule groupId, { world with
        groups := world.groups.set groupId { group with
          rolloutsToSchedule := group.rolloutsToSchedule - group.permits env }
        inflight := world.inflight ++ (List.range (group.permits env)).map
          (fun number => (groupId, group.dispatched + number)) }, trivial, ?_, ?_⟩
      · rw [World.step, World.schedule, isGroup]
        dsimp only
        rw [found]
        dsimp only
        rw [if_neg waits]
      · obtain ⟨inside, value⟩ := List.getElem?_eq_some_iff.mp isGroup
        obtain ⟨before, after, split, isLength⟩ : ∃ before after,
            world.groups = before ++ group :: after ∧ before.length = groupId := by
          refine ⟨world.groups.take groupId, world.groups.drop (groupId + 1), ?_, ?_⟩
          · rw [← value, ← List.drop_eq_getElem_cons inside, List.take_append_drop]
          · rw [List.length_take]
            omega
        simp only [World.remaining, split, ← isLength, List.set_append_right _ _ (le_refl _),
          Nat.sub_self, List.set_cons_zero, List.map_append, List.map_cons, List.sum_append,
          List.sum_cons, List.length_append, List.length_map, List.length_range]
        omega

/-- From every state some work leads to a drained one. -/
theorem Running.drains (running : Running envs world) (skipFirstStep : Bool) :
    ∃ work final, (∀ event ∈ work, Event.IsWork event) ∧
      Machine.run (World.step envs skipFirstStep) world work = some final ∧ final.Drained := by
  -- The induction is on the work left.
  induction isRemaining : world.remaining envs using Nat.strong_induction_on generalizing world with
  | _ remaining inductionHypothesis =>
    by_cases done : world.Drained
    · exact ⟨[], world, fun _ impossible => absurd impossible List.not_mem_nil, rfl, done⟩
    · obtain ⟨event, next, isWork, stepped, less⟩ := running.progress skipFirstStep done
      obtain ⟨work, final, allWork, ran, drained⟩ :=
        inductionHypothesis _ (isRemaining ▸ less) (running.step stepped) rfl
      refine ⟨event :: work, final, ?_, ?_, drained⟩
      · intro other listed
        rcases List.mem_cons.mp listed with rfl | later
        · exact isWork
        · exact allWork other later
      · exact (Machine.run_cons_iff _ _ _ _ _).mpr ⟨next, stepped, ran⟩

end Running

/-! ## Epochs -/

/-- In every run each batch is complete, no two are of one environment and step and
no rollout is in two. A fired key has left exactly when nothing of it is
outstanding. When everything has arrived the fired keys are those that left and the
sink is empty, and some work always leads there. Groups are opened for the rows of
the triggers in order, in which environments alternate. -/
theorem eval_epochs_complete_once (envs : EvalEnvs Task)
    (valid : ∀ entry ∈ envs.entries, entry.2.examples ≠ [] ∧ 0 < entry.2.groupSize)
    (skipFirstStep isResumed : Bool) (events : List Event) (world : World Task)
    (ran : Machine.run (World.step envs skipFirstStep) (World.init isResumed) events = some world) :
    (∀ batch ∈ world.returned, CompleteEpoch envs world batch) ∧
      (world.returned.map EvalBatch.key).Nodup ∧
      (world.returned.flatMap EvalBatch.rollouts).Nodup ∧
      (∀ key ∈ world.fired,
        key ∈ world.returned.map EvalBatch.key ↔ ¬world.Outstanding key) ∧
      (world.Drained → world.fired.Perm (world.returned.map EvalBatch.key) ∧
        world.sink.pendingGroups.entries = [] ∧ world.sink.pendingBatches.entries = []) ∧
      (∃ work final, (∀ event ∈ work, Event.IsWork event) ∧
        Machine.run (World.step envs skipFirstStep) world work = some final ∧ final.Drained) ∧
      world.groups.map GroupState.row ++ world.source.queue = world.triggers.flatMap visits ∧
      ∀ trigger ∈ world.triggers,
        RoundRobin.Alternates (trigger.2.map (rowsAt trigger.1)) (visits trigger) ∧
        ∀ entry ∈ trigger.2, (visits trigger).filter
          (fun row => decide (row.key = (entry.1, trigger.1))) = rowsAt trigger.1 entry := by
  have running := running_reached ran
  refine ⟨fun batch left => running.complete_epoch left valid, ?_, running.rollouts_distinct,
    fun key fired => running.returned_iff valid fired, fun drained => running.drained drained valid,
    running.drains skipFirstStep, running.opened.visited, ?_⟩
  · obtain ⟨finished, sunk⟩ := running.sunk
    exact sunk.once
  · intro trigger triggered
    exact ⟨RoundRobin.alternates_visit _,
      fun entry fired => visit_rows trigger.1 (running.opened.distinct trigger triggered) fired⟩

/-- Two environments, of two examples and of one. -/
def twoEnvs : EvalEnvs Nat where
  entries := [("math", ⟨[0, 1], 2, 2, false⟩), ("code", ⟨[0], 1, 1, true⟩)]
  distinct := by decide

/-- Two steps are triggered, the second of one environment only, and their rollouts arrive
out of order. -/
def allArrivals : List Event :=
  [.trigger 1, .pull 4, .pull 4, .schedule 0, .schedule 1, .trigger 3, .pull 4, .pull 4, .schedule 2,
    .schedule 0, .schedule 3, .schedule 2, .arrive 3 0, .arrive 0 1, .arrive 2 0, .arrive 1 0,
    .arrive 2 1, .arrive 0 0]

/-- The later epoch of one environment leaves first, and the run ends with nothing left. -/
theorem eval_epochs_two_envs : ∃ world,
    Machine.run (World.step twoEnvs false) (World.init false) allArrivals = some world ∧
      world.returned = [⟨"code", 3, [⟨"code", 3, 3, 0⟩]⟩, ⟨"code", 1, [⟨"code", 1, 1, 0⟩]⟩,
        ⟨"math", 1, [⟨"math", 1, 2, 0⟩, ⟨"math", 1, 2, 1⟩, ⟨"math", 1, 0, 1⟩, ⟨"math", 1, 0, 0⟩]⟩] ∧
      (∀ batch ∈ world.returned, CompleteEpoch twoEnvs world batch) ∧ world.Drained ∧
      world.fired.Perm (world.returned.map EvalBatch.key) ∧
      world.sink.pendingGroups.entries = [] ∧ world.sink.pendingBatches.entries = [] := by
  obtain ⟨world, ran, seen⟩ := Option.map_eq_some_iff.mp
    (show (Machine.run (World.step twoEnvs false) (World.init false) allArrivals).map
      (fun world => (world.returned, world.source.queue.isEmpty,
        world.groups.all (fun group => group.rolloutsToSchedule = 0), world.inflight)) =
        some ([⟨"code", 3, [⟨"code", 3, 3, 0⟩]⟩, ⟨"code", 1, [⟨"code", 1, 1, 0⟩]⟩,
          ⟨"math", 1, [⟨"math", 1, 2, 0⟩, ⟨"math", 1, 2, 1⟩, ⟨"math", 1, 0, 1⟩,
            ⟨"math", 1, 0, 0⟩]⟩], true, true, []) by decide +kernel)
  simp only [Prod.mk.injEq] at seen
  obtain ⟨isReturned, queue, groups, inflight⟩ := seen
  obtain ⟨complete, -, -, -, settled, -⟩ :=
    eval_epochs_complete_once twoEnvs (by decide) false false allArrivals world ran
  have drained : world.Drained :=
    ⟨List.isEmpty_iff.mp queue, by simpa using groups, inflight⟩
  exact ⟨world, ran, isReturned, complete, drained, settled drained⟩

end PrimeRl.Orchestrator.Eval
