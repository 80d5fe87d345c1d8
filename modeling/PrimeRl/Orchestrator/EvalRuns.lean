import PrimeRl.Orchestrator.EvalCounts
import PrimeRl.Support.Machine

/-!
# Evaluation epochs

Triggers, pulls under any number of free permits, dispatches and arrivals follow
each other in any order. Every dispatched rollout arrives once. The source and the
sink know nothing of each other: what connects them is that a key has as many
groups as its environment has examples.
-/

namespace PrimeRl.Orchestrator.Eval

variable {Task : Type}

/-- `triggers` lists the steps triggered so far with the environments they fired,
`groups` every group opened so far, by its identifier. -/
structure World (Task : Type) where
  source : EvalSource Task
  triggers : List (Int × List (String × EvalEnv Task))
  groups : List (GroupState Task)
  inflight : List (Nat × Nat)
  arrived : List Rollout
  sink : EvalSink
  returned : List EvalBatch

inductive Event where
  | trigger (step : Int)
  | pull (availablePermits : Int)
  | schedule (groupId : Nat)
  | arrive (groupId number : Nat)
deriving DecidableEq, Repr

def World.init (isResumed : Bool) : World Task where
  source := .init isResumed
  triggers := []
  groups := []
  inflight := []
  arrived := []
  sink := .init
  returned := []

section Steps
variable (envs : EvalEnvs Task)

/-- No step is triggered twice. -/
def World.trigger (skipFirstStep : Bool) (world : World Task) (step : Int) : Option (World Task) :=
  if step ∈ world.triggers.map Prod.fst then none
  else
    some { world with
      source := (world.source.trigger envs skipFirstStep step).1
      triggers := world.triggers ++ [(step, world.source.due envs skipFirstStep step)] }

def World.pull (world : World Task) (availablePermits : Int) : Option (World Task) :=
  match nextFreshGroup envs world.source availablePermits with
  | .error _ => none
  | .ok (none, source) => some { world with source := source }
  | .ok (some group, source) => some { world with source := source, groups := world.groups ++ [group] }

/-- The permits that one dispatch of a group takes. -/
def GroupState.permits (group : GroupState Task) (env : EvalEnv Task) : Nat :=
  if env.requiresGroupScoring then group.rolloutsToSchedule else 1

def GroupState.dispatched (group : GroupState Task) : Nat :=
  group.targetRollouts - group.rolloutsToSchedule

def World.schedule (world : World Task) (groupId : Nat) : Option (World Task) :=
  match world.groups[groupId]? with
  | none => none
  | some group =>
      match envs.get? group.envName with
      | none => none
      | some env =>
          if group.rolloutsToSchedule = 0 then none
          else
            some { world with
              groups := world.groups.set groupId { group with
                rolloutsToSchedule := group.rolloutsToSchedule - group.permits env }
              inflight := world.inflight ++ (List.range (group.permits env)).map
                (fun number => (groupId, group.dispatched + number)) }

def World.arrive (world : World Task) (groupId number : Nat) : Option (World Task) :=
  if (groupId, number) ∈ world.inflight then
    match world.groups[groupId]? with
    | none => none
    | some group =>
        let rollout := ⟨group.envName, group.evalStep, groupId, number⟩
        match world.sink.add envs rollout with
        | .error _ => none
        | .ok (batch?, sink) =>
            some { world with
              inflight := world.inflight.erase (groupId, number)
              arrived := world.arrived ++ [rollout]
              sink := sink
              returned := world.returned ++ batch?.toList }
  else none

def World.step (skipFirstStep : Bool) (world : World Task) : Event → Option (World Task)
  | .trigger step => world.trigger envs skipFirstStep step
  | .pull availablePermits => world.pull envs availablePermits
  | .schedule groupId => world.schedule envs groupId
  | .arrive groupId number => world.arrive envs groupId number

end Steps

/-- The environments and steps fired so far. -/
def World.fired (world : World Task) : List EpochKey :=
  world.triggers.flatMap (fun trigger => trigger.2.map (fun entry => (entry.1, trigger.1)))

/-- The rows that a trigger queues. -/
def visits (trigger : Int × List (String × EvalEnv Task)) : List (Row Task) :=
  RoundRobin.visit (trigger.2.map (rowsAt trigger.1))

/-- Rows of opened groups, then rows that wait. -/
def World.rows (world : World Task) : List (Row Task) :=
  world.groups.map GroupState.row ++ world.source.queue

def place (rollout : Rollout) : Nat × Nat := (rollout.groupId, rollout.number)

/-- The rollouts that a group has dispatched. -/
def tasksOf (groups : List (GroupState Task)) (groupId : Nat) : List (Nat × Nat) :=
  match groups[groupId]? with
  | none => []
  | some group => (List.range group.dispatched).map (fun number => (groupId, number))

/-- The groups of an environment and a step. -/
def World.groupsWith (world : World Task) (key : EpochKey) : List Nat :=
  (List.range world.groups.length).filter
    (fun groupId => decide (world.groups[groupId]?.map (fun group => group.row.key) = some key))

def targetOf (groups : List (GroupState Task)) (groupId : Nat) : Nat :=
  match groups[groupId]? with
  | none => 0
  | some group => group.targetRollouts

/-! ## What holds in every state -/

/-- The rows of the opened groups and of the queue are those of the triggers, in
order, and every rollout a group has dispatched is in flight or has arrived. -/
structure Opened (envs : EvalEnvs Task) (world : World Task) : Prop where
  known : ∀ trigger ∈ world.triggers, ∀ entry ∈ trigger.2, envs.get? entry.1 = some entry.2
  distinct : ∀ trigger ∈ world.triggers, (trigger.2.map Prod.fst).Nodup
  once : (world.triggers.map Prod.fst).Nodup
  visited : world.rows = world.triggers.flatMap visits
  sized : ∀ group ∈ world.groups, ∃ env, envs.get? group.envName = some env ∧
    group.targetRollouts = env.groupSize ∧ group.rolloutsToSchedule ≤ group.targetRollouts
  tasks : ∀ groupId, ((world.inflight ++ world.arrived.map place).filter
    (fun task => decide (task.1 = groupId))).Perm (tasksOf world.groups groupId)
  stamped : ∀ rollout ∈ world.arrived, ∃ group, world.groups[rollout.groupId]? = some group ∧
    rollout.key = group.row.key

theorem opened_init (envs : EvalEnvs Task) (isResumed : Bool) :
    Opened envs (World.init isResumed : World Task) where
  known := fun _ impossible => absurd impossible List.not_mem_nil
  distinct := fun _ impossible => absurd impossible List.not_mem_nil
  once := List.nodup_nil
  visited := rfl
  sized := fun _ impossible => absurd impossible List.not_mem_nil
  tasks := fun _ => List.Perm.refl _
  stamped := fun _ impossible => absurd impossible List.not_mem_nil

section Opened
variable {envs : EvalEnvs Task} {world next : World Task}

theorem Opened.mem_rows (opened : Opened envs world) {row : Row Task} (listed : row ∈ world.rows) :
    ∃ trigger ∈ world.triggers, ∃ entry ∈ trigger.2, row ∈ rowsAt trigger.1 entry := by
  rw [opened.visited] at listed
  obtain ⟨trigger, isTrigger, inVisits⟩ := List.mem_flatMap.mp listed
  obtain ⟨entry, isEntry, isRow⟩ := mem_visit trigger.1 inVisits
  exact ⟨trigger, isTrigger, entry, isEntry, isRow⟩

/-- The rows of a fired environment are its examples in order. -/
theorem Opened.rows_of (opened : Opened envs world) {trigger : Int × List (String × EvalEnv Task)}
    (triggered : trigger ∈ world.triggers) {entry : String × EvalEnv Task} (fired : entry ∈ trigger.2) :
    world.rows.filter (fun row => decide (row.key = (entry.1, trigger.1))) = rowsAt trigger.1 entry := by
  obtain ⟨before, after, split⟩ := List.append_of_mem triggered
  have others (rest : List (Int × List (String × EvalEnv Task)))
      (different : ∀ other ∈ rest, other.1 ≠ trigger.1) :
      (rest.flatMap visits).filter (fun row => decide (row.key = (entry.1, trigger.1))) = [] := by
    rw [List.filter_eq_nil_iff]
    intro row listed isKey
    obtain ⟨other, isOther, inVisits⟩ := List.mem_flatMap.mp listed
    obtain ⟨another, -, isRow⟩ := mem_visit other.1 inVisits
    have same := (rows_key other.1 isRow).symm.trans (of_decide_eq_true isKey)
    exact different other isOther (Prod.mk.inj same).2
  have once := opened.once
  rw [split, List.map_append, List.map_cons, List.nodup_middle, ← List.map_append] at once
  have fresh := (List.nodup_cons.mp once).1
  have different (other : Int × List (String × EvalEnv Task)) (listed : other ∈ before ++ after) :
      other.1 ≠ trigger.1 := fun same => fresh (same ▸ List.mem_map_of_mem listed)
  rw [opened.visited, split, List.flatMap_append, List.flatMap_cons, List.filter_append,
    List.filter_append, others before (fun other listed => different other (List.mem_append_left _ listed)),
    others after (fun other listed => different other (List.mem_append_right _ listed)),
    List.nil_append, List.append_nil]
  exact visit_rows trigger.1 (opened.distinct trigger triggered) fired

end Opened

/-- The items at the positions of a value are the items of this value. -/
theorem positions_filter {Item Value : Type} [DecidableEq Value] (value : Item → Value) (wanted : Value)
    (items : List Item) :
    ((List.range items.length).filter
        (fun position => decide (items[position]?.map value = some wanted))).map
      (fun position => items[position]?) =
    (items.filter (fun item => decide (value item = wanted))).map some := by
  induction items using List.reverseRecOn with
  | nil => rfl
  | append_singleton items item inductionHypothesis =>
    have inside {position : Nat} (listed : position ∈ List.range items.length) :
        (items ++ [item])[position]? = items[position]? :=
      List.getElem?_append_left (List.mem_range.mp listed)
    have sameTest := List.filter_congr (fun position (listed : position ∈ List.range items.length) =>
      congrArg (fun found : Option Item => decide (found.map value = some wanted)) (inside listed))
    have sameItems := List.map_congr_left (fun position
      (listed : position ∈ (List.range items.length).filter
        (fun position => decide (items[position]?.map value = some wanted))) =>
      inside (List.mem_filter.mp listed).1)
    rw [List.length_append, List.length_singleton, List.range_succ, List.filter_append, List.map_append,
      List.filter_append, List.map_append, sameTest, sameItems, inductionHypothesis]
    congr 1
    rw [List.filter_singleton, List.filter_singleton, List.getElem?_concat_length, Option.map_some]
    by_cases same : value item = wanted
    · simp [same]
    · simp [same]

section Groups
variable {envs : EvalEnvs Task} {world : World Task}

theorem mem_groupsWith (world : World Task) (key : EpochKey) (groupId : Nat) :
    groupId ∈ world.groupsWith key ↔
      ∃ group, world.groups[groupId]? = some group ∧ group.row.key = key := by
  rw [World.groupsWith, List.mem_filter, List.mem_range, decide_eq_true_eq, Option.map_eq_some_iff]
  constructor
  · exact fun both => both.2
  · rintro ⟨group, found, isKey⟩
    exact ⟨(List.getElem?_eq_some_iff.mp found).1, group, found, isKey⟩

/-- The rows of an environment and a step are those of its groups, then those that
wait. -/
theorem rows_of_groups (world : World Task) (key : EpochKey) :
    (world.rows.filter (fun row => decide (row.key = key))).map some =
      (world.groupsWith key).map (fun groupId => world.groups[groupId]?.map GroupState.row) ++
        (world.source.queue.filter (fun row => decide (row.key = key))).map some := by
  have groups := positions_filter (fun group : GroupState Task => group.row.key) key world.groups
  have isRows := congrArg (List.map (Option.map GroupState.row)) groups
  rw [List.map_map, List.map_map] at isRows
  rw [World.rows, List.filter_append, List.map_append, List.filter_map, List.map_map]
  congr 1
  exact isRows.symm

/-- A fired environment has no more groups than examples. -/
theorem Opened.groups_le (opened : Opened envs world) {key : EpochKey} {env : EvalEnv Task}
    (found : envs.get? key.1 = some env) {groupId : Nat} (listed : groupId ∈ world.groupsWith key) :
    (world.groupsWith key).length ≤ env.examples.length := by
  obtain ⟨group, isGroup, isKey⟩ := (mem_groupsWith world key groupId).mp listed
  have isRow : group.row ∈ world.rows :=
    List.mem_append_left _ (List.mem_map_of_mem (List.mem_of_getElem? isGroup))
  obtain ⟨trigger, triggered, entry, fired, ofEntry⟩ := opened.mem_rows isRow
  have sameKey : (entry.1, trigger.1) = key := (rows_key trigger.1 ofEntry).symm.trans isKey
  have sameEnv : env = entry.2 := by
    have entryFound := opened.known trigger triggered entry fired
    rw [← sameKey] at found
    exact Option.some.inj (found.symm.trans entryFound)
  have rows := opened.rows_of triggered fired
  rw [sameKey] at rows
  have lengths := congrArg List.length (rows_of_groups world key)
  rw [rows, List.length_map, List.length_append, List.length_map, rowsAt, List.length_map] at lengths
  rw [sameEnv]
  omega

end Groups

/-! ## Steps -/

/-- The groups are opened for the rows, and the sink counts what has arrived. -/
structure Running (envs : EvalEnvs Task) (world : World Task) : Prop where
  opened : Opened envs world
  sunk : ∃ finished, Sunk envs (targetOf world.groups) world.arrived world.sink world.returned finished

section Running
variable {envs : EvalEnvs Task} {world next : World Task}

/-- Sizes matter only for groups with an arrival. -/
theorem Running.resize (running : Running envs world) {groups : List (GroupState Task)}
    (same : ∀ groupId group, world.groups[groupId]? = some group →
      targetOf groups groupId = targetOf world.groups groupId) :
    ∃ finished, Sunk envs (targetOf groups) world.arrived world.sink world.returned finished := by
  obtain ⟨finished, sunk⟩ := running.sunk
  have sameSize (rollout : Rollout) (arrived : rollout ∈ world.arrived) :
      targetOf groups rollout.groupId = targetOf world.groups rollout.groupId := by
    obtain ⟨group, found, -⟩ := running.opened.stamped rollout arrived
    exact same rollout.groupId group found
  refine ⟨finished, ?_, ?_, sunk.alike, sunk.batched, sunk.stored, sunk.filled, sunk.whole, sunk.once,
    sunk.complete⟩
  · apply sunk.gathered.resize
    · intro groupId some
      obtain ⟨rollout, listed⟩ := List.exists_mem_of_ne_nil _ some
      obtain ⟨arrived, rfl⟩ := mem_items_by_group.mp listed
      exact sameSize rollout arrived
    · intro groupId isFinished
      obtain ⟨group, listed, rfl⟩ := List.mem_map.mp isFinished
      rw [← (sunk.gathered.all_items group.1 group.2 listed).2]
      exact List.length_pos_iff.mpr (sunk.filled group listed)
  · intro rollout arrived
    rw [sameSize rollout arrived]
    exact sunk.sized rollout arrived

theorem Running.trigger (running : Running envs world) {skipFirstStep : Bool} {step : Int}
    (triggered : world.trigger envs skipFirstStep step = some next) : Running envs next := by
  have opened := running.opened
  rw [World.trigger] at triggered
  split at triggered
  · cases triggered
  · rename_i fresh
    obtain rfl := Option.some.inj triggered
    refine ⟨⟨?_, ?_, ?_, ?_, opened.sized, opened.tasks, opened.stamped⟩, running.sunk⟩
    · intro other listed
      rcases List.mem_append.mp listed with before | last
      · exact opened.known other before
      · rw [List.mem_singleton.mp last]
        exact fun entry fired => due_found skipFirstStep world.source step fired
    · intro other listed
      rcases List.mem_append.mp listed with before | last
      · exact opened.distinct other before
      · rw [List.mem_singleton.mp last]
        exact due_distinct skipFirstStep world.source step
    · change ((world.triggers ++ [_]).map Prod.fst).Nodup
      rw [List.map_append, List.nodup_append]
      refine ⟨opened.once, List.nodup_singleton _, ?_⟩
      intro other member last isLast same
      have isStep : last = step := List.mem_singleton.mp isLast
      exact fresh (isStep ▸ same ▸ member)
    · change world.groups.map GroupState.row ++ (world.source.queue ++ visits (step, _)) =
        (world.triggers ++ [_]).flatMap visits
      rw [← List.append_assoc, List.flatMap_append, List.flatMap_singleton, ← opened.visited]
      rfl

/-- A pull opens the group of the row at the head of the queue. -/
theorem Running.pull (running : Running envs world) {availablePermits : Int}
    (pulled : world.pull envs availablePermits = some next) : Running envs next := by
  have opened := running.opened
  rw [World.pull] at pulled
  cases isPulled : nextFreshGroup envs world.source availablePermits with
  | error message =>
    rw [isPulled] at pulled
    cases pulled
  | ok result =>
    obtain ⟨group?, source⟩ := result
    rw [isPulled] at pulled
    rcases next_fresh_group_cases isPulled with ⟨rfl, rfl⟩ | ⟨row, rest, env, isQueue, found, rfl, rfl⟩
    · obtain rfl := Option.some.inj pulled
      exact running
    · obtain rfl := Option.some.inj pulled
      have last : (world.groups ++
          [GroupState.mk row.envName row.task env.groupSize env.groupSize row.evalStep])[
          world.groups.length]? = some ⟨row.envName, row.task, env.groupSize, env.groupSize,
            row.evalStep⟩ := List.getElem?_concat_length
      have kept {groupId : Nat} {group : GroupState Task} (isGroup : world.groups[groupId]? = some group) :
          (world.groups ++
            [GroupState.mk row.envName row.task env.groupSize env.groupSize row.evalStep])[groupId]? =
            some group := by
        rw [List.getElem?_append_left (List.getElem?_eq_some_iff.mp isGroup).1]
        exact isGroup
      refine ⟨⟨opened.known, opened.distinct, opened.once, ?_, ?_, ?_, ?_⟩, ?_⟩
      · refine Eq.trans ?_ opened.visited
        change (world.groups ++ [_]).map GroupState.row ++ rest = _
        rw [World.rows, isQueue, List.map_append, List.append_assoc]
        rfl
      · intro group listed
        rcases List.mem_append.mp listed with before | isLast
        · exact opened.sized group before
        · rw [List.mem_singleton.mp isLast]
          exact ⟨env, found, rfl, le_refl _⟩
      · intro groupId
        have sameTasks : tasksOf (world.groups ++
            [GroupState.mk row.envName row.task env.groupSize env.groupSize row.evalStep]) groupId =
            tasksOf world.groups groupId := by
          by_cases old : groupId < world.groups.length
          · rw [tasksOf, List.getElem?_append_left old]
            rfl
          · have none : world.groups[groupId]? = none := List.getElem?_eq_none (Nat.not_lt.mp old)
            rw [tasksOf, tasksOf, none]
            by_cases isLast : groupId = world.groups.length
            · rw [isLast, last]
              simp [GroupState.dispatched]
            · rw [List.getElem?_eq_none (by rw [List.length_append, List.length_singleton]; omega)]
        rw [sameTasks]
        exact opened.tasks groupId
      · intro rollout arrived
        obtain ⟨group, isGroup, isKey⟩ := opened.stamped rollout arrived
        exact ⟨group, kept isGroup, isKey⟩
      · apply running.resize
        intro groupId group isGroup
        rw [targetOf, targetOf, kept isGroup, isGroup]

/-- A dispatch puts the next rollouts of its group in flight. -/
theorem Running.schedule (running : Running envs world) {groupId : Nat}
    (scheduled : world.schedule envs groupId = some next) : Running envs next := by
  have opened := running.opened
  rw [World.schedule] at scheduled
  split at scheduled
  · cases scheduled
  · rename_i group isGroup
    split at scheduled
    · cases scheduled
    · rename_i env found
      split at scheduled
      · cases scheduled
      · rename_i remaining
        obtain rfl := Option.some.inj scheduled
        obtain ⟨-, -, -, bounded⟩ := opened.sized group (List.mem_of_getElem? isGroup)
        have permits : group.permits env ≤ group.rolloutsToSchedule := by
          rw [GroupState.permits]
          split <;> omega
        have inside := (List.getElem?_eq_some_iff.mp isGroup).1
        obtain ⟨changed, isChanged⟩ : ∃ changed, changed = { group with
            rolloutsToSchedule := group.rolloutsToSchedule - group.permits env } := ⟨_, rfl⟩
        have sameRows : (world.groups.set groupId changed).map GroupState.row =
            world.groups.map GroupState.row := by
          have sameRow : changed.row = group.row := by rw [isChanged]; rfl
          rw [List.map_set, sameRow]
          apply List.ext_getElem?
          intro position
          by_cases same : groupId = position
          · rw [← same, List.getElem?_set_self (by rw [List.length_map]; exact inside),
              List.getElem?_map, isGroup]
            rfl
          · rw [List.getElem?_set_ne same]
        have more : changed.dispatched = group.dispatched + group.permits env := by
          rw [isChanged, GroupState.dispatched, GroupState.dispatched]
          dsimp only
          omega
        rw [← isChanged]
        refine ⟨⟨opened.known, opened.distinct, opened.once, ?_, ?_, ?_, ?_⟩, ?_⟩
        · refine Eq.trans ?_ opened.visited
          change (world.groups.set groupId changed).map GroupState.row ++ _ = _
          rw [sameRows]
          rfl
        · intro other listed
          rcases List.mem_or_eq_of_mem_set listed with before | rfl
          · exact opened.sized other before
          · obtain ⟨env, ofEnv, target, -⟩ := opened.sized group (List.mem_of_getElem? isGroup)
            rw [isChanged]
            exact ⟨env, ofEnv, target, (Nat.sub_le _ _).trans bounded⟩
        · intro other
          change ((world.inflight ++ (List.range (group.permits env)).map
            (fun number => (groupId, group.dispatched + number)) ++
              world.arrived.map place).filter _).Perm (tasksOf (world.groups.set groupId changed) other)
          have before := opened.tasks other
          rw [List.filter_append] at before
          by_cases same : other = groupId
          · have news : ((List.range (group.permits env)).map
                (fun number => (groupId, group.dispatched + number))).filter
                (fun task => decide (task.1 = other)) =
                (List.range (group.permits env)).map
                  (fun number => (groupId, group.dispatched + number)) := by
              rw [List.filter_eq_self]
              intro task listed
              obtain ⟨number, -, rfl⟩ := List.mem_map.mp listed
              exact decide_eq_true same.symm
            have isTasks : tasksOf (world.groups.set groupId changed) other =
                tasksOf world.groups other ++ (List.range (group.permits env)).map
                  (fun number => (groupId, group.dispatched + number)) := by
              rw [same, tasksOf, tasksOf, List.getElem?_set_self inside, isGroup]
              dsimp only
              rw [more, List.range_add, List.map_append, List.map_map]
              rfl
            rw [List.filter_append, List.filter_append, news, isTasks, List.append_assoc]
            refine ((List.perm_append_comm).append_left _).trans ?_
            rw [← List.append_assoc]
            exact before.append_right _
          · have news : ((List.range (group.permits env)).map
                (fun number => (groupId, group.dispatched + number))).filter
                (fun task => decide (task.1 = other)) = [] := by
              rw [List.filter_eq_nil_iff]
              intro task listed
              obtain ⟨number, -, rfl⟩ := List.mem_map.mp listed
              simpa using Ne.symm same
            rw [List.filter_append, List.filter_append, news, List.append_nil, tasksOf,
              List.getElem?_set_ne (Ne.symm same)]
            exact before
        · intro rollout arrived
          obtain ⟨other, isOther, isKey⟩ := opened.stamped rollout arrived
          by_cases same : groupId = rollout.groupId
          · rw [← same, isGroup] at isOther
            obtain rfl := Option.some.inj isOther
            refine ⟨changed, ?_, ?_⟩
            · rw [← same]
              exact List.getElem?_set_self inside
            · rw [isKey, isChanged]
              rfl
          · refine ⟨other, ?_, isKey⟩
            exact (List.getElem?_set_ne same).trans isOther
        · apply running.resize
          intro other otherGroup isOther
          by_cases same : groupId = other
          · rw [← same, targetOf, targetOf, List.getElem?_set_self inside, isGroup, isChanged]
          · rw [targetOf, targetOf, List.getElem?_set_ne same]

theorem items_length (arrived : List Rollout) (groupId : Nat) :
    (Gather.itemsOf (byGroup arrived) groupId).length =
      ((arrived.map place).filter (fun task => decide (task.1 = groupId))).length := by
  rw [Gather.itemsOf, byGroup, List.filter_map, List.filter_map, List.length_map, List.length_map,
    List.length_map]
  rfl

/-- A rollout in flight is one that its group has dispatched, and there is room for
it in the group. -/
theorem Opened.in_flight (opened : Opened envs world) {groupId number : Nat}
    (flies : (groupId, number) ∈ world.inflight) :
    ∃ group, world.groups[groupId]? = some group ∧ number < group.dispatched ∧
      (Gather.itemsOf (byGroup world.arrived) groupId).length + 1 ≤ group.dispatched := by
  have tasks := opened.tasks groupId
  have listed : (groupId, number) ∈ world.inflight.filter (fun task => decide (task.1 = groupId)) :=
    List.mem_filter.mpr ⟨flies, decide_eq_true rfl⟩
  rw [List.filter_append] at tasks
  have isTask := tasks.subset (List.mem_append_left _ listed)
  have lengths := tasks.length_eq
  rw [List.length_append, ← items_length] at lengths
  have one := List.length_pos_of_mem listed
  rw [tasksOf] at isTask lengths
  cases found : world.groups[groupId]? with
  | none =>
    rw [found] at isTask
    cases isTask
  | some group =>
    rw [found] at isTask lengths
    dsimp only at isTask lengths
    obtain ⟨other, below, same⟩ := List.mem_map.mp isTask
    rw [List.length_map, List.length_range] at lengths
    refine ⟨group, rfl, ?_, by omega⟩
    rw [← (Prod.mk.inj same).2]
    exact List.mem_range.mp below

/-- Complete groups are among the opened ones. -/
theorem Running.finished_opened (running : Running envs world)
    {finished : List (Nat × List Rollout)}
    (sunk : Sunk envs (targetOf world.groups) world.arrived world.sink world.returned finished)
    (key : EpochKey) : ∀ groupId ∈ (groupsOf finished key).map Prod.fst,
      groupId ∈ world.groupsWith key := by
  intro groupId listed
  obtain ⟨group, isGroup, rfl⟩ := List.mem_map.mp listed
  obtain ⟨isFinished, isKey⟩ := List.mem_filter.mp isGroup
  obtain ⟨own, isOwn, members, -⟩ := sunk.group_key isFinished
  rw [of_decide_eq_true isKey] at isOwn
  obtain rfl := Option.some.inj isOwn
  obtain ⟨rollout, member⟩ := List.exists_mem_of_ne_nil _ (sunk.filled group isFinished)
  obtain ⟨isItems, -⟩ := sunk.gathered.all_items group.1 group.2 isFinished
  obtain ⟨arrived, isGroupId⟩ := mem_items_by_group.mp (isItems ▸ member)
  obtain ⟨opened, found, sameKey⟩ := running.opened.stamped rollout arrived
  refine (mem_groupsWith world key group.1).mpr ⟨opened, ?_, ?_⟩
  · rw [← isGroupId]
    exact found
  · rw [← sameKey]
    exact members rollout member

theorem groupsOf_distinct {finished : List (Nat × List Rollout)}
    (once : (finished.map Prod.fst).Nodup) (key : EpochKey) :
    ((groupsOf finished key).map Prod.fst).Nodup :=
  once.sublist (List.filter_sublist.map Prod.fst)

/-- Every rollout in flight can arrive. -/
theorem Running.arrives (running : Running envs world) {groupId number : Nat}
    (flies : (groupId, number) ∈ world.inflight) :
    ∃ next, world.arrive envs groupId number = some next ∧ Running envs next ∧
      next.inflight = world.inflight.erase (groupId, number) ∧ next.groups = world.groups ∧
      next.source = world.source := by
  have opened := running.opened
  obtain ⟨finished, sunk⟩ := running.sunk
  obtain ⟨group, isGroup, -, fits⟩ := opened.in_flight flies
  obtain ⟨env, found, target, bounded⟩ := opened.sized group (List.mem_of_getElem? isGroup)
  obtain ⟨rollout, isRollout⟩ : ∃ rollout : Rollout,
      rollout = ⟨group.envName, group.evalStep, groupId, number⟩ := ⟨_, rfl⟩
  have isKey : rollout.key = group.row.key := by rw [isRollout]; rfl
  have isGroupId : rollout.groupId = groupId := by rw [isRollout]
  have ofEnv : envs.get? rollout.envName = some env := by rw [isRollout]; exact found
  have sized : targetOf world.groups rollout.groupId = env.groupSize := by
    rw [isGroupId, targetOf, isGroup]
    exact target
  have own : ∀ other ∈ world.arrived, other.groupId = rollout.groupId → other.key = rollout.key := by
    intro other arrived same
    obtain ⟨otherGroup, isOther, sameKey⟩ := opened.stamped other arrived
    rw [same, isGroupId, isGroup] at isOther
    rw [sameKey, isKey, Option.some.inj isOther]
  have few : (Gather.itemsOf (byGroup world.arrived) groupId).length + 1 ≤ env.groupSize := by
    have dispatched : group.dispatched ≤ group.targetRollouts := Nat.sub_le _ _
    omega
  have more : (Gather.itemsOf (byGroup (world.arrived ++ [rollout])) rollout.groupId).length =
      (Gather.itemsOf (byGroup world.arrived) groupId).length + 1 := by
    rw [byGroup_append, Gather.items_append_same, List.length_append, isGroupId]
    rfl
  have room : (groupsOf finished rollout.key).length < env.examples.length := by
    have inGroups : groupId ∈ world.groupsWith rollout.key :=
      (mem_groupsWith world _ groupId).mpr ⟨group, isGroup, isKey.symm⟩
    have fresh : groupId ∉ (groupsOf finished rollout.key).map Prod.fst := by
      intro listed
      obtain ⟨other, isOther, rfl⟩ := List.mem_map.mp listed
      obtain ⟨isItems, full⟩ := sunk.gathered.all_items other.1 other.2 (List.mem_filter.mp isOther).1
      rw [isItems, targetOf, isGroup] at full
      have full : (Gather.itemsOf (byGroup world.arrived) other.1).length = group.targetRollouts := full
      omega
    have distinct : (groupId :: (groupsOf finished rollout.key).map Prod.fst).Nodup :=
      List.nodup_cons.mpr ⟨fresh, groupsOf_distinct sunk.gathered.once _⟩
    have inside : groupId :: (groupsOf finished rollout.key).map Prod.fst ⊆
        world.groupsWith rollout.key :=
      List.cons_subset.mpr ⟨inGroups, running.finished_opened sunk rollout.key⟩
    have count := (List.subperm_of_subset distinct inside).length_le
    have bound : (world.groupsWith rollout.key).length ≤ env.examples.length :=
      opened.groups_le ofEnv inGroups
    rw [List.length_cons, List.length_map] at count
    omega
  obtain ⟨batch?, sink, adds, finishedNext, sunkNext⟩ : ∃ batch? sink,
      world.sink.add envs rollout = .ok (batch?, sink) ∧ ∃ finishedNext,
        Sunk envs (targetOf world.groups) (world.arrived ++ [rollout]) sink
          (world.returned ++ batch?.toList) finishedNext := by
    by_cases complete : (Gather.itemsOf (byGroup world.arrived) groupId).length + 1 = env.groupSize
    · obtain ⟨batch?, sink, adds, after⟩ := sunk.finish ofEnv sized (by omega) own
        (more.trans complete) room
      exact ⟨batch?, sink, adds, _, after⟩
    · obtain ⟨adds, after⟩ := sunk.wait ofEnv sized own (by rw [more]; omega) room
      refine ⟨none, _, adds, finished, ?_⟩
      rw [Option.toList_none, List.append_nil]
      exact after
  refine ⟨{ world with
    inflight := world.inflight.erase (groupId, number)
    arrived := world.arrived ++ [rollout]
    sink := sink
    returned := world.returned ++ batch?.toList }, ?_, ⟨?_, finishedNext, sunkNext⟩, rfl, rfl, rfl⟩
  · rw [World.arrive, if_pos flies, isGroup]
    dsimp only
    rw [← isRollout, adds]
  · refine ⟨opened.known, opened.distinct, opened.once, opened.visited, opened.sized, ?_, ?_⟩
    · intro other
      refine (List.Perm.filter _ ?_).trans (opened.tasks other)
      have isPlace : place rollout = (groupId, number) := by rw [isRollout]; rfl
      have moved := List.perm_cons_erase flies
      change (world.inflight.erase (groupId, number) ++ (world.arrived ++ [rollout]).map place).Perm
        (world.inflight ++ world.arrived.map place)
      rw [List.map_append, List.map_singleton, isPlace, ← List.append_assoc]
      refine (List.perm_append_singleton _ _).trans ?_
      rw [← List.cons_append]
      exact moved.symm.append_right _
    · intro other listed
      rcases List.mem_append.mp listed with before | last
      · exact opened.stamped other before
      · rw [List.mem_singleton.mp last, isGroupId]
        exact ⟨group, isGroup, isKey⟩

theorem Running.arrive (running : Running envs world) {groupId number : Nat}
    (arrived : world.arrive envs groupId number = some next) : Running envs next := by
  by_cases flies : (groupId, number) ∈ world.inflight
  · obtain ⟨after, isAfter, runningAfter, -⟩ := running.arrives flies
    rw [isAfter] at arrived
    exact Option.some.inj arrived ▸ runningAfter
  · rw [World.arrive, if_neg flies] at arrived
    cases arrived

theorem Running.step (running : Running envs world) {skipFirstStep : Bool} {event : Event}
    (stepped : world.step envs skipFirstStep event = some next) : Running envs next := by
  cases event with
  | trigger step => exact running.trigger stepped
  | pull availablePermits => exact running.pull stepped
  | schedule groupId => exact running.schedule stepped
  | arrive groupId number => exact running.arrive stepped

end Running

theorem running_init (envs : EvalEnvs Task) (isResumed : Bool) :
    Running envs (World.init isResumed) where
  opened := opened_init envs isResumed
  sunk := ⟨[], sunk_init envs _⟩

/-- Every run keeps the groups and the sink in step. -/
theorem running_reached {envs : EvalEnvs Task} {skipFirstStep isResumed : Bool} {events : List Event}
    {world : World Task}
    (ran : Machine.run (World.step envs skipFirstStep) (World.init isResumed) events = some world) :
    Running envs world :=
  Machine.run_invariant (Running envs) (fun _ _ _ running stepped => running.step stepped)
    (running_init envs isResumed) ran

end PrimeRl.Orchestrator.Eval
