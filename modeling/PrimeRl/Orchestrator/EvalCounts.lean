import PrimeRl.Orchestrator.EvalSink

/-!
# Counting to an epoch

A batch holds the complete groups of its environment and step, in the order in
which they were completed, and leaves when there are as many of them as examples.
-/

namespace PrimeRl.Orchestrator.Eval

variable {Task : Type}

/-- The environment and step of a group's rollouts. -/
def epochOf (group : Nat × List Rollout) : Option EpochKey := group.2.head?.map Rollout.key

/-- The complete groups of an environment and a step. -/
def groupsOf (finished : List (Nat × List Rollout)) (key : EpochKey) : List (Nat × List Rollout) :=
  finished.filter (fun group => decide (epochOf group = some key))

def gatheredOf (finished : List (Nat × List Rollout)) (key : EpochKey) : List Rollout :=
  (groupsOf finished key).flatMap Prod.snd

/-- Arrivals with their groups. -/
def byGroup (arrived : List Rollout) : List (Nat × Rollout) :=
  arrived.map (fun rollout => (rollout.groupId, rollout))

/-- Groups gather to their sizes, and batches to the number of their examples. -/
structure Sunk (envs : EvalEnvs Task) (size : Nat → Nat) (arrived : List Rollout) (sink : EvalSink)
    (returned : List EvalBatch) (finished : List (Nat × List Rollout)) : Prop where
  gathered : Gather.Gathered size (byGroup arrived) sink.pendingGroups finished
  sized : ∀ rollout ∈ arrived, ∃ env, envs.get? rollout.envName = some env ∧
    size rollout.groupId = env.groupSize ∧ 0 < env.groupSize
  alike : ∀ rollout ∈ arrived, ∀ other ∈ arrived, rollout.groupId = other.groupId →
    rollout.key = other.key
  batched : ∀ (key : EpochKey) env, envs.get? key.1 = some env → bucket sink.pendingBatches key =
    if (groupsOf finished key).length < env.examples.length then gatheredOf finished key else []
  stored : ∀ (key : EpochKey), (sink.pendingBatches.get? key).isSome →
    (∃ rollout ∈ arrived, rollout.key = key) ∧
      ∀ env, envs.get? key.1 = some env → (groupsOf finished key).length < env.examples.length
  filled : ∀ group ∈ finished, group.2 ≠ []
  whole : ∀ batch ∈ returned, batch.rollouts = gatheredOf finished batch.key ∧
    ∃ env, envs.get? batch.envName = some env ∧
      (groupsOf finished batch.key).length = env.examples.length
  once : (returned.map EvalBatch.key).Nodup
  complete : ∀ (key : EpochKey) env, envs.get? key.1 = some env → 0 < env.examples.length →
    (groupsOf finished key).length = env.examples.length → key ∈ returned.map EvalBatch.key

theorem sunk_init (envs : EvalEnvs Task) (size : Nat → Nat) : Sunk envs size [] .init [] [] where
  gathered := Gather.gathered_empty size
  sized := fun _ impossible => absurd impossible List.not_mem_nil
  alike := fun _ impossible => absurd impossible List.not_mem_nil
  batched := by
    intro key env _
    split <;> rfl
  stored := fun _ impossible => absurd impossible Bool.false_ne_true
  filled := fun _ impossible => absurd impossible List.not_mem_nil
  whole := fun _ impossible => absurd impossible List.not_mem_nil
  once := List.nodup_nil
  complete := by
    intro key env _ positive none
    exact absurd none (Nat.ne_of_lt positive)

theorem mem_items_by_group {arrived : List Rollout} {groupId : Nat} {rollout : Rollout} :
    rollout ∈ Gather.itemsOf (byGroup arrived) groupId ↔
      rollout ∈ arrived ∧ rollout.groupId = groupId := by
  rw [Gather.mem_items, byGroup, List.mem_map]
  constructor
  · rintro ⟨other, listed, same⟩
    obtain ⟨isGroup, rfl⟩ := Prod.mk.inj same
    exact ⟨listed, isGroup⟩
  · rintro ⟨listed, rfl⟩
    exact ⟨rollout, listed, rfl⟩

theorem byGroup_append (arrived : List Rollout) (rollout : Rollout) :
    byGroup (arrived ++ [rollout]) = byGroup arrived ++ [(rollout.groupId, rollout)] := by
  rw [byGroup, List.map_append]
  rfl

section Sunk
variable {envs : EvalEnvs Task} {size : Nat → Nat} {arrived : List Rollout} {sink : EvalSink}
  {returned : List EvalBatch} {finished : List (Nat × List Rollout)}

/-- A complete group has rollouts, and all of them are of its environment and step. -/
theorem Sunk.group_key (sunk : Sunk envs size arrived sink returned finished)
    {group : Nat × List Rollout} (listed : group ∈ finished) :
    ∃ key, epochOf group = some key ∧ (∀ rollout ∈ group.2, rollout.key = key) ∧
      ∃ env, envs.get? key.1 = some env ∧ group.2.length = env.groupSize := by
  obtain ⟨isItems, full⟩ := sunk.gathered.all_items group.1 group.2 listed
  obtain ⟨first, rest, members⟩ := List.exists_cons_of_ne_nil (sunk.filled group listed)
  have arrivals (rollout : Rollout) (member : rollout ∈ group.2) :
      rollout ∈ arrived ∧ rollout.groupId = group.1 :=
    mem_items_by_group.mp (isItems ▸ member)
  have isFirst : first ∈ group.2 := members ▸ List.mem_cons_self
  refine ⟨first.key, by rw [epochOf, members]; rfl, ?_, ?_⟩
  · intro rollout member
    apply sunk.alike rollout (arrivals rollout member).1 first (arrivals first isFirst).1
    rw [(arrivals rollout member).2, (arrivals first isFirst).2]
  · obtain ⟨env, found, sized, -⟩ := sunk.sized first (arrivals first isFirst).1
    refine ⟨env, found, ?_⟩
    rw [full, ← sized, (arrivals first isFirst).2]

/-- A batch of complete groups has as many rollouts as they have together. -/
theorem Sunk.gathered_length (sunk : Sunk envs size arrived sink returned finished) {key : EpochKey}
    {env : EvalEnv Task} (found : envs.get? key.1 = some env) :
    (gatheredOf finished key).length = (groupsOf finished key).length * env.groupSize := by
  have sizes : (groupsOf finished key).map (fun group => group.2.length) =
      List.replicate (groupsOf finished key).length env.groupSize := by
    rw [List.eq_replicate_iff, List.length_map]
    refine ⟨rfl, ?_⟩
    intro length isLength
    obtain ⟨group, listed, rfl⟩ := List.mem_map.mp isLength
    obtain ⟨inFinished, isKey⟩ := List.mem_filter.mp listed
    obtain ⟨own, isOwn, -, other, otherFound, full⟩ := sunk.group_key inFinished
    rw [of_decide_eq_true isKey] at isOwn
    obtain rfl := Option.some.inj isOwn
    rw [found] at otherFound
    rw [full, Option.some.inj otherFound]
  rw [gatheredOf, List.length_flatMap, sizes, List.sum_replicate_nat]

/-- What waits in the group of an arrival is of its environment and step. -/
theorem Sunk.bucket_alike (sunk : Sunk envs size arrived sink returned finished) {rollout : Rollout}
    (own : ∀ other ∈ arrived, other.groupId = rollout.groupId → other.key = rollout.key) :
    ∀ member ∈ bucket sink.pendingGroups rollout.groupId, member.key = rollout.key := by
  intro member listed
  rw [bucket] at listed
  cases found : sink.pendingGroups.get? rollout.groupId with
  | none =>
    rw [found] at listed
    cases listed
  | some members =>
    rw [found] at listed
    have stored := (OrderedDict.get?_eq_some_iff _ _ members).mp found
    obtain ⟨isItems, -⟩ := sunk.gathered.open_items _ members stored
    have isMember : member ∈ members := listed
    rw [isItems] at isMember
    obtain ⟨inArrived, isGroup⟩ := mem_items_by_group.mp isMember
    exact own member inArrived isGroup

/-- What concerns the arrivals alone. -/
theorem Sunk.arrivals (sunk : Sunk envs size arrived sink returned finished) {rollout : Rollout}
    {env : EvalEnv Task} (found : envs.get? rollout.envName = some env)
    (sized : size rollout.groupId = env.groupSize) (positive : 0 < env.groupSize)
    (own : ∀ other ∈ arrived, other.groupId = rollout.groupId → other.key = rollout.key) :
    (∀ other ∈ arrived ++ [rollout], ∃ env, envs.get? other.envName = some env ∧
      size other.groupId = env.groupSize ∧ 0 < env.groupSize) ∧
    ∀ other ∈ arrived ++ [rollout], ∀ another ∈ arrived ++ [rollout],
      other.groupId = another.groupId → other.key = another.key := by
  constructor
  · intro other listed
    rcases List.mem_append.mp listed with before | last
    · exact sunk.sized other before
    · rw [List.mem_singleton.mp last]
      exact ⟨env, found, sized, positive⟩
  · intro other listed another otherListed same
    rcases List.mem_append.mp listed with before | last
    · rcases List.mem_append.mp otherListed with otherBefore | otherLast
      · exact sunk.alike other before another otherBefore same
      · rw [List.mem_singleton.mp otherLast] at same ⊢
        exact own other before same
    · rw [List.mem_singleton.mp last] at same ⊢
      rcases List.mem_append.mp otherListed with otherBefore | otherLast
      · exact (own another otherBefore same.symm).symm
      · rw [List.mem_singleton.mp otherLast]

/-- An arrival that leaves its group incomplete. -/
theorem Sunk.wait (sunk : Sunk envs size arrived sink returned finished) {rollout : Rollout}
    {env : EvalEnv Task} (found : envs.get? rollout.envName = some env)
    (sized : size rollout.groupId = env.groupSize)
    (own : ∀ other ∈ arrived, other.groupId = rollout.groupId → other.key = rollout.key)
    (incomplete : (Gather.itemsOf (byGroup (arrived ++ [rollout])) rollout.groupId).length <
      env.groupSize)
    (room : (groupsOf finished rollout.key).length < env.examples.length) :
    sink.add envs rollout = .ok (none, sink.wait rollout) ∧
      Sunk envs size (arrived ++ [rollout]) (sink.wait rollout) returned finished := by
  have isBucket := sunk.batched rollout.key env found
  rw [if_pos room] at isBucket
  have positive : 0 < env.groupSize := Nat.zero_lt_of_lt incomplete
  rw [byGroup_append] at incomplete
  have waits := sunk.gathered.wait rollout.groupId rollout (sized.symm ▸ incomplete)
  have isItems : bucket sink.pendingGroups rollout.groupId ++ [rollout] =
      Gather.itemsOf (byGroup arrived ++ [(rollout.groupId, rollout)]) rollout.groupId := by
    rw [Gather.items_append_same, bucket]
    congr 1
    apply sunk.gathered.waiting_items
    rw [Gather.items_append_same, List.length_append] at incomplete
    rw [sized]
    exact Nat.lt_of_succ_lt incomplete
  obtain ⟨allSized, allAlike⟩ := sunk.arrivals found sized positive own
  constructor
  · apply add_wait found
    · rw [isItems]
      exact incomplete
    · rw [isBucket, sunk.gathered_length found]
      exact Nat.mul_lt_mul_of_pos_right room positive
  · refine ⟨?_, allSized, allAlike, ?_, ?_, sunk.filled, sunk.whole, sunk.once, sunk.complete⟩
    · rw [byGroup_append]
      exact waits
    · intro key other otherFound
      change bucket (sink.pendingBatches.set rollout.key _) key = _
      rw [bucket_set, ← sunk.batched key other otherFound]
      split
      · rename_i same
        rw [same]
      · rfl
    · intro key isStored
      change ((sink.pendingBatches.set rollout.key _).get? key).isSome at isStored
      rw [OrderedDict.get?_set] at isStored
      split at isStored
      · rename_i same
        rw [same]
        refine ⟨⟨rollout, List.mem_append_right _ (List.mem_singleton_self _), rfl⟩, ?_⟩
        intro other otherFound
        have sameEnv : some env = some other := found.symm.trans otherFound
        rw [← Option.some.inj sameEnv]
        exact room
      · obtain ⟨⟨other, listed, isKey⟩, fewer⟩ := sunk.stored key isStored
        exact ⟨⟨other, List.mem_append_left _ listed, isKey⟩, fewer⟩

theorem groupsOf_append (finished : List (Nat × List Rollout)) (group : Nat × List Rollout)
    {key : EpochKey} (isKey : epochOf group = some key) (other : EpochKey) :
    groupsOf (finished ++ [group]) other =
      groupsOf finished other ++ if other = key then [group] else [] := by
  rw [groupsOf, List.filter_append, groupsOf]
  congr 1
  rw [List.filter_singleton, isKey]
  simp only [Option.some.injEq, eq_comm (a := key), Bool.cond_decide]

/-- An arrival that completes its group. The batch leaves when this is its last group. -/
theorem Sunk.finish (sunk : Sunk envs size arrived sink returned finished) {rollout : Rollout}
    {env : EvalEnv Task} (found : envs.get? rollout.envName = some env)
    (sized : size rollout.groupId = env.groupSize) (positive : 0 < env.groupSize)
    (own : ∀ other ∈ arrived, other.groupId = rollout.groupId → other.key = rollout.key)
    (complete : (Gather.itemsOf (byGroup (arrived ++ [rollout])) rollout.groupId).length =
      env.groupSize)
    (room : (groupsOf finished rollout.key).length < env.examples.length) :
    ∃ batch? next, sink.add envs rollout = .ok (batch?, next) ∧
      Sunk envs size (arrived ++ [rollout]) next (returned ++ batch?.toList)
        (finished ++ [(rollout.groupId,
          Gather.itemsOf (byGroup (arrived ++ [rollout])) rollout.groupId)]) := by
  obtain ⟨items, isItems⟩ : ∃ items,
      items = Gather.itemsOf (byGroup (arrived ++ [rollout])) rollout.groupId := ⟨_, rfl⟩
  obtain ⟨allSized, allAlike⟩ := sunk.arrivals found sized positive own
  have finishes := sunk.gathered.finish rollout.groupId rollout
    (by rw [sized, ← byGroup_append]; exact complete)
  rw [← byGroup_append, ← isItems] at finishes
  rw [← isItems] at complete ⊢
  have isGroup : bucket sink.pendingGroups rollout.groupId ++ [rollout] = items := by
    rw [isItems, byGroup_append, Gather.items_append_same, bucket]
    congr 1
    apply sunk.gathered.waiting_items
    rw [isItems, byGroup_append, Gather.items_append_same, List.length_append] at complete
    rw [sized, ← complete]
    exact Nat.lt_succ_self _
  have isKey : epochOf (rollout.groupId, items) = some rollout.key := by
    have alike := sunk.bucket_alike own
    rw [epochOf, ← isGroup]
    cases members : bucket sink.pendingGroups rollout.groupId with
    | nil => rfl
    | cons first rest => exact congrArg some (alike first (members ▸ List.mem_cons_self))
  have isBucket := sunk.batched rollout.key env found
  rw [if_pos room] at isBucket
  have groups := groupsOf_append finished (rollout.groupId, items) isKey
  have ownGroups : groupsOf (finished ++ [(rollout.groupId, items)]) rollout.key =
      groupsOf finished rollout.key ++ [(rollout.groupId, items)] := by rw [groups, if_pos rfl]
  have otherGroups {key : EpochKey} (different : key ≠ rollout.key) :
      groupsOf (finished ++ [(rollout.groupId, items)]) key = groupsOf finished key := by
    rw [groups, if_neg different, List.append_nil]
  have joined : bucket (sink.group rollout).pendingBatches rollout.key =
      gatheredOf (finished ++ [(rollout.groupId, items)]) rollout.key := by
    rw [EvalSink.group, bucket_set, if_pos rfl, isBucket, isGroup, gatheredOf, gatheredOf, ownGroups,
      List.flatMap_append, List.flatMap_singleton]
  have size_joined : (bucket (sink.group rollout).pendingBatches rollout.key).length =
      ((groupsOf finished rollout.key).length + 1) * env.groupSize := by
    rw [EvalSink.group, bucket_set, if_pos rfl, List.length_append, isBucket, isGroup, complete,
      sunk.gathered_length found, Nat.succ_mul]
  obtain ⟨⟨batch?, next⟩, adds, sameGroups, result⟩ := add_group found
    (sunk.bucket_alike own) (by rw [isGroup, complete])
  have others {key : EpochKey} (different : key ≠ rollout.key) :
      (sink.group rollout).pendingBatches.get? key = sink.pendingBatches.get? key := by
    rw [EvalSink.group, OrderedDict.get?_set, if_neg different]
  have gathered : Gather.Gathered size (byGroup (arrived ++ [rollout])) next.pendingGroups
      (finished ++ [(rollout.groupId, items)]) := by
    have same : next.pendingGroups = (sink.group rollout).pendingGroups := sameGroups
    rw [same]
    exact finishes
  have filled : ∀ group ∈ finished ++ [(rollout.groupId, items)], group.2 ≠ [] := by
    intro group listed
    rcases List.mem_append.mp listed with before | last
    · exact sunk.filled group before
    · rw [List.mem_singleton.mp last]
      exact List.ne_nil_of_length_pos (complete.symm ▸ positive)
  have lengths (key : EpochKey) : (groupsOf (finished ++ [(rollout.groupId, items)]) key).length =
      if key = rollout.key then (groupsOf finished rollout.key).length + 1
      else (groupsOf finished key).length := by
    split
    · rename_i same
      rw [same, ownGroups, List.length_append]
      rfl
    · rename_i different
      rw [otherGroups different]
  have unfinished {batch : EvalBatch} (listed : batch ∈ returned) : batch.key ≠ rollout.key := by
    intro same
    obtain ⟨-, other, otherFound, full⟩ := sunk.whole batch listed
    have sameName : batch.envName = rollout.envName := congrArg Prod.fst same
    rw [sameName, found] at otherFound
    rw [same, ← Option.some.inj otherFound] at full
    exact absurd full (Nat.ne_of_lt room)
  have whole : ∀ batch ∈ returned,
      batch.rollouts = gatheredOf (finished ++ [(rollout.groupId, items)]) batch.key ∧
      ∃ env, envs.get? batch.envName = some env ∧
        (groupsOf (finished ++ [(rollout.groupId, items)]) batch.key).length = env.examples.length := by
    intro batch listed
    rw [gatheredOf, otherGroups (unfinished listed)]
    exact sunk.whole batch listed
  refine ⟨batch?, next, adds, ?_⟩
  by_cases few : (bucket (sink.group rollout).pendingBatches rollout.key).length <
      env.examples.length * env.groupSize
  · rw [if_pos few] at result
    obtain ⟨noBatch, batches⟩ := result
    have noBatch : batch? = none := noBatch
    have stillRoom : (groupsOf finished rollout.key).length + 1 < env.examples.length := by
      rw [size_joined] at few
      exact Nat.lt_of_mul_lt_mul_right few
    rw [noBatch, Option.toList_none, List.append_nil]
    refine ⟨gathered, allSized, allAlike, ?_, ?_, filled, whole, sunk.once, ?_⟩
    · intro key other otherFound
      rw [bucket, batches]
      by_cases same : key = rollout.key
      · have sameEnv : some env = some other := by rw [← found, ← otherFound, same]; rfl
        obtain rfl := Option.some.inj sameEnv
        rw [same, if_pos (by rw [lengths, if_pos rfl]; exact stillRoom), ← joined]
        rfl
      · rw [others same, gatheredOf, otherGroups same, ← gatheredOf, ← sunk.batched key other otherFound]
        rfl
    · intro key isStored
      have isStored : (next.pendingBatches.get? key).isSome := isStored
      rw [batches] at isStored
      by_cases same : key = rollout.key
      · rw [same]
        refine ⟨⟨rollout, List.mem_append_right _ (List.mem_singleton_self _), rfl⟩, ?_⟩
        intro other otherFound
        have sameEnv : some env = some other := found.symm.trans otherFound
        rw [lengths, if_pos rfl, ← Option.some.inj sameEnv]
        exact stillRoom
      · rw [others same] at isStored
        obtain ⟨⟨other, listed, otherKey⟩, fewer⟩ := sunk.stored key isStored
        rw [lengths, if_neg same]
        exact ⟨⟨other, List.mem_append_left _ listed, otherKey⟩, fewer⟩
    · intro key other otherFound some full
      rw [lengths] at full
      split at full
      · rename_i same
        rw [same] at otherFound
        have sameEnv := found.symm.trans otherFound
        rw [← Option.some.inj sameEnv] at full
        exact absurd full (Nat.ne_of_lt stillRoom)
      · exact sunk.complete key other otherFound some full
  · rw [if_neg few] at result
    obtain ⟨isBatch, batches⟩ := result
    have isBatch : batch? = some ⟨rollout.envName, rollout.evalStep, _⟩ := isBatch
    have full : (groupsOf finished rollout.key).length + 1 = env.examples.length := by
      rw [size_joined, Nat.not_lt] at few
      exact Nat.le_antisymm room (Nat.le_of_mul_le_mul_right few positive)
    rw [isBatch, Option.toList_some]
    refine ⟨gathered, allSized, allAlike, ?_, ?_, filled, ?_, ?_, ?_⟩
    · intro key other otherFound
      rw [bucket, batches]
      by_cases same : key = rollout.key
      · have sameEnv : some env = some other := by rw [← found, ← otherFound, same]; rfl
        obtain rfl := Option.some.inj sameEnv
        rw [same, if_pos rfl, if_neg (by rw [lengths, if_pos rfl]; omega)]
        rfl
      · rw [if_neg same, others same, gatheredOf, otherGroups same, ← gatheredOf,
          ← sunk.batched key other otherFound]
        rfl
    · intro key isStored
      have isStored : (next.pendingBatches.get? key).isSome := isStored
      rw [batches] at isStored
      split at isStored
      · cases isStored
      · rename_i different
        rw [others different] at isStored
        obtain ⟨⟨other, listed, otherKey⟩, fewer⟩ := sunk.stored key isStored
        rw [lengths, if_neg different]
        exact ⟨⟨other, List.mem_append_left _ listed, otherKey⟩, fewer⟩
    · intro batch listed
      rcases List.mem_append.mp listed with before | last
      · exact whole batch before
      · rw [List.mem_singleton.mp last]
        refine ⟨joined, env, found, ?_⟩
        change (groupsOf _ rollout.key).length = _
        rw [lengths, if_pos rfl, full]
    · rw [List.map_append, List.nodup_append]
      refine ⟨sunk.once, List.nodup_singleton _, ?_⟩
      intro key member last isLast same
      obtain ⟨batch, listed, rfl⟩ := List.mem_map.mp member
      exact unfinished listed (same.trans (List.mem_singleton.mp isLast))
    · intro key other otherFound some isFull
      rw [List.map_append]
      by_cases same : key = rollout.key
      · rw [same]
        exact List.mem_append_right _ (List.mem_singleton_self _)
      · rw [lengths, if_neg same] at isFull
        exact List.mem_append_left _ (sunk.complete key other otherFound some isFull)

end Sunk

end PrimeRl.Orchestrator.Eval
