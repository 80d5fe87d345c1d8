import PrimeRl.Support.Gather
import PrimeRl.Transport.Receivers

/-!
# What the buffering receiver returns

Draining appends every message to the batches of its run identifier, and a call
then takes the head of the batches of each used run that can take one, as long as
the batches of one identifier arrive in the order of their steps.
-/

namespace PrimeRl.Transport.Receivers

open PrimeRl.Trainer PrimeRl.Trainer.Runs PrimeRl.Trainer.Packer

variable {Scalar : Type}

/-- The batches buffered under a run identifier, in the order of their arrival. -/
def buffered (pending : Pending Scalar) (runId : String) : List (Sent Scalar) :=
  ((pending.get? runId).getD .empty).values

/-- Every batch is buffered under its own step. -/
def Keyed (pending : Pending Scalar) : Prop :=
  ∀ runId perIdBatches, pending.get? runId = some perIdBatches →
    perIdBatches.keys = perIdBatches.values.map (fun batch => batch.step)

theorem Keyed.steps {pending : Pending Scalar} (keyed : Keyed pending) (runId : String) :
    ((pending.get? runId).getD .empty).keys =
      (buffered pending runId).map (fun batch => batch.step) := by
  rw [buffered]
  cases found : pending.get? runId with
  | none => rfl
  | some perIdBatches => exact keyed runId perIdBatches found

/-- Writing a bucket changes what is buffered under its identifier only. -/
theorem buffered_set (pending : Pending Scalar) (runId other : String) (bucket : Bucket Scalar) :
    buffered (pending.set runId bucket) other =
      if other = runId then bucket.values else buffered pending other := by
  rw [buffered, OrderedDict.get?_set]
  split
  · rfl
  · rfl

theorem buffered_erase (pending : Pending Scalar) (runId other : String) :
    buffered (pending.erase runId) other = if other = runId then [] else buffered pending other := by
  rw [buffered, OrderedDict.get?_erase]
  split
  · rfl
  · rfl

theorem Keyed.set {pending : Pending Scalar} (keyed : Keyed pending) (runId : String)
    (bucket : Bucket Scalar) (own : bucket.keys = bucket.values.map (fun batch => batch.step)) :
    Keyed (pending.set runId bucket) := by
  intro other perIdBatches found
  rw [OrderedDict.get?_set] at found
  split at found
  · obtain rfl := Option.some.inj found
    exact own
  · exact keyed other perIdBatches found

theorem Keyed.erase {pending : Pending Scalar} (keyed : Keyed pending) (runId : String) :
    Keyed (pending.erase runId) := by
  intro other perIdBatches found
  rw [OrderedDict.get?_erase] at found
  split at found
  · cases found
  · exact keyed other perIdBatches found

/-! ## Draining -/

/-- A message of a step that is not buffered yet joins the batches of its run. -/
theorem drain_message_spec {pending : Pending Scalar} (keyed : Keyed pending)
    (message : String × Sent Scalar)
    (fresh : message.2.step ∉ (buffered pending message.1).map (fun batch => batch.step)) :
    ∃ next, drainMessage pending message = .ok next ∧ Keyed next ∧
      ∀ runId, buffered next runId =
        if runId = message.1 then buffered pending runId ++ [message.2] else buffered pending runId := by
  obtain ⟨bucket, isBucket⟩ : ∃ bucket, bucket = (pending.get? message.1).getD .empty := ⟨_, rfl⟩
  have sameKeys := keyed.steps message.1
  rw [← sameKeys] at fresh
  rw [← isBucket] at fresh sameKeys
  have isBuffered : buffered pending message.1 = bucket.values := by rw [isBucket]; rfl
  have appended := OrderedDict.set_new bucket message.2.step message.2 fresh
  have values : (bucket.set message.2.step message.2).values = bucket.values ++ [message.2] := by
    rw [OrderedDict.values, appended, List.map_append]
    rfl
  refine ⟨pending.set message.1 (bucket.set message.2.step message.2), ?_, ?_, ?_⟩
  · rw [drainMessage, ← isBucket]
    exact if_neg fresh
  · apply keyed.set
    rw [values, List.map_append, ← isBuffered, ← sameKeys, OrderedDict.keys, appended,
      List.map_append]
    rfl
  · intro runId
    rw [buffered_set, values]
    split
    · rename_i same
      rw [same, isBuffered]
    · rfl

/-- Draining appends the messages of each run to its batches, when no step is
listed twice. -/
theorem drain_spec {pending : Pending Scalar} (keyed : Keyed pending)
    (available : List (String × Sent Scalar))
    (distinct : ∀ runId, ((buffered pending runId ++ Gather.itemsOf available runId).map
      (fun batch => batch.step)).Nodup) :
    ∃ drained, drainIntoPending pending available = .ok drained ∧ Keyed drained ∧
      ∀ runId, buffered drained runId = buffered pending runId ++ Gather.itemsOf available runId := by
  induction available generalizing pending with
  | nil => exact ⟨pending, rfl, keyed, fun runId => (List.append_nil _).symm⟩
  | cons message rest inductionHypothesis =>
    have items (runId : String) : Gather.itemsOf (message :: rest) runId =
        if runId = message.1 then message.2 :: Gather.itemsOf rest runId
        else Gather.itemsOf rest runId := by
      rw [Gather.itemsOf]
      split
      · rename_i same
        rw [List.filter_cons_of_pos (by simp [same])]
        rfl
      · rename_i different
        rw [List.filter_cons_of_neg (by simp [Ne.symm different])]
        rfl
    have fresh : message.2.step ∉ (buffered pending message.1).map (fun batch => batch.step) := by
      have once := distinct message.1
      rw [items, if_pos rfl, List.map_append, List.map_cons] at once
      intro listed
      exact (List.nodup_append.mp once).2.2 _ listed _ List.mem_cons_self rfl
    obtain ⟨next, drains, keyedNext, isNext⟩ := drain_message_spec keyed message fresh
    have line (runId : String) : buffered next runId ++ Gather.itemsOf rest runId =
        buffered pending runId ++ Gather.itemsOf (message :: rest) runId := by
      rw [isNext, items]
      split
      · rw [List.append_assoc]
        rfl
      · rfl
    obtain ⟨drained, finishes, keyedDrained, isDrained⟩ := inductionHypothesis keyedNext
      (by
        intro runId
        rw [line]
        exact distinct runId)
    refine ⟨drained, ?_, keyedDrained, fun runId => (isDrained runId).trans (line runId)⟩
    rw [drainIntoPending, List.foldlM_cons, drains]
    exact finishes

/-! ## Taking -/

/-- The smallest step of an ascending bucket is its first. -/
theorem pop_oldest_first {bucket : Bucket Scalar} {batch : Sent Scalar} {rest : List (Sent Scalar)}
    (own : bucket.keys = bucket.values.map (fun batch => batch.step))
    (isFirst : bucket.values = batch :: rest)
    (ascending : (bucket.values.map (fun batch => batch.step)).Pairwise (· < ·)) :
    ∃ left, popOldest bucket = some (batch, left) ∧ left.values = rest ∧
      left.keys = left.values.map (fun batch => batch.step) := by
  obtain ⟨entries, distinct⟩ := bucket
  cases entries with
  | nil => cases isFirst
  | cons entry tail =>
    obtain ⟨rfl, rfl⟩ := List.cons.inj isFirst
    obtain ⟨sameStep, sameSteps⟩ := List.cons.inj own
    have above : ∀ step ∈ tail.map Prod.fst, entry.1 < step := by
      intro step listed
      have later := (List.pairwise_cons.mp ascending).1
      have sameTail : tail.map Prod.fst = (tail.map Prod.snd).map (fun batch => batch.step) := sameSteps
      rw [sameTail] at listed
      have below := later step listed
      rwa [sameStep]
    have oldest : (entry.1 :: tail.map Prod.fst).min? = some entry.1 := by
      rw [List.min?_eq_some_iff]
      refine ⟨List.mem_cons_self, ?_⟩
      intro step listed
      rcases List.mem_cons.mp listed with rfl | later
      · exact le_refl _
      · exact le_of_lt (above step later)
    have untouched : (entry :: tail).filter (fun other => decide (other.1 ≠ entry.1)) = tail := by
      rw [List.filter_cons_of_neg (by simp), List.filter_eq_self]
      intro other listed
      have below := above other.1 (List.mem_map_of_mem listed)
      exact decide_eq_true (ne_of_gt below)
    refine ⟨⟨tail, (List.nodup_cons.mp distinct).2⟩, ?_, rfl, sameSteps⟩
    have pops : popOldest ⟨entry :: tail, distinct⟩ =
        some (entry.2, OrderedDict.erase ⟨entry :: tail, distinct⟩ entry.1) := by
      rw [popOldest, OrderedDict.keys, List.map_cons, oldest, Option.bind_some, OrderedDict.get?,
        List.find?_cons_of_pos (by simp)]
      rfl
    rw [pops]
    refine congrArg (fun left => some (entry.2, left)) ?_
    rw [OrderedDict.erase]
    congr 1

/-- The batch that a used run is given of those held under its identifier. -/
def taken (manager : MultiRunManager) (held : String → List (Sent Scalar)) (idx : Nat) :
    Option (Sent Scalar) :=
  if isReady manager idx then none
  else
    (manager.idx2Id.lookup idx).bind (fun runId =>
      (held runId).head?.map (fun batch => batch.mark idx))

/-- One of these runs takes a batch of the identifier, if there is one. -/
def takes (manager : MultiRunManager) (idxs : List Nat) (runId : String) : Bool :=
  idxs.any (fun idx => !isReady manager idx && decide (manager.idx2Id.lookup idx = some runId))

theorem takes_append (manager : MultiRunManager) (idxs others : List Nat) (runId : String) :
    takes manager (idxs ++ others) runId = (takes manager idxs runId || takes manager others runId) :=
  List.any_append

/-- One pass gives the run the head of its batches. -/
theorem receive_run_spec {manager : MultiRunManager} {pending : Pending Scalar} (keyed : Keyed pending)
    (ascending : ∀ runId, ((buffered pending runId).map (fun batch => batch.step)).Pairwise (· < ·))
    (batches : List (Sent Scalar)) {idx : Nat} {runId : String}
    (named : manager.idx2Id.lookup idx = some runId) :
    ∃ next, receiveRun manager (pending, batches) idx =
        .ok (next, batches ++ (taken manager (buffered pending) idx).toList) ∧
      Keyed next ∧
      ∀ other, buffered next other =
        if takes manager [idx] other then (buffered pending other).tail else buffered pending other := by
  have takesOne (other : String) : takes manager [idx] other =
      (!isReady manager idx && decide (runId = other)) := by
    rw [takes, List.any_cons, List.any_nil, Bool.or_false, named]
    simp only [Option.some.injEq]
  rw [receiveRun, subscript_ok named, taken, named, Option.bind_some]
  change ∃ next, (if isReady manager idx = true then _ else _) = _ ∧ _
  cases ready : isReady manager idx with
  | true =>
    refine ⟨pending, ?_, keyed, ?_⟩
    · rw [if_pos rfl, if_pos rfl, Option.toList_none, List.append_nil]
    · intro other
      rw [takesOne, ready]
      rfl
  | false =>
    rw [if_neg Bool.false_ne_true, if_neg Bool.false_ne_true]
    have ownAscending := ascending runId
    cases held : buffered pending runId with
    | nil =>
      have nothing : (pending.get? runId).bind popOldest = none := by
        cases found : pending.get? runId with
        | none => rfl
        | some bucket =>
          have empty : bucket.values = [] := by
            rw [buffered, found] at held
            exact held
          have noKeys : bucket.keys = [] := by rw [keyed runId bucket found, empty]; rfl
          rw [Option.bind_some, popOldest, noKeys]
          rfl
      refine ⟨pending, ?_, keyed, ?_⟩
      · rw [nothing, List.head?_nil, Option.map_none, Option.toList_none, List.append_nil]
      · intro other
        rw [takesOne, ready]
        by_cases same : runId = other
        · rw [← same, held]
          simp
        · simp [same]
    | cons batch rest =>
      obtain ⟨bucket, found⟩ : ∃ bucket, pending.get? runId = some bucket := by
        cases found : pending.get? runId with
        | none =>
          rw [buffered, found] at held
          cases held
        | some bucket => exact ⟨bucket, rfl⟩
      have isFirst : bucket.values = batch :: rest := by
        rw [buffered, found] at held
        exact held
      have sameBuffer : buffered pending runId = bucket.values := by rw [held, isFirst]
      obtain ⟨left, pops, isLeft, ownLeft⟩ := pop_oldest_first (keyed runId bucket found) isFirst
        (sameBuffer ▸ ownAscending)
      rw [found, Option.bind_some, pops, List.head?_cons, Option.map_some, Option.toList_some]
      refine ⟨_, rfl, ?_, ?_⟩
      · split
        · exact keyed.erase runId
        · exact keyed.set runId left ownLeft
      · intro other
        rw [takesOne, ready]
        by_cases same : runId = other
        · have takesIt : (!false && decide (runId = other)) = true := by simp [same]
          rw [if_pos takesIt, ← same, held, List.tail_cons]
          split
          · rename_i empty
            rw [buffered_erase, if_pos rfl, ← isLeft, OrderedDict.values, List.isEmpty_iff.mp empty]
            rfl
          · rw [buffered_set, if_pos rfl, isLeft]
        · have leaves : ¬(!false && decide (runId = other)) = true := by simp [same]
          rw [if_neg leaves]
          split
          · rw [buffered_erase, if_neg (Ne.symm same)]
          · rw [buffered_set, if_neg (Ne.symm same)]

/-- A call returns the head of the batches held for each used run that can take
one, and leaves the rest buffered. -/
theorem zmq_receive_spec {manager : MultiRunManager} {pending : Pending Scalar} (keyed : Keyed pending)
    (available : List (String × Sent Scalar)) (held : String → List (Sent Scalar))
    (isHeld : ∀ runId, held runId = buffered pending runId ++ Gather.itemsOf available runId)
    (ascending : ∀ runId, ((held runId).map (fun batch => batch.step)).Pairwise (· < ·))
    (named : ∀ idx ∈ usedIdxs manager, ∃ runId, manager.idx2Id.lookup idx = some runId)
    (injective : ∀ idx ∈ usedIdxs manager, ∀ other ∈ usedIdxs manager, ∀ runId,
      manager.idx2Id.lookup idx = some runId → manager.idx2Id.lookup other = some runId → idx = other) :
    ∃ next, zmqReceive manager pending available =
        .ok ((usedIdxs manager).filterMap (taken manager held), next) ∧
      Keyed next ∧
      ∀ runId, buffered next runId =
        if takes manager (usedIdxs manager) runId then (held runId).tail else held runId := by
  obtain ⟨drained, drains, keyedDrained, isDrained⟩ := drain_spec keyed available (by
    intro runId
    rw [← isHeld]
    exact (ascending runId).imp (fun below => ne_of_lt below))
  have heldDrained (runId : String) : buffered drained runId = held runId :=
    (isDrained runId).trans (isHeld runId).symm
  have distinct : (usedIdxs manager).Nodup := Iteration.ascending.once _
  obtain ⟨⟨next, batches⟩, finishes, keyedNext, isNext, isBatches⟩ := Loop.completes
    (receiveRun manager)
    (fun done state => Keyed state.1 ∧
      (∀ runId, buffered state.1 runId =
        if takes manager done runId then (held runId).tail else held runId) ∧
      state.2 = done.filterMap (taken manager held))
    (usedIdxs manager)
    (by
      rintro done idx rest ⟨current, batches⟩ split ⟨keyedCurrent, isCurrent, isBatches⟩
      have listed : idx ∈ usedIdxs manager := split ▸ List.mem_append_right done List.mem_cons_self
      obtain ⟨runId, isNamed⟩ := named idx listed
      have untouched : takes manager done runId = false := by
        rw [Bool.eq_false_iff]
        intro takesIt
        obtain ⟨other, inDone, both⟩ := List.any_eq_true.mp takesIt
        have otherNamed := of_decide_eq_true (Bool.and_eq_true_iff.mp both).2
        have same := injective idx listed other (split ▸ List.mem_append_left _ inDone) runId isNamed
          otherNamed
        rw [split] at distinct
        exact (List.nodup_append.mp distinct).2.2 other inDone idx List.mem_cons_self same.symm
      have currentAscending (other : String) :
          ((buffered current other).map (fun batch => batch.step)).Pairwise (· < ·) := by
        rw [isCurrent]
        split
        · rw [List.map_tail]
          exact (ascending other).tail
        · exact ascending other
      obtain ⟨after, receives, keyedAfter, isAfter⟩ :=
        receive_run_spec keyedCurrent currentAscending batches isNamed
      have sameTaken : taken manager (buffered current) idx = taken manager held idx := by
        have sameHeld : buffered current runId = held runId := by
          rw [isCurrent, untouched]
          rfl
        rw [taken, taken, isNamed, Option.bind_some, Option.bind_some, sameHeld]
      refine ⟨_, receives, keyedAfter, ?_, ?_⟩
      · intro other
        change buffered after other = _
        rw [isAfter, takes_append, isCurrent]
        by_cases now : takes manager [idx] other = true
        · have isOther : other = runId := by
            obtain ⟨one, isOne, both⟩ := List.any_eq_true.mp now
            have oneNamed := of_decide_eq_true (Bool.and_eq_true_iff.mp both).2
            rw [List.mem_singleton.mp isOne, isNamed] at oneNamed
            exact (Option.some.inj oneNamed).symm
          rw [if_pos now, now, Bool.or_true, if_pos rfl, isOther, untouched, if_neg Bool.false_ne_true]
        · rw [if_neg now, Bool.not_eq_true] at *
          rw [now, Bool.or_false]
      · change batches ++ _ = _
        rw [List.filterMap_append, sameTaken, ← isBatches]
        cases isTaken : taken manager held idx <;> simp [isTaken])
    (drained, []) ⟨keyedDrained, fun runId => heldDrained runId, rfl⟩
  refine ⟨next, ?_, keyedNext, isNext⟩
  rw [zmqReceive, drains]
  change ((usedIdxs manager).foldlM (receiveRun manager) (drained, []) >>= _) = _
  rw [finishes]
  exact congrArg (fun batches => Except.ok (batches, next)) isBatches

end PrimeRl.Transport.Receivers
