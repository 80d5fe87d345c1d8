import Mathlib.Algebra.Ring.Int.Defs
import Mathlib.Algebra.Ring.Nat
import PrimeRl.Orchestrator.DispatcherRuns

/-!
# The off-policy bound

A version change bumps all counters at once and drops the stale groups one after
the other. A rollout past the bound is in flight only as long as its group waits to
be dropped, so the bound holds of what is put unless a task past it completes in
between.
-/

namespace PrimeRl.Orchestrator.Dispatcher

open RolloutDispatcher

universe u
variable {Trace Failure TaskData Client : Type u}

namespace RolloutDispatcher

/-- A rollout that ages and is past the bound. -/
def PastBound (dispatcher : RolloutDispatcher Trace TaskData Client)
    (metadata : InflightRollout Client) : Prop :=
  dispatcher.ages metadata = true ∧ dispatcher.config.maxOffPolicySteps < metadata.offPolicySteps

instance (dispatcher : RolloutDispatcher Trace TaskData Client) (metadata : InflightRollout Client) :
    Decidable (dispatcher.PastBound metadata) :=
  inferInstanceAs (Decidable (_ ∧ _))

/-- The kind of a group that was opened. -/
def kindOf (dispatcher : RolloutDispatcher Trace TaskData Client) (groupId : Nat) :
    Option RolloutKind :=
  (dispatcher.opened[groupId]?).map GroupState.kind

/-- What the code does between two suspensions: groups keep their kind, and a task
that is started has counted no version. -/
structure Continues (before after : RolloutDispatcher Trace TaskData Client) : Prop where
  config : after.config = before.config
  kinds : ∀ groupId kind, before.kindOf groupId = some kind → after.kindOf groupId = some kind
  started : ∀ metadata ∈ after.inflight.values, metadata ∈ before.inflight.values ∨
    metadata.offPolicySteps = 0 ∧ after.kindOf metadata.groupId = some metadata.kind

theorem Continues.refl (dispatcher : RolloutDispatcher Trace TaskData Client) :
    Continues dispatcher dispatcher where
  config := rfl
  kinds := fun _ _ same => same
  started := fun _ member => .inl member

theorem Continues.trans {first second third : RolloutDispatcher Trace TaskData Client}
    (earlier : Continues first second) (later : Continues second third) : Continues first third where
  config := later.config.trans earlier.config
  kinds := fun groupId kind same => later.kinds groupId kind (earlier.kinds groupId kind same)
  started := by
    intro metadata member
    rcases later.started metadata member with before | new
    · rcases earlier.started metadata before with inFirst | ⟨none, kind⟩
      · exact .inl inFirst
      · exact .inr ⟨none, later.kinds _ _ kind⟩
    · exact .inr new

/-- Only fields without groups, settings or tasks change, or tasks leave. -/
theorem continues_unopened {before after : RolloutDispatcher Trace TaskData Client}
    (config : after.config = before.config) (opened : after.opened = before.opened)
    (fewer : ∀ metadata ∈ after.inflight.values, metadata ∈ before.inflight.values) :
    Continues before after where
  config := config
  kinds := by
    intro groupId kind same
    rw [kindOf, opened]
    exact same
  started := fun metadata member => .inl (fewer metadata member)

/-- One group is rewritten and stays of its kind. -/
theorem continues_rewrite {before after : RolloutDispatcher Trace TaskData Client} {groupId : Nat}
    {state next : GroupState TaskData Client} (config : after.config = before.config)
    (found : before.opened[groupId]? = some state) (opened : after.opened = before.opened.set groupId next)
    (kind : next.kind = state.kind) (inflight : after.inflight = before.inflight) :
    Continues before after where
  config := config
  kinds := by
    intro other otherKind same
    rw [kindOf, opened]
    by_cases isGroup : groupId = other
    · rw [← isGroup, kindOf, found] at same
      rw [← isGroup, List.getElem?_set_self (List.getElem?_eq_some_iff.mp found).1]
      exact (congrArg some kind).trans same
    · rw [List.getElem?_set_ne isGroup]
      exact same
  started := fun metadata member => .inl (inflight ▸ member)

variable {dispatcher : RolloutDispatcher Trace TaskData Client}

/-! ## Emission and drops -/

theorem emit_continues (metadata : InflightRollout Client) (group : Option Nat) (trace : Trace) :
    Continues dispatcher (dispatcher.emitRollout metadata group trace).1 := by
  unfold emitRollout
  split
  · rename_i groupId state found
    have found : dispatcher.opened[groupId]? = some state := found
    exact continues_rewrite rfl found rfl rfl rfl
  · exact .refl dispatcher

/-- What is put carries the counter of its metadata. -/
theorem emit_stamps {metadata : InflightRollout Client} {group : Option Nat} {trace : Trace}
    {rollout : Rollout Trace} (emits : (dispatcher.emitRollout metadata group trace).2 = some rollout) :
    rollout.kind = metadata.kind ∧ rollout.envName = metadata.envName ∧
      rollout.offPolicySteps = metadata.offPolicySteps := by
  have stamped : ∃ evalStep policyVersion,
      stamp metadata evalStep policyVersion trace = some rollout := by
    unfold emitRollout at emits
    split at emits
    · exact ⟨_, _, emits⟩
    · exact ⟨_, _, emits⟩
  obtain ⟨evalStep, policyVersion, isStamp⟩ := stamped
  rw [stamp] at isStamp
  split at isStamp
  · cases isStamp
  · obtain rfl := Option.some.inj isStamp
    exact ⟨rfl, rfl, rfl⟩

/-- A train rollout always has what its stamp needs. -/
theorem emit_train (dispatcher : RolloutDispatcher Trace TaskData Client)
    {metadata : InflightRollout Client} (train : metadata.kind = .train)
    (group : Option Nat) (trace : Trace) :
    ∃ rollout, (dispatcher.emitRollout metadata group trace).2 = some rollout := by
  have stamps (evalStep : Option Int) (policyVersion : Int) :
      ∃ rollout, stamp metadata evalStep policyVersion trace = some rollout := by
    rw [stamp, if_neg (by rw [train]; exact fun both => RolloutKind.noConfusion both.1)]
    exact ⟨_, rfl⟩
  unfold emitRollout
  split
  · exact stamps _ _
  · exact stamps _ _

theorem record_dropped_continues (dispatcher : RolloutDispatcher Trace TaskData Client)
    (drop : Drop Client) :
    Continues dispatcher (dispatcher.recordDropped drop) := by
  obtain ⟨metrics, recorded⟩ := dispatcher.record_dropped_metrics drop
  rw [recorded]
  exact continues_unopened rfl rfl (fun _ member => member)

theorem complete_next_continues (traces : TraceOps Trace Failure TaskData)
    (metadata : InflightRollout Client) (group : Option Nat) (rollouts : List Trace) :
    Continues dispatcher (dispatcher.completeNext traces metadata group rollouts).1 := by
  cases rollouts with
  | nil => exact .refl dispatcher
  | cons trace rest =>
    obtain ⟨metrics, counted⟩ := dispatcher.count_error_metrics traces metadata (promote traces trace)
    have counts : Continues dispatcher { dispatcher with metrics := metrics } :=
      continues_unopened rfl rfl (fun _ member => member)
    have emits : Continues { dispatcher with metrics := metrics }
        ({ dispatcher with metrics := metrics }.emitRollout metadata group (promote traces trace)).1 :=
      emit_continues metadata group (promote traces trace)
    rw [completeNext, counted]
    split
    · rename_i emitted rollout isEmitted
      rw [isEmitted] at emits
      exact counts.trans emits
    · rename_i emitted isEmitted
      rw [isEmitted] at emits
      exact counts.trans emits

/-- Where a completed task is suspended: at the put of a rollout with its metadata, if
not for good. -/
def CompletesWith (metadata : InflightRollout Client) (coroutine : Coroutine Trace Client) : Prop :=
  coroutine = .returned ∨ coroutine = .raised ∨ ∃ group rollout rest,
    coroutine = .completing metadata group rollout rest ∧ rollout.kind = metadata.kind ∧
      rollout.envName = metadata.envName ∧ rollout.offPolicySteps = metadata.offPolicySteps

theorem complete_next_completes (traces : TraceOps Trace Failure TaskData)
    (metadata : InflightRollout Client) (group : Option Nat) (rollouts : List Trace) :
    CompletesWith metadata (dispatcher.completeNext traces metadata group rollouts).2 := by
  cases rollouts with
  | nil => exact .inl rfl
  | cons trace rest =>
    rw [completeNext]
    split
    · rename_i emitted rollout isEmitted
      exact .inr (.inr ⟨group, rollout, rest, rfl, emit_stamps (by rw [isEmitted])⟩)
    · exact .inr (.inl rfl)

end RolloutDispatcher

/-- The groups that a suspended coroutine has still to drop. -/
def Coroutine.waiting : Coroutine Trace Client → List Nat
  | .dropping _ _ _ later => later
  | .cancelling later => later
  | _ => []

namespace RolloutDispatcher

variable {dispatcher : RolloutDispatcher Trace TaskData Client}

/-- A drop of a train group, whose markers are all of train rollouts. -/
structure TrainDrop (dispatcher : RolloutDispatcher Trace TaskData Client) (drop : Drop Client)
    (rest : List (InflightRollout Client)) : Prop where
  rest : ∀ metadata ∈ rest, metadata.kind = .train
  last : ∀ metadata, drop.lastMeta = some metadata → metadata.kind = .train
  group : ∀ groupId, drop.group = some groupId → dispatcher.kindOf groupId = some .train

theorem TrainDrop.continues {after : RolloutDispatcher Trace TaskData Client} {drop : Drop Client}
    {rest : List (InflightRollout Client)} (train : TrainDrop dispatcher drop rest)
    (continues : Continues dispatcher after) : TrainDrop after drop rest where
  rest := train.rest
  last := train.last
  group := fun groupId isGroup => continues.kinds groupId _ (train.group groupId isGroup)

/-- The emission loop of a train drop does not raise. -/
def TrainMarked (dispatcher : RolloutDispatcher Trace TaskData Client) : Marked Trace Client → Prop
  | .putting drop _ rest => TrainDrop dispatcher drop rest
  | .finished _ => True
  | .raised => False

theorem mark_spec (dispatcher : RolloutDispatcher Trace TaskData Client)
    (traces : TraceOps Trace Failure TaskData) (drop : Drop Client)
    (rest : List (InflightRollout Client)) :
    Continues dispatcher (dispatcher.mark traces drop rest).1 ∧
      (dispatcher.mark traces drop rest).1.inflight = dispatcher.inflight ∧
      (TrainDrop dispatcher drop rest →
        TrainMarked (dispatcher.mark traces drop rest).1 (dispatcher.mark traces drop rest).2) := by
  cases rest with
  | nil => exact ⟨.refl dispatcher, rfl, fun _ => trivial⟩
  | cons metadata rest =>
    obtain ⟨marker, isMarker⟩ : ∃ marker, marker =
      failureRollout traces (dispatcher.object drop.group) drop.taskIdx true := ⟨_, rfl⟩
    have continues : Continues dispatcher (dispatcher.emitRollout metadata drop.group marker).1 :=
      emit_continues metadata drop.group marker
    have inflight : (dispatcher.emitRollout metadata drop.group marker).1.inflight =
        dispatcher.inflight := by
      unfold emitRollout
      split
      · rfl
      · rfl
    rw [mark, ← isMarker]
    cases emits : dispatcher.emitRollout metadata drop.group marker with
    | mk emitted rollout? =>
      rw [emits] at continues inflight
      cases rollout? with
      | some rollout =>
        refine ⟨continues, inflight, fun train => ?_⟩
        have restTrain : TrainDrop dispatcher drop rest :=
          ⟨fun other member => train.rest other (List.mem_cons_of_mem metadata member), train.last,
            train.group⟩
        exact restTrain.continues continues
      | none =>
        refine ⟨continues, inflight, fun train => ?_⟩
        obtain ⟨rollout, stamps⟩ := emit_train dispatcher
          (train.rest metadata List.mem_cons_self) drop.group marker
        rw [emits] at stamps
        cases stamps

theorem mark_next_spec (dispatcher : RolloutDispatcher Trace TaskData Client)
    (traces : TraceOps Trace Failure TaskData) (drop : Drop Client)
    (rest : List (InflightRollout Client)) :
    Continues dispatcher (dispatcher.markNext traces drop rest).1 ∧
      (dispatcher.markNext traces drop rest).1.inflight = dispatcher.inflight ∧
      (TrainDrop dispatcher drop rest →
        TrainMarked (dispatcher.markNext traces drop rest).1
          (dispatcher.markNext traces drop rest).2) := by
  unfold markNext
  split
  · split
    · exact ⟨.refl dispatcher, rfl, fun _ => trivial⟩
    · rename_i state isState
      obtain ⟨continues, inflight, marks⟩ := mark_spec dispatcher traces
        { drop with unscheduled := some state.rolloutsToSchedule }
        (List.replicate state.rolloutsToSchedule (drop.lastMeta.getD (standIn drop.groupId state)))
      refine ⟨continues, inflight, fun train => marks ⟨?_, train.last, train.group⟩⟩
      intro metadata member
      rw [List.eq_of_mem_replicate member]
      cases isLast : drop.lastMeta with
      | some metadata => exact train.last metadata isLast
      | none =>
        obtain ⟨groupId, isGroup, found⟩ := Option.bind_eq_some_iff.mp isState
        have kind := train.group groupId isGroup
        rw [kindOf, found] at kind
        exact Option.some.inj kind
  · exact mark_spec dispatcher traces drop rest

end RolloutDispatcher

/-- A drop with groups behind it is of a train group. -/
def Coroutine.Relies (dispatcher : RolloutDispatcher Trace TaskData Client) :
    Coroutine Trace Client → Prop
  | .dropping drop _ rest later => later ≠ [] → TrainDrop dispatcher drop rest
  | _ => True

theorem Coroutine.Relies.continues {before after : RolloutDispatcher Trace TaskData Client}
    {coroutine : Coroutine Trace Client} (relies : coroutine.Relies before)
    (continues : Continues before after) : coroutine.Relies after := by
  cases coroutine with
  | dropping drop rollout rest later => exact fun behind => (relies behind).continues continues
  | completing metadata group rollout rest => trivial
  | cancelling later => trivial
  | returned => trivial
  | raised => trivial

namespace RolloutDispatcher

variable {dispatcher : RolloutDispatcher Trace TaskData Client}

/-- Tasks know the kind of their group. -/
def Known (dispatcher : RolloutDispatcher Trace TaskData Client) : Prop :=
  ∀ metadata ∈ dispatcher.inflight.values, dispatcher.kindOf metadata.groupId = some metadata.kind

theorem Known.continues {after : RolloutDispatcher Trace TaskData Client} (known : dispatcher.Known)
    (continues : Continues dispatcher after) : after.Known := by
  intro metadata member
  rcases continues.started metadata member with before | ⟨-, kind⟩
  · exact continues.kinds _ _ (known metadata before)
  · exact kind

/-- Groups dropped one after another: the tasks of those that are not claimed yet
still wait. -/
structure Drops (dispatcher : RolloutDispatcher Trace TaskData Client) (groupIds : List Nat)
    (result : RolloutDispatcher Trace TaskData Client × Coroutine Trace Client) : Prop where
  continues : Continues dispatcher result.1
  fewer : ∀ metadata ∈ result.1.inflight.values, metadata ∈ dispatcher.inflight.values
  waits : ∀ metadata ∈ result.1.inflight.values, metadata.groupId ∈ groupIds →
    metadata.groupId ∈ result.2.waiting
  waiting : ∀ groupId ∈ result.2.waiting, groupId ∈ groupIds
  relies : result.2.Relies result.1
  incomplete : ∀ metadata group rollout rest, result.2 ≠ .completing metadata group rollout rest

/-- The emission loop of a drop, with the groups behind it. -/
theorem after_mark_drops {drop : Drop Client} {rest : List (InflightRollout Client)} {later : List Nat}
    (traces : TraceOps Trace Failure TaskData)
    (dropLater : RolloutDispatcher Trace TaskData Client →
      RolloutDispatcher Trace TaskData Client × Coroutine Trace Client)
    (train : later ≠ [] → TrainDrop dispatcher drop rest)
    (drops : ∀ next, Continues dispatcher next → next.inflight = dispatcher.inflight →
      Drops next later (dropLater next)) :
    Drops dispatcher later (afterMark dropLater later (dispatcher.markNext traces drop rest)) := by
  obtain ⟨continues, inflight, marks⟩ := mark_next_spec dispatcher traces drop rest
  cases marked : dispatcher.markNext traces drop rest with
  | mk next result =>
    rw [marked] at continues inflight marks
    have same : next.inflight = dispatcher.inflight := inflight
    have fewer : ∀ metadata ∈ next.inflight.values, metadata ∈ dispatcher.inflight.values :=
      fun metadata member => same ▸ member
    cases result with
    | putting dropping rollout markers =>
      exact ⟨continues, fewer, fun _ _ member => member, fun _ member => member,
        fun behind => marks (train behind), fun _ _ _ _ impossible => by cases impossible⟩
    | raised =>
      have noneBehind : later = [] := by
        by_contra behind
        exact marks (train behind)
      refine ⟨continues, fewer, ?_, ?_, trivial, fun _ _ _ _ impossible => by cases impossible⟩
      · intro metadata _ member
        rw [noneBehind] at member
        cases member
      · exact fun _ impossible => absurd impossible List.not_mem_nil
    | finished dropped =>
      obtain ⟨metrics, recorded⟩ := next.record_dropped_metrics dropped
      have records := record_dropped_continues next dropped
      have recordedInflight : (next.recordDropped dropped).inflight = dispatcher.inflight := by
        rw [recorded]
        exact same
      rw [afterMark]
      split
      · have after := drops _ (continues.trans records) recordedInflight
        refine ⟨(continues.trans records).trans after.continues, ?_, after.waits, after.waiting,
          after.relies, after.incomplete⟩
        intro metadata member
        exact recordedInflight ▸ after.fewer metadata member
      · refine ⟨continues.trans records, ?_, fun _ _ member => member, fun _ member => member, trivial,
          fun _ _ _ _ impossible => by cases impossible⟩
        intro metadata member
        exact recordedInflight ▸ member

theorem drops_nothing (dispatcher : RolloutDispatcher Trace TaskData Client) :
    Drops dispatcher [] (dispatcher, .returned) where
  continues := .refl dispatcher
  fewer := fun _ member => member
  waits := fun _ _ impossible => impossible
  waiting := fun _ impossible => impossible
  relies := trivial
  incomplete := fun _ _ _ _ impossible => nomatch impossible

theorem drop_groups_drops (traces : TraceOps Trace Failure TaskData) (groupIds : List Nat)
    (known : dispatcher.Known)
    (train : 2 ≤ groupIds.length → ∀ groupId ∈ groupIds, dispatcher.kindOf groupId = some .train) :
    Drops dispatcher groupIds (dropGroups traces groupIds dispatcher) := by
  induction groupIds generalizing dispatcher with
  | nil => exact drops_nothing dispatcher
  | cons groupId later inductionHypothesis =>
    obtain ⟨claimed, isClaimed⟩ : ∃ claimed, claimed = (dispatcher.claim groupId).1 := ⟨_, rfl⟩
    have left (metadata : InflightRollout Client) : metadata ∈ claimed.inflight.values ↔
        metadata ∈ dispatcher.inflight.values ∧ metadata.groupId ≠ groupId := by
      have isInflight : claimed.inflight =
          dispatcher.inflight.discard (fun metadata => metadata.groupId = groupId) := by
        rw [isClaimed]
        rfl
      rw [isInflight, OrderedDict.values, OrderedDict.discard, OrderedDict.values, List.mem_map,
        List.mem_map]
      constructor
      · rintro ⟨entry, listed, rfl⟩
        obtain ⟨inDict, other⟩ := List.mem_filter.mp listed
        exact ⟨⟨entry, inDict, rfl⟩, by simpa using other⟩
      · rintro ⟨⟨entry, inDict, rfl⟩, other⟩
        exact ⟨entry, List.mem_filter.mpr ⟨inDict, by simpa using other⟩, rfl⟩
    have claims : Continues dispatcher claimed := by
      apply continues_unopened
      · rw [isClaimed]
        rfl
      · rw [isClaimed]
        rfl
      · exact fun metadata member => ((left metadata).mp member).1
    have trainDrop (behind : later ≠ []) :
        TrainDrop claimed (dispatcher.claim groupId).2.1 (dispatcher.claim groupId).2.2 := by
      have kinds := train (by
        have some := List.length_pos_iff.mpr behind
        rw [List.length_cons]
        omega)
      have isTrain := kinds groupId List.mem_cons_self
      have members (metadata : InflightRollout Client)
          (member : metadata ∈ (dispatcher.inflight.entries.filter
            (fun entry => decide (entry.2.groupId = groupId))).map Prod.snd) :
          metadata.kind = .train := by
        obtain ⟨entry, listed, rfl⟩ := List.mem_map.mp member
        obtain ⟨inDict, isGroup⟩ := List.mem_filter.mp listed
        have kind := known entry.2 (List.mem_map_of_mem inDict)
        rw [of_decide_eq_true isGroup, isTrain] at kind
        exact (Option.some.inj kind).symm
      refine ⟨?_, ?_, ?_⟩
      · intro metadata member
        obtain ⟨claimedMeta, listed, copies⟩ := List.mem_flatMap.mp member
        rw [List.eq_of_mem_replicate copies]
        exact members claimedMeta listed
      · exact fun metadata isLast => members metadata (List.mem_of_getLast? isLast)
      · intro other isGroup
        have popped : dispatcher.lookup groupId = some other := isGroup
        rw [lookup] at popped
        obtain ⟨-, same⟩ := Option.ite_none_right_eq_some.mp popped
        rw [← Option.some.inj same]
        exact claims.kinds groupId _ isTrain
    have drops := after_mark_drops traces (dropGroups traces later) trainDrop (by
      intro next continues _
      have through := claims.trans continues
      apply inductionHypothesis (known.continues through)
      intro many other member
      exact through.kinds other _ (train (Nat.le_succ_of_le many) other
        (List.mem_cons_of_mem groupId member)))
    rw [dropGroups]
    change Drops dispatcher (groupId :: later) (afterMark (dropGroups traces later) later
      ((dispatcher.claim groupId).1.markNext traces _ _))
    rw [← isClaimed]
    refine ⟨claims.trans drops.continues, ?_, ?_, ?_, drops.relies, drops.incomplete⟩
    · exact fun metadata member => ((left metadata).mp (drops.fewer metadata member)).1
    · intro metadata member listed
      rcases List.mem_cons.mp listed with own | behind
      · exact absurd own ((left metadata).mp (drops.fewer metadata member)).2
      · exact drops.waits metadata member behind
    · exact fun other member => List.mem_cons_of_mem groupId (drops.waiting other member)

/-- No group waits behind the drop of a single one. -/
theorem drop_group_waiting (traces : TraceOps Trace Failure TaskData) (groupId other : Nat) :
    other ∉ (dropGroups traces [groupId] dispatcher).2.waiting := by
  have drops : Drops (dispatcher.claim groupId).1 [] (dropGroups traces [groupId] dispatcher) :=
    after_mark_drops traces (dropGroups traces []) (fun behind => absurd rfl behind)
      (fun next _ _ => drops_nothing next)
  intro waits
  exact absurd (drops.waiting other waits) List.not_mem_nil

/-! ## Scheduling -/

theorem register_continues {groupId : Nat} {state : GroupState TaskData Client}
    (found : dispatcher.opened[groupId]? = some state) (client : Client) (permits : Nat)
    (call : Call TaskData Client) :
    Continues dispatcher (dispatcher.register groupId state client permits call) where
  config := rfl
  kinds := fun _ _ same => same
  started := by
    intro metadata member
    obtain ⟨⟨task, stored⟩, listed, rfl⟩ := List.mem_map.mp member
    rcases (OrderedDict.mem_set _ _ _ _ _).mp listed with ⟨-, rfl⟩ | ⟨-, before⟩
    · refine .inr ⟨rfl, ?_⟩
      change (dispatcher.opened[groupId]?).map GroupState.kind = some state.kind
      rw [found]
      rfl
    · exact .inl (List.mem_map_of_mem before)

theorem dispatch_continues {groupId : Nat} {state : GroupState TaskData Client}
    (found : dispatcher.opened[groupId]? = some state) (client : Client) (modelName : String)
    (liveSourced : Bool) :
    Continues dispatcher (dispatcher.dispatch groupId state client modelName liveSourced).1 := by
  rw [dispatch]
  split
  · exact .refl dispatcher
  · rename_i envs _
    obtain ⟨permits, call⟩ := taskCall (envs state.envName) state client modelName liveSourced
    obtain ⟨reserved, isReserved⟩ : ∃ reserved, reserved =
        { state with rolloutsToSchedule := state.rolloutsToSchedule - permits } := ⟨_, rfl⟩
    have kind : reserved.kind = state.kind := by rw [isReserved]
    dsimp only
    rw [← isReserved]
    have takes : Continues dispatcher
        { dispatcher with opened := dispatcher.opened.set groupId reserved } :=
      continues_rewrite rfl found rfl kind rfl
    split
    · exact takes
    · have acquires : Continues { dispatcher with opened := dispatcher.opened.set groupId reserved }
          { dispatcher with
            opened := dispatcher.opened.set groupId reserved
            inflightPermits := dispatcher.inflightPermits + permits } :=
        continues_unopened rfl rfl (fun _ member => member)
      refine (takes.trans acquires).trans (register_continues ?_ client permits call)
      exact List.getElem?_set_self (List.getElem?_eq_some_iff.mp found).1

theorem schedule_group_continues {groupId : Nat} {state : GroupState TaskData Client}
    (found : dispatcher.opened[groupId]? = some state) :
    Continues dispatcher (dispatcher.scheduleGroupRollout groupId state).1 := by
  unfold scheduleGroupRollout
  dsimp only
  split
  · exact .refl dispatcher
  · exact dispatch_continues found _ _ _

theorem client_selected_continues (groupId : Nat) (modelName : String) (liveSourced : Bool)
    (client : Client) : Continues dispatcher
      (dispatcher.clientSelected groupId modelName liveSourced client).1 := by
  rw [clientSelected]
  split
  · exact .refl dispatcher
  · rename_i state found
    split
    · have pins : Continues dispatcher { dispatcher with
          opened := dispatcher.opened.set groupId { state with pinnedClient := some client } } :=
        continues_rewrite rfl found rfl rfl rfl
      refine pins.trans (dispatch_continues ?_ client modelName liveSourced)
      exact List.getElem?_set_self (List.getElem?_eq_some_iff.mp found).1
    · exact .refl dispatcher

theorem permit_acquired_continues (groupId : Nat) (client : Client) (permits left : Nat)
    (call : Call TaskData Client) : Continues dispatcher
      (dispatcher.permitAcquired groupId client permits left call).1 := by
  have reserves : Continues dispatcher
      { dispatcher with inflightPermits := dispatcher.inflightPermits + 1 } :=
    continues_unopened rfl rfl (fun _ member => member)
  rw [permitAcquired]
  split
  · split
    · exact reserves
    · rename_i state found
      refine reserves.trans (register_continues ?_ client permits call)
      exact found
  · exact reserves

theorem try_schedule_continues (kind : RolloutKind) (nextExample : Option (Example TaskData)) :
    Continues dispatcher (dispatcher.trySchedule kind nextExample).1 := by
  rw [trySchedule]
  split
  · exact .refl dispatcher
  · split
    · exact .refl dispatcher
    · rename_i envs _
      split
      · split
        · exact .refl dispatcher
        · rename_i state found
          exact schedule_group_continues found
      · split
        · exact .refl dispatcher
        · rename_i picked
          obtain ⟨fresh, isFresh⟩ : ∃ fresh, fresh =
            dispatcher.nextFreshGroup kind (envs picked.envName) picked := ⟨_, rfl⟩
          dsimp only
          rw [← isFresh]
          have opens : Continues dispatcher { dispatcher with
              opened := dispatcher.opened ++ [fresh]
              groups := dispatcher.groups ++ [dispatcher.opened.length] } := by
            refine ⟨rfl, ?_, fun _ member => .inl member⟩
            intro groupId groupKind same
            have inside : groupId < dispatcher.opened.length := by
              by_contra outside
              rw [kindOf, List.getElem?_eq_none (Nat.not_lt.mp outside)] at same
              cases same
            change ((dispatcher.opened ++ [fresh])[groupId]?).map GroupState.kind = some groupKind
            rw [List.getElem?_append_left inside]
            exact same
          exact opens.trans (schedule_group_continues List.getElem?_concat_length)

/-- A task that is handled leaves, and its metadata goes with its rollouts. -/
theorem handle_continues (traces : TraceOps Trace Failure TaskData) (task : Nat)
    (outcome : TaskOutcome Trace Failure) :
    Continues dispatcher (dispatcher.handleCompletedRollout traces task outcome).1 := by
  unfold handleCompletedRollout
  split
  · exact .refl dispatcher
  · rename_i metadata _
    have pops : Continues dispatcher
        ({ dispatcher with inflight := dispatcher.inflight.erase task }.release
          metadata.rolloutCount) := by
      refine continues_unopened rfl rfl ?_
      intro other member
      obtain ⟨entry, listed, rfl⟩ := List.mem_map.mp member
      exact List.mem_map_of_mem (List.mem_of_mem_filter listed)
    dsimp only
    split
    · exact pops.trans (complete_next_continues traces metadata _ _)
    · exact pops
    · exact pops
    · exact pops.trans (complete_next_continues traces metadata _ _)

end RolloutDispatcher

/-- A completion that puts a rollout: it was not cancelled and is not empty. -/
def TaskOutcome.Emits : TaskOutcome Trace Failure → Prop
  | .returned rollouts => rollouts ≠ []
  | .failed _ => True
  | _ => False

instance : (outcome : TaskOutcome Trace Failure) → Decidable outcome.Emits
  | .returned rollouts => decidable_of_iff (¬rollouts.isEmpty) (not_congr List.isEmpty_iff)
  | .failed _ => isTrue trivial
  | .unsupported => isFalse id
  | .cancelled => isFalse id

namespace RolloutDispatcher

variable {dispatcher : RolloutDispatcher Trace TaskData Client}

/-- A handled task puts rollouts with its metadata, if it returned or failed. -/
theorem handle_completes (traces : TraceOps Trace Failure TaskData) (task : Nat)
    (outcome : TaskOutcome Trace Failure) :
    (dispatcher.handleCompletedRollout traces task outcome).2 = .returned ∨
      (dispatcher.handleCompletedRollout traces task outcome).2 = .raised ∨
      ∃ metadata, dispatcher.inflight.get? task = some metadata ∧
        outcome.Emits ∧ CompletesWith metadata (dispatcher.handleCompletedRollout traces task outcome).2 := by
  unfold handleCompletedRollout
  split
  · exact .inl rfl
  · rename_i metadata found
    dsimp only
    split
    · rename_i rollouts
      by_cases none : rollouts = []
      · rw [none]
        exact .inl rfl
      · exact .inr (.inr ⟨metadata, found, none, complete_next_completes traces metadata _ _⟩)
    · exact .inl rfl
    · exact .inr (.inl rfl)
    · exact .inr (.inr ⟨metadata, found, trivial, complete_next_completes traces metadata _ _⟩)

end RolloutDispatcher

/-! ## Runs -/

/-- The rollouts of a completed task are within the bound, and the one at its put is
stamped with their metadata. -/
def Coroutine.Within (dispatcher : RolloutDispatcher Trace TaskData Client) :
    Coroutine Trace Client → Prop
  | .completing metadata _ putting _ => ¬dispatcher.PastBound metadata ∧
      putting.kind = metadata.kind ∧ putting.envName = metadata.envName ∧
      putting.offPolicySteps = metadata.offPolicySteps
  | _ => True

theorem past_bound_settings {before after : RolloutDispatcher Trace TaskData Client}
    (config : after.config = before.config) (metadata : InflightRollout Client) :
    after.PastBound metadata ↔ before.PastBound metadata := by
  rw [PastBound, PastBound, ages, ages, config]

theorem Coroutine.Within.continues {before after : RolloutDispatcher Trace TaskData Client}
    {coroutine : Coroutine Trace Client} (within : coroutine.Within before)
    (config : after.config = before.config) : coroutine.Within after := by
  cases coroutine with
  | completing metadata group rollout rest =>
    exact ⟨fun past => within.1 ((past_bound_settings config metadata).mp past), within.2⟩
  | dropping drop rollout rest later => trivial
  | cancelling later => trivial
  | returned => trivial
  | raised => trivial

/-- A train rollout of a live policy that a completed task puts is within the bound. -/
def Coroutine.PutsWithin (dispatcher : RolloutDispatcher Trace TaskData Client) :
    Coroutine Trace Client → Prop
  | .completing _ _ putting _ => putting.kind = .train →
      (dispatcher.config.trainEnvs putting.envName).samplesFromLivePolicy = true →
      putting.offPolicySteps ≤ dispatcher.config.maxOffPolicySteps
  | _ => True

instance (dispatcher : RolloutDispatcher Trace TaskData Client) :
    (coroutine : Coroutine Trace Client) → Decidable (coroutine.PutsWithin dispatcher)
  | .completing _ _ putting _ =>
    inferInstanceAs (Decidable (putting.kind = .train →
      (dispatcher.config.trainEnvs putting.envName).samplesFromLivePolicy = true →
      putting.offPolicySteps ≤ dispatcher.config.maxOffPolicySteps))
  | .dropping _ _ _ _ => isTrue trivial
  | .cancelling _ => isTrue trivial
  | .returned => isTrue trivial
  | .raised => isTrue trivial

namespace DispatcherRun

/-- Tasks past the bound wait for the drop of their group. -/
structure Bounded (dispatcher : RolloutDispatcher Trace TaskData Client)
    (coroutines : List (Coroutine Trace Client)) : Prop where
  bound : 0 ≤ dispatcher.config.maxOffPolicySteps
  known : dispatcher.Known
  waits : ∀ metadata ∈ dispatcher.inflight.values, dispatcher.PastBound metadata →
    ∃ coroutine ∈ coroutines, metadata.groupId ∈ coroutine.waiting
  train : ∀ coroutine ∈ coroutines, ∀ groupId ∈ coroutine.waiting,
    dispatcher.kindOf groupId = some .train
  relies : ∀ coroutine ∈ coroutines, coroutine.Relies dispatcher
  within : ∀ coroutine ∈ coroutines, coroutine.Within dispatcher

variable {dispatcher next : RolloutDispatcher Trace TaskData Client}
  {coroutine : Coroutine Trace Client} {coroutines others : List (Coroutine Trace Client)}

theorem Bounded.perm (bounded : Bounded dispatcher coroutines) (same : coroutines.Perm others) :
    Bounded dispatcher others where
  bound := bounded.bound
  known := bounded.known
  waits := by
    intro metadata member past
    obtain ⟨waiting, listed, isWaiting⟩ := bounded.waits metadata member past
    exact ⟨waiting, same.subset listed, isWaiting⟩
  train := fun other member => bounded.train other (same.symm.subset member)
  relies := fun other member => bounded.relies other (same.symm.subset member)
  within := fun other member => bounded.within other (same.symm.subset member)

/-- A new task has not counted any version. -/
theorem Bounded.before (bounded : Bounded dispatcher coroutines)
    (continues : Continues dispatcher next) {metadata : InflightRollout Client}
    (member : metadata ∈ next.inflight.values) (past : next.PastBound metadata) :
    metadata ∈ dispatcher.inflight.values ∧ dispatcher.PastBound metadata := by
  have pastBefore := (past_bound_settings continues.config metadata).mp past
  rcases continues.started metadata member with before | ⟨none, -⟩
  · exact ⟨before, pastBefore⟩
  · have above := pastBefore.2
    have bound := bounded.bound
    omega

/-- The scheduling call goes on. -/
theorem Bounded.scheduled (bounded : Bounded dispatcher coroutines)
    (continues : Continues dispatcher next) : Bounded next coroutines where
  bound := continues.config ▸ bounded.bound
  known := bounded.known.continues continues
  waits := by
    intro metadata member past
    obtain ⟨inBefore, pastBefore⟩ := bounded.before continues member past
    exact bounded.waits metadata inBefore pastBefore
  train := fun other member groupId waits => continues.kinds _ _ (bounded.train other member groupId waits)
  relies := fun other member => (bounded.relies other member).continues continues
  within := fun other member => (bounded.within other member).continues continues.config

/-- A coroutine goes on to its next suspension. It still drops what was waiting for it. -/
theorem Bounded.suspended (bounded : Bounded dispatcher (coroutine :: others))
    {after : Coroutine Trace Client} (continues : Continues dispatcher next)
    (kept : ∀ metadata ∈ next.inflight.values, metadata.groupId ∈ coroutine.waiting →
      metadata.groupId ∈ after.waiting)
    (train : ∀ groupId ∈ after.waiting, next.kindOf groupId = some .train)
    (relies : after.Relies next) (within : after.Within next) : Bounded next (after :: others) where
  bound := continues.config ▸ bounded.bound
  known := bounded.known.continues continues
  waits := by
    intro metadata member past
    obtain ⟨inBefore, pastBefore⟩ := bounded.before continues member past
    obtain ⟨waiting, listed, isWaiting⟩ := bounded.waits metadata inBefore pastBefore
    rcases List.mem_cons.mp listed with rfl | other
    · exact ⟨after, List.mem_cons_self, kept metadata member isWaiting⟩
    · exact ⟨waiting, List.mem_cons_of_mem _ other, isWaiting⟩
  train := by
    intro other member groupId waits
    rcases List.mem_cons.mp member with rfl | earlier
    · exact train groupId waits
    · exact continues.kinds _ _
        (bounded.train other (List.mem_cons_of_mem _ earlier) groupId waits)
  relies := by
    intro other member
    rcases List.mem_cons.mp member with rfl | earlier
    · exact relies
    · exact (bounded.relies other (List.mem_cons_of_mem _ earlier)).continues continues
  within := by
    intro other member
    rcases List.mem_cons.mp member with rfl | earlier
    · exact within
    · exact (bounded.within other (List.mem_cons_of_mem _ earlier)).continues continues.config

/-- A coroutine that has returned can be thought of before a new one starts. -/
theorem Bounded.returned (bounded : Bounded dispatcher coroutines) :
    Bounded dispatcher (.returned :: coroutines) where
  bound := bounded.bound
  known := bounded.known
  waits := by
    intro metadata member past
    obtain ⟨waiting, listed, isWaiting⟩ := bounded.waits metadata member past
    exact ⟨waiting, List.mem_cons_of_mem _ listed, isWaiting⟩
  train := by
    intro other member groupId waits
    rcases List.mem_cons.mp member with rfl | earlier
    · cases waits
    · exact bounded.train other earlier groupId waits
  relies := by
    intro other member
    rcases List.mem_cons.mp member with rfl | earlier
    · trivial
    · exact bounded.relies other earlier
  within := by
    intro other member
    rcases List.mem_cons.mp member with rfl | earlier
    · trivial
    · exact bounded.within other earlier

theorem put_continues {rollout : Rollout Trace} (accepted : put dispatcher rollout = some next) :
    Continues dispatcher next := by
  obtain ⟨-, ⟨rfl⟩⟩ := Option.ite_none_right_eq_some.mp accepted
  exact continues_unopened rfl rfl (fun _ member => member)

/-- A drop's coroutine completes no task. -/
theorem drops_within {groupIds : List Nat}
    {result : RolloutDispatcher Trace TaskData Client × Coroutine Trace Client}
    (drops : Drops dispatcher groupIds result) : result.2.Within result.1 := by
  cases isResult : result.2 with
  | completing metadata group rollout rest =>
    exact absurd isResult (drops.incomplete metadata group rollout rest)
  | dropping drop rollout rest later => trivial
  | cancelling later => trivial
  | returned => trivial
  | raised => trivial

/-- A completed task within the bound goes on to its next put. -/
theorem Bounded.completes (bounded : Bounded dispatcher (coroutine :: others))
    {after : Coroutine Trace Client} {metadata : InflightRollout Client}
    (continues : Continues dispatcher next) (nothing : coroutine.waiting = [])
    (completes : CompletesWith metadata after)
    (within : ∀ group rollout rest, after = .completing metadata group rollout rest →
      ¬next.PastBound metadata) : Bounded next (after :: others) := by
  refine bounded.suspended continues ?_ ?_ ?_ ?_
  · intro other _ waits
    rw [nothing] at waits
    cases waits
  · intro groupId waits
    rcases completes with rfl | rfl | ⟨group, rollout, rest, rfl, -⟩
    · cases waits
    · cases waits
    · cases waits
  · rcases completes with rfl | rfl | ⟨group, rollout, rest, rfl, -⟩
    · trivial
    · trivial
    · trivial
  · rcases completes with rfl | rfl | ⟨group, rollout, rest, rfl, stamps⟩
    · trivial
    · trivial
    · exact ⟨within group rollout rest rfl, stamps⟩

/-- Groups are dropped in the coroutine that they wait for. -/
theorem Bounded.drops (bounded : Bounded dispatcher (coroutine :: others))
    {result : RolloutDispatcher Trace TaskData Client × Coroutine Trace Client} {groupIds : List Nat}
    (waiting : ∀ groupId ∈ coroutine.waiting, groupId ∈ groupIds)
    (drops : Drops dispatcher groupIds result)
    (train : ∀ groupId ∈ result.2.waiting, dispatcher.kindOf groupId = some .train) :
    Bounded result.1 (result.2 :: others) :=
  bounded.suspended drops.continues
    (fun metadata member waits => drops.waits metadata member (waiting _ waits))
    (fun groupId waits => drops.continues.kinds _ _ (train groupId waits)) drops.relies
    (drops_within drops)

/-- A coroutine that resumes keeps the bound. -/
theorem Bounded.resumed {result : RolloutDispatcher Trace TaskData Client × Coroutine Trace Client}
    (traces : TraceOps Trace Failure TaskData) (bounded : Bounded dispatcher (coroutine :: others))
    (ran : resumed traces dispatcher coroutine = some result) :
    Bounded result.1 (result.2 :: others) := by
  have train := bounded.train coroutine List.mem_cons_self
  have relies := bounded.relies coroutine List.mem_cons_self
  have within := bounded.within coroutine List.mem_cons_self
  cases coroutine with
  | completing metadata group putting rest =>
    obtain ⟨behind, accepted, rfl⟩ := Option.map_eq_some_iff.mp ran
    have puts := put_continues accepted
    have goesOn : Continues behind (behind.completeNext traces metadata group rest).1 :=
      complete_next_continues traces metadata group rest
    refine bounded.completes (puts.trans goesOn) rfl
      (complete_next_completes traces metadata group rest) ?_
    intro _ _ _ _ past
    exact within.1 ((past_bound_settings (puts.trans goesOn).config metadata).mp past)
  | dropping drop putting rest later =>
    obtain ⟨behind, accepted, rfl⟩ := Option.map_eq_some_iff.mp ran
    have puts := put_continues accepted
    have after : Bounded behind (.dropping drop putting rest later :: others) := bounded.suspended puts
      (fun _ _ waits => waits) (fun groupId waits => puts.kinds _ _ (train groupId waits))
      (relies.continues puts) trivial
    have drops := after_mark_drops traces (dropGroups traces later)
      (fun some => (relies some).continues puts) (fun next continues _ =>
        drop_groups_drops traces later (after.known.continues continues)
          (fun _ groupId member =>
            continues.kinds _ _ (puts.kinds _ _ (train groupId member))))
    exact after.drops (fun _ waits => waits) drops
      (fun groupId waits => puts.kinds _ _ (train groupId (drops.waiting groupId waits)))
  | cancelling later =>
    obtain rfl := Option.some.inj ran
    have drops := drop_groups_drops traces later bounded.known (fun _ => train)
    exact bounded.drops (fun _ waits => waits) drops
      (fun groupId waits => train groupId (drops.waiting groupId waits))
  | returned => cases ran
  | raised => cases ran

/-- A version change leaves the stale groups to the coroutine that drops them. -/
theorem Bounded.aged (bounded : Bounded dispatcher coroutines) {order : List Nat}
    (stale : order.Perm dispatcher.age.staleGroups) :
    Bounded dispatcher.age (.cancelling order :: coroutines) := by
  have aged {metadata : InflightRollout Client} (member : metadata ∈ dispatcher.age.inflight.values) :
      ∃ before ∈ dispatcher.inflight.values, metadata.groupId = before.groupId ∧
        metadata.kind = before.kind := by
    obtain ⟨entry, listed, rfl⟩ := List.mem_map.mp member
    obtain ⟨old, inDict, rfl⟩ := List.mem_map.mp listed
    refine ⟨old.2, List.mem_map_of_mem inDict, ?_⟩
    dsimp only
    split
    · exact ⟨rfl, rfl⟩
    · exact ⟨rfl, rfl⟩
  have known : dispatcher.age.Known := by
    intro metadata member
    obtain ⟨before, inBefore, group, kind⟩ := aged member
    rw [group, kind]
    exact bounded.known before inBefore
  refine ⟨bounded.bound, known, ?_, ?_, ?_, ?_⟩
  · intro metadata member past
    refine ⟨_, List.mem_cons_self, stale.symm.subset ?_⟩
    refine List.mem_dedup.mpr (List.mem_map.mpr ⟨metadata, List.mem_filter.mpr ⟨member, ?_⟩, rfl⟩)
    rw [past.1, Bool.true_and]
    exact decide_eq_true past.2
  · intro other member groupId waits
    rcases List.mem_cons.mp member with rfl | earlier
    · obtain ⟨metadata, listed, rfl⟩ := List.mem_map.mp (List.mem_dedup.mp (stale.subset waits))
      obtain ⟨inflight, isStale⟩ := List.mem_filter.mp listed
      have isTrain : metadata.kind = .train :=
        of_decide_eq_true (Bool.and_eq_true_iff.mp (Bool.and_eq_true_iff.mp isStale).1).1
      rw [← isTrain]
      exact known metadata inflight
    · exact bounded.train other earlier groupId waits
  · intro other member
    rcases List.mem_cons.mp member with rfl | earlier
    · trivial
    · have relies := bounded.relies other earlier
      cases other with
      | dropping drop rollout rest later =>
        exact fun behind => ⟨(relies behind).rest, (relies behind).last, (relies behind).group⟩
      | completing metadata group rollout rest => trivial
      | cancelling later => trivial
      | returned => trivial
      | raised => trivial
  · intro other member
    rcases List.mem_cons.mp member with rfl | earlier
    · trivial
    · exact (bounded.within other earlier).continues rfl

/-- No task past the bound returns rollouts or fails while its group waits to be dropped. -/
def Unraced (run : DispatcherRun Trace TaskData Client) :
    DispatcherAction Trace Failure TaskData Client → Prop
  | .handleCompleted task outcome => ∀ metadata ∈ run.dispatcher.inflight.get? task,
      outcome.Emits → run.dispatcher.PastBound metadata →
      ∀ coroutine ∈ run.coroutines, metadata.groupId ∉ coroutine.waiting
  | _ => True

/-- What a resumed coroutine was about to put was within the bound. -/
def PutsWithin (run : DispatcherRun Trace TaskData Client) :
    DispatcherAction Trace Failure TaskData Client → Prop
  | .resume index => ∀ coroutine ∈ run.coroutines[index]?, coroutine.PutsWithin run.dispatcher
  | _ => True

instance (run : DispatcherRun Trace TaskData Client) :
    (action : DispatcherAction Trace Failure TaskData Client) → Decidable (Unraced run action)
  | .handleCompleted task outcome =>
    inferInstanceAs (Decidable (∀ metadata ∈ run.dispatcher.inflight.get? task, outcome.Emits →
      run.dispatcher.PastBound metadata →
      ∀ coroutine ∈ run.coroutines, metadata.groupId ∉ coroutine.waiting))
  | .trySchedule _ _ => isTrue trivial
  | .clientSelected _ => isTrue trivial
  | .permitAcquired => isTrue trivial
  | .versionPending _ => isTrue trivial
  | .dropGroup _ => isTrue trivial
  | .resume _ => isTrue trivial
  | .receive => isTrue trivial
  | .setPolicy _ => isTrue trivial
  | .disableTrainScheduling => isTrue trivial

instance (run : DispatcherRun Trace TaskData Client) :
    (action : DispatcherAction Trace Failure TaskData Client) → Decidable (PutsWithin run action)
  | .resume index =>
    inferInstanceAs (Decidable (∀ coroutine ∈ run.coroutines[index]?,
      coroutine.PutsWithin run.dispatcher))
  | .handleCompleted _ _ => isTrue trivial
  | .trySchedule _ _ => isTrue trivial
  | .clientSelected _ => isTrue trivial
  | .permitAcquired => isTrue trivial
  | .versionPending _ => isTrue trivial
  | .dropGroup _ => isTrue trivial
  | .receive => isTrue trivial
  | .setPolicy _ => isTrue trivial
  | .disableTrainScheduling => isTrue trivial

variable {run after : DispatcherRun Trace TaskData Client}

/-- The invariant of a run. -/
def Bounds (run : DispatcherRun Trace TaskData Client) : Prop :=
  Bounded run.dispatcher run.coroutines

theorem Bounds.puts_within (bounds : Bounds run)
    (action : DispatcherAction Trace Failure TaskData Client) : PutsWithin run action := by
  cases action with
  | resume index =>
    intro coroutine found
    have within := bounds.within coroutine (List.mem_of_getElem? found)
    cases coroutine with
    | completing metadata group putting rest =>
      obtain ⟨within, kind, envName, steps⟩ := within
      intro train live
      by_contra above
      refine within ⟨?_, by omega⟩
      rw [ages, ← kind, ← envName, train, live]
      rfl
    | dropping drop rollout rest later => trivial
    | cancelling later => trivial
    | returned => trivial
    | raised => trivial
  | _ => trivial

theorem Bounds.step (traces : TraceOps Trace Failure TaskData) (bounds : Bounds run)
    (action : DispatcherAction Trace Failure TaskData Client) (unraced : Unraced run action)
    (accepted : run.step traces action = some after) : Bounds after := by
  cases action with
  | trySchedule kind nextExample =>
    simp only [DispatcherRun.step] at accepted
    split at accepted
    · obtain rfl := Option.some.inj accepted
      exact bounds.scheduled (try_schedule_continues kind nextExample)
    · cases accepted
  | clientSelected client =>
    simp only [DispatcherRun.step] at accepted
    split at accepted
    · rename_i groupId modelName liveSourced _
      obtain rfl := Option.some.inj accepted
      exact bounds.scheduled (client_selected_continues groupId modelName liveSourced client)
    · cases accepted
  | permitAcquired =>
    simp only [DispatcherRun.step] at accepted
    split at accepted
    · rename_i groupId client permits left call _
      obtain rfl := Option.some.inj accepted
      exact bounds.scheduled (permit_acquired_continues groupId client permits left call)
    · cases accepted
  | handleCompleted task outcome =>
    obtain rfl := Option.some.inj accepted
    have continues : Continues run.dispatcher
        (run.dispatcher.handleCompletedRollout traces task outcome).1 :=
      handle_continues traces task outcome
    refine (Bounded.perm ?_ (List.perm_append_singleton _ _).symm)
    rcases handle_completes traces task outcome with ended | raised | ⟨metadata, found, ends, completes⟩
    · rw [ended]
      exact bounds.returned.suspended continues (fun _ _ waits => waits) (fun _ waits => by cases waits)
        trivial trivial
    · rw [raised]
      exact bounds.returned.suspended continues (fun _ _ waits => waits) (fun _ waits => by cases waits)
        trivial trivial
    · refine bounds.returned.completes continues rfl completes ?_
      intro _ _ _ _ past
      have pastBefore := (past_bound_settings continues.config metadata).mp past
      have inflight : metadata ∈ run.dispatcher.inflight.values :=
        List.mem_map.mpr ⟨_, (OrderedDict.get?_eq_some_iff _ _ _).mp found, rfl⟩
      obtain ⟨waiting, listed, isWaiting⟩ := bounds.waits metadata inflight pastBefore
      exact unraced metadata found ends pastBefore waiting listed isWaiting
  | versionPending order =>
    obtain ⟨stale, ⟨rfl⟩⟩ := Option.ite_none_right_eq_some.mp accepted
    refine Bounded.perm ?_ (List.perm_append_singleton _ _).symm
    exact (Bounded.aged bounds stale).resumed traces rfl
  | dropGroup groupId =>
    obtain rfl := Option.some.inj accepted
    refine Bounded.perm ?_ (List.perm_append_singleton _ _).symm
    have drops := drop_groups_drops traces [groupId] bounds.known
      (fun many => absurd many (by rw [List.length_singleton]; omega))
    exact bounds.returned.drops (fun _ impossible => absurd impossible List.not_mem_nil) drops
      (fun other waits => absurd waits (drop_group_waiting traces groupId other))
  | resume index =>
    obtain ⟨coroutine, found, accepted⟩ := Option.bind_eq_some_iff.mp accepted
    obtain ⟨result, ran, rfl⟩ := Option.map_eq_some_iff.mp accepted
    obtain ⟨others, before, replaced⟩ := Pool.set_perm run.coroutines index coroutine found
    exact ((Bounded.perm bounds before).resumed traces ran).perm (replaced result.2).symm
  | receive =>
    simp only [DispatcherRun.step] at accepted
    split at accepted
    · cases accepted
    · obtain rfl := Option.some.inj accepted
      exact bounds.scheduled (continues_unopened rfl rfl (fun _ member => member))
  | setPolicy policy =>
    obtain rfl := Option.some.inj accepted
    exact bounds.scheduled (continues_unopened rfl rfl (fun _ member => member))
  | disableTrainScheduling =>
    obtain rfl := Option.some.inj accepted
    exact bounds.scheduled (continues_unopened rfl rfl (fun _ member => member))

/-- Before the first group nothing is in flight. -/
theorem start_bounds (config : DispatcherConfig) (policy : Policy)
    (bound : 0 ≤ config.maxOffPolicySteps) :
    Bounds (start config policy : DispatcherRun Trace TaskData Client) where
  bound := bound
  known := fun _ impossible => absurd impossible List.not_mem_nil
  waits := fun _ impossible => absurd impossible List.not_mem_nil
  train := fun _ impossible => absurd impossible List.not_mem_nil
  relies := fun _ impossible => absurd impossible List.not_mem_nil
  within := fun _ impossible => absurd impossible List.not_mem_nil

/-- The off-policy bound holds along every run in which no task past it completes while
its group waits to be dropped. -/
theorem off_policy_bound_holds (traces : TraceOps Trace Failure TaskData) (config : DispatcherConfig)
    (policy : Policy) (bound : 0 ≤ config.maxOffPolicySteps)
    (actions : List (DispatcherAction Trace Failure TaskData Client))
    (unraced : Machine.Along (step traces) Unraced (start config policy) actions) :
    Machine.Along (step traces) PutsWithin (start config policy) actions := by
  apply Machine.along_of_invariant Bounds
  · intro run action bounds _
    exact bounds.puts_within action
  · intro run action next bounds needed accepted
    exact bounds.step traces action needed accepted
  · exact start_bounds config policy bound
  · exact unraced

/-- One version change with room for it, and a second one that drops the group before its
task returns. -/
theorem off_policy_bound_two_changes :
    let config : DispatcherConfig :=
      { trainEnvs := fun _ => ⟨⟨false, 1, by decide⟩, true, ""⟩
        evalEnvs := none
        maxInflightRollouts := 8
        rateLimited := false
        maxOffPolicySteps := 1 }
    let actions : List (DispatcherAction (List (String × String) × Nat) String Unit Nat) :=
      [.trySchedule .train (some ⟨"env", 7, some (), none⟩), .clientSelected 0,
        .trySchedule .train (some ⟨"env", 8, some (), none⟩), .clientSelected 0, .versionPending [],
        .handleCompleted 0 (.returned [([], 5)]), .resume 1, .versionPending [1], .resume 2,
        .handleCompleted 1 (.returned [([], 5)])]
    (Machine.run (step errorTraces) (start config {}) actions).isSome ∧
      Machine.Along (step errorTraces) PutsWithin (start config {}) actions := by
  intro config actions
  refine ⟨by decide +kernel, ?_⟩
  exact off_policy_bound_holds errorTraces config {} (by decide) actions (by decide +kernel)

/-- Two groups are past the bound. While the task of the first one winds down, the task of the
second one returns, and its rollout is put although it is one version too old. -/
theorem off_policy_bound_raced :
    ¬∀ (config : DispatcherConfig) (policy : Policy)
      (actions : List (DispatcherAction (List (String × String) × Nat) String Unit Nat)),
      0 ≤ config.maxOffPolicySteps →
      Machine.Along (step errorTraces) PutsWithin (start config policy) actions := by
  intro holds
  refine absurd (holds
    { trainEnvs := fun _ => ⟨⟨false, 1, by decide⟩, true, ""⟩
      evalEnvs := none
      maxInflightRollouts := 8
      rateLimited := false
      maxOffPolicySteps := 0 } {}
    [.trySchedule .train (some ⟨"env", 7, some (), none⟩), .clientSelected 0,
      .trySchedule .train (some ⟨"env", 8, some (), none⟩), .clientSelected 0, .versionPending [0, 1],
      .resume 0, .handleCompleted 1 (.returned [([], 5)]), .resume 1] (by decide)) ?_
  decide +kernel

end DispatcherRun

end PrimeRl.Orchestrator.Dispatcher
