import Mathlib.Algebra.Ring.Int.Defs
import Mathlib.Algebra.Ring.Nat
import PrimeRl.Orchestrator.DispatcherBooks

/-!
# Coroutines of the dispatcher

A coroutine that handles a finished task or drops groups sends one rollout at
each suspension and owes what its loop has not reached. Each runs from one
suspension to the next with the books kept.
-/

namespace PrimeRl.Orchestrator.Dispatcher

open RolloutDispatcher

universe u
variable {Trace Failure TaskData Client : Type u}
  {dispatcher before after : RolloutDispatcher Trace TaskData Client}

/-- A drop holds the group it popped until it looks for rollouts that were never
dispatched. -/
def Drop.holds (drop : Drop Client) (groupId : Nat) : Bool :=
  decide (drop.unscheduled = none ∧ drop.group = some groupId)

def Coroutine.holds : Coroutine Trace Client → Nat → Bool
  | .dropping drop _ _ _ => drop.holds
  | _ => fun _ => false

/-- What a drop owes for rollouts it has not looked for yet. -/
def Drop.owes (drop : Drop Client) (dispatcher : RolloutDispatcher Trace TaskData Client)
    (groupId : Nat) : Nat :=
  if drop.unscheduled = none ∧ drop.group = some groupId then
    dispatcher.tally GroupState.rolloutsToSchedule groupId
  else 0

/-- The rollout a coroutine is putting. -/
def Coroutine.sent : Coroutine Trace Client → Nat → Nat
  | .completing _ _ rollout _ => unit rollout.groupId
  | .dropping _ rollout _ _ => unit rollout.groupId
  | _ => fun _ => 0

/-- The rollouts a coroutine will emit behind that. -/
def Coroutine.owes (dispatcher : RolloutDispatcher Trace TaskData Client) :
    Coroutine Trace Client → Nat → Nat
  | .completing metadata _ _ rest => fun groupId => rest.length * unit metadata.groupId groupId
  | .dropping drop _ rest _ => fun groupId =>
    rest.countP (fun metadata => metadata.groupId = groupId) + drop.owes dispatcher groupId
  | _ => fun _ => 0

/-- The rollouts an emission loop still puts. -/
def Coroutine.beingPut : Coroutine Trace Client → Nat → Nat
  | .completing metadata _ rollout rest => fun groupId =>
    unit rollout.groupId groupId + rest.length * unit metadata.groupId groupId
  | .dropping _ rollout rest _ => fun groupId =>
    unit rollout.groupId groupId + rest.countP (fun metadata => metadata.groupId = groupId)
  | _ => fun _ => 0

/-- Beyond its loop a coroutine owes what a drop has not looked for. -/
theorem Coroutine.sent_owes (coroutine : Coroutine Trace Client)
    (dispatcher : RolloutDispatcher Trace TaskData Client) (groupId : Nat) :
    coroutine.sent groupId + coroutine.owes dispatcher groupId = coroutine.beingPut groupId +
      if coroutine.holds groupId then
        dispatcher.tally GroupState.rolloutsToSchedule groupId
      else 0 := by
  cases coroutine with
  | completing metadata group rollout rest => rfl
  | dropping drop rollout rest later =>
    simp only [Coroutine.sent, Coroutine.owes, Coroutine.beingPut, Coroutine.holds, Drop.holds,
      Drop.owes, decide_eq_true_eq]
    omega
  | cancelling later => rfl
  | returned => rfl
  | raised => rfl

/-- A drop works on the group it names, which is live no more. -/
structure Drop.Sound (dispatcher : RolloutDispatcher Trace TaskData Client) (drop : Drop Client) :
    Prop where
  popped : drop.group = none ∨ drop.group = some drop.groupId ∧
    drop.groupId < dispatcher.opened.length ∧ drop.groupId ∉ dispatcher.groups
  last : ∀ metadata, drop.lastMeta = some metadata →
    dispatcher.Describes metadata ∧ metadata.groupId = drop.groupId

/-- What a suspended coroutine relies on. None has raised. -/
def Coroutine.Sound (dispatcher : RolloutDispatcher Trace TaskData Client) :
    Coroutine Trace Client → Prop
  | .completing metadata group _ _ =>
    dispatcher.Describes metadata ∧ (group = none ∨ group = some metadata.groupId)
  | .dropping drop _ rest _ =>
    drop.Sound dispatcher ∧
      ∀ metadata ∈ rest, dispatcher.Describes metadata ∧ metadata.groupId = drop.groupId
  | .raised => False
  | _ => True

theorem Drop.Sound.later {drop : Drop Client} (sound : drop.Sound before)
    (later : Later before after) : drop.Sound after where
  popped := by
    rcases sound.popped with none | ⟨popped, inside, absent⟩
    · exact .inl none
    · exact .inr ⟨popped, later.inside inside, later.gone _ inside absent⟩
  last := fun metadata isLast =>
    (sound.last metadata isLast).imp_left (fun described => described.later later)

/-- What a drop owes does not depend on what others do. -/
theorem Drop.Sound.owes_later {drop : Drop Client} (sound : drop.Sound before)
    (later : Later before after) (groupId : Nat) :
    drop.owes after groupId = drop.owes before groupId := by
  simp only [Drop.owes]
  split
  · rename_i owing
    rcases sound.popped with none | ⟨popped, inside, absent⟩
    · rw [none] at owing
      cases owing.2
    · obtain rfl : drop.groupId = groupId := Option.some.inj (popped.symm.trans owing.2)
      exact later.settled _ inside absent
  · rfl

/-- A suspended coroutine still has what it relies on later. -/
theorem Coroutine.Sound.later {coroutine : Coroutine Trace Client}
    (sound : coroutine.Sound before) (later : Later before after) : coroutine.Sound after := by
  cases coroutine with
  | completing metadata group rollout rest => exact ⟨sound.1.later later, sound.2⟩
  | dropping drop rollout rest others =>
    exact ⟨sound.1.later later, fun metadata member =>
      (sound.2 metadata member).imp_left (fun described => described.later later)⟩
  | cancelling others => trivial
  | returned => trivial
  | raised => exact sound

/-- What a suspended coroutine owes does not depend on what others do. -/
theorem Coroutine.Sound.owes_later {coroutine : Coroutine Trace Client}
    (sound : coroutine.Sound before) (later : Later before after) (groupId : Nat) :
    coroutine.owes after groupId = coroutine.owes before groupId := by
  cases coroutine with
  | dropping drop rollout rest others =>
    simp only [Coroutine.owes, sound.1.owes_later later groupId]
  | completing metadata group rollout rest => rfl
  | cancelling others => rfl
  | returned => rfl
  | raised => rfl

/-- A part of the code ran to its next suspension, with the books kept. -/
structure Suspends (before after : RolloutDispatcher Trace TaskData Client)
    (coroutine : Coroutine Trace Client) (sent owed : Nat → Nat) : Prop where
  later : Later before after
  steady : ∀ groupId, after.tally GroupState.rolloutsToSchedule groupId =
    before.tally GroupState.rolloutsToSchedule groupId
  sound : after.Sound
  relies : coroutine.Sound after
  books : Books after (fun groupId => sent groupId + coroutine.sent groupId)
    (fun groupId => owed groupId + coroutine.owes after groupId)

/-- Whatever ran before, the books are kept if the rest keeps them. -/
theorem Suspends.behind {middle : RolloutDispatcher Trace TaskData Client}
    {coroutine : Coroutine Trace Client} {sent owed : Nat → Nat}
    (suspends : Suspends middle after coroutine sent owed) (later : Later before middle)
    (steady : ∀ groupId, middle.tally GroupState.rolloutsToSchedule groupId =
      before.tally GroupState.rolloutsToSchedule groupId) :
    Suspends before after coroutine sent owed :=
  { suspends with
    later := later.trans suspends.later
    steady := fun groupId => (suspends.steady groupId).trans (steady groupId) }

namespace RolloutDispatcher

/-- Metrics are on no book. -/
theorem metrics_sound (sound : dispatcher.Sound) (metrics : DispatcherMetrics) :
    Sound { dispatcher with metrics := metrics } where
  live := sound.live
  fresh := sound.fresh
  described := sound.described
  stepped := sound.stepped

/-- Counting an error changes metrics at most. -/
theorem count_error_metrics (dispatcher : RolloutDispatcher Trace TaskData Client)
    (traces : TraceOps Trace Failure TaskData)
    (metadata : InflightRollout Client) (trace : Trace) :
    ∃ metrics, dispatcher.countError traces metadata trace =
      { dispatcher with metrics := metrics } := by
  simp only [countError]
  split
  · exact ⟨_, rfl⟩
  · exact ⟨dispatcher.metrics, rfl⟩

/-- The emission loop of a completed task sends one rollout and owes the rest. -/
theorem complete_next_suspends {sent owed : Nat → Nat} {metadata : InflightRollout Client}
    {group : Option Nat} {rollouts : List Trace} (traces : TraceOps Trace Failure TaskData)
    (sound : dispatcher.Sound) (described : dispatcher.Describes metadata)
    (referred : group = none ∨ group = some metadata.groupId)
    (books : Books dispatcher sent
      (fun groupId => owed groupId + rollouts.length * unit metadata.groupId groupId)) :
    Suspends dispatcher (dispatcher.completeNext traces metadata group rollouts).1
      (dispatcher.completeNext traces metadata group rollouts).2 sent owed := by
  cases rollouts with
  | nil =>
    refine ⟨.refl _, fun _ => rfl, sound, trivial, ?_⟩
    refine books.restate (fun _ => rfl) ?_
    intro groupId
    simp only [completeNext, Coroutine.owes, List.length_nil, Nat.zero_mul]
  | cons trace rest =>
    obtain ⟨metrics, counted⟩ :=
      dispatcher.count_error_metrics traces metadata (promote traces trace)
    have front : Books { dispatcher with metrics := metrics } sent
        (fun groupId => unit metadata.groupId groupId +
          (owed groupId + rest.length * unit metadata.groupId groupId)) := by
      refine Books.restate ⟨books.balanced, books.emitted⟩ (fun _ => rfl) ?_
      intro groupId
      rw [List.length_cons, Nat.succ_mul]
      omega
    obtain ⟨next, rollout, emits, owner, later, steady, nextSound, after⟩ :=
      emit_books (metrics_sound sound metrics) described referred front
        (promote traces trace)
    have same : Later dispatcher { dispatcher with metrics := metrics } :=
      unwritten_later rfl (fun _ member => member) rfl
    have through : Later dispatcher next := same.trans later
    simp only [completeNext, counted, emits]
    refine ⟨through, steady, nextSound, ⟨described.later through, referred⟩, ?_⟩
    · refine after.restate ?_ (fun _ => rfl)
      intro groupId
      rw [Coroutine.sent, owner]


/-- A task ends as its call promises: with all its rollouts, or with an error. -/
def Ordinary (metadata : InflightRollout Client) : TaskOutcome Trace Failure → Prop
  | .returned rollouts => rollouts.length = metadata.rolloutCount
  | .failed _ => True
  | _ => False

instance (metadata : InflightRollout Client) (outcome : TaskOutcome Trace Failure) :
    Decidable (Ordinary metadata outcome) :=
  match outcome with
  | .returned rollouts => inferInstanceAs (Decidable (rollouts.length = metadata.rolloutCount))
  | .failed _ => inferInstanceAs (Decidable True)
  | .unsupported => inferInstanceAs (Decidable False)
  | .cancelled => inferInstanceAs (Decidable False)

/-- A task that leaves owes its rollouts. -/
theorem pop_books {sent owed : Nat → Nat} {task : Nat} {metadata : InflightRollout Client}
    (found : dispatcher.inflight.get? task = some metadata)
    (books : Books dispatcher sent owed) (permits : Int) :
    Books
      { dispatcher with
        inflight := dispatcher.inflight.erase task
        inflightPermits := permits } sent
      (fun groupId => owed groupId + metadata.rolloutCount * unit metadata.groupId groupId) := by
  refine unwritten_books books rfl ?_
  intro groupId
  have erased := dispatcher.inflight.total_erase task metadata
    (fun metadata => if metadata.groupId = groupId then metadata.rolloutCount else 0) found
  have share : metadata.rolloutCount * unit metadata.groupId groupId =
      if metadata.groupId = groupId then metadata.rolloutCount else 0 := by
    rw [unit, mul_ite, Nat.mul_one, Nat.mul_zero]
  simp only [share, inflightOf, liveToSchedule, tally, erased]
  omega

theorem lookup_cases (dispatcher : RolloutDispatcher Trace TaskData Client) (groupId : Nat) :
    dispatcher.lookup groupId = none ∨ dispatcher.lookup groupId = some groupId := by
  simp only [lookup]
  split
  · exact .inr rfl
  · exact .inl rfl

/-- A finished task, with all its rollouts or with an error, sends one rollout and
owes the rest. -/
theorem handle_suspends {sent owed : Nat → Nat} {task : Nat} {outcome : TaskOutcome Trace Failure}
    (traces : TraceOps Trace Failure TaskData) (sound : dispatcher.Sound)
    (ordinary : ∀ metadata, dispatcher.inflight.get? task = some metadata →
      Ordinary metadata outcome)
    (books : Books dispatcher sent owed) :
    Suspends dispatcher (dispatcher.handleCompletedRollout traces task outcome).1
      (dispatcher.handleCompletedRollout traces task outcome).2 sent owed := by
  cases found : dispatcher.inflight.get? task with
  | none =>
    simp only [handleCompletedRollout, found]
    exact ⟨.refl _, fun _ => rfl, sound, trivial, books⟩
  | some metadata =>
    have meets := ordinary metadata found
    obtain ⟨popped, isPopped⟩ : ∃ popped, popped =
        { dispatcher with
          inflight := dispatcher.inflight.erase task
          inflightPermits := dispatcher.inflightPermits - metadata.rolloutCount } := ⟨_, rfl⟩
    have later : Later dispatcher popped := by
      rw [isPopped]
      exact unwritten_later rfl (fun _ member => member) rfl
    have poppedSound : popped.Sound := by
      rw [isPopped]
      exact unwritten_sound sound rfl (fun _ member => member)
        (fun _ member => List.mem_of_mem_filter member) rfl rfl
    have poppedBooks : Books popped sent
        (fun groupId => owed groupId + metadata.rolloutCount * unit metadata.groupId groupId) := by
      rw [isPopped]
      exact pop_books found books _
    have described : popped.Describes metadata :=
      (sound.described metadata (List.mem_map.mpr
        ⟨_, (OrderedDict.get?_eq_some_iff _ _ _).mp found, rfl⟩)).later later
    have steady : ∀ groupId, popped.tally GroupState.rolloutsToSchedule groupId =
        dispatcher.tally GroupState.rolloutsToSchedule groupId := by
      rw [isPopped]
      exact tally_unwritten rfl _
    cases outcome with
    | returned rollouts =>
      simp only [handleCompletedRollout, found, release]
      rw [← isPopped]
      refine (complete_next_suspends traces poppedSound described (popped.lookup_cases _) ?_).behind later
        steady
      rw [meets]
      exact poppedBooks
    | failed error =>
      simp only [handleCompletedRollout, found, release]
      rw [← isPopped]
      refine (complete_next_suspends traces poppedSound described (popped.lookup_cases _) ?_).behind later
        steady
      rw [List.length_replicate]
      exact poppedBooks
    | unsupported => exact absurd meets not_false
    | cancelled => exact absurd meets not_false


/-! ## Drops -/

/-- Counting what a drop cancelled changes metrics at most. -/
theorem record_dropped_metrics (dispatcher : RolloutDispatcher Trace TaskData Client)
    (drop : Drop Client) :
    ∃ metrics, dispatcher.recordDropped drop = { dispatcher with metrics := metrics } := by
  simp only [recordDropped]
  split
  · split
    · exact ⟨_, rfl⟩
    · exact ⟨dispatcher.metrics, rfl⟩
  · exact ⟨dispatcher.metrics, rfl⟩

/-- The emission loop of a drop sends one marker and owes the rest. Without a
marker left the drop is over. -/
theorem mark_suspends {sent owed : Nat → Nat} {drop : Drop Client}
    {rest : List (InflightRollout Client)} {others : List Nat}
    {dropLater : RolloutDispatcher Trace TaskData Client →
      RolloutDispatcher Trace TaskData Client × Coroutine Trace Client}
    (traces : TraceOps Trace Failure TaskData) (sound : dispatcher.Sound)
    (dropSound : drop.Sound dispatcher)
    (members : ∀ metadata ∈ rest,
      dispatcher.Describes metadata ∧ metadata.groupId = drop.groupId)
    (looked : rest = [] → drop.unscheduled ≠ none)
    (books : Books dispatcher sent (fun groupId => owed groupId +
      (rest.countP (fun metadata => metadata.groupId = groupId) + drop.owes dispatcher groupId)))
    (ends : ∀ next : RolloutDispatcher Trace TaskData Client, next.Sound → Books next sent owed →
      Suspends next (dropLater next).1 (dropLater next).2 sent owed) :
    Suspends dispatcher (afterMark dropLater others (dispatcher.mark traces drop rest)).1
      (afterMark dropLater others (dispatcher.mark traces drop rest)).2 sent owed := by
  cases rest with
  | nil =>
    obtain ⟨metrics, recorded⟩ := dispatcher.record_dropped_metrics drop
    have spent : Books { dispatcher with metrics := metrics } sent owed := by
      refine Books.restate ⟨books.balanced, books.emitted⟩ (fun _ => rfl) ?_
      intro groupId
      simp only [List.countP_nil, Drop.owes, looked rfl, false_and, if_false, Nat.add_zero]
    have same : Later dispatcher { dispatcher with metrics := metrics } :=
      unwritten_later rfl (fun _ member => member) rfl
    simp only [mark, afterMark, recorded]
    split
    · exact (ends _ (metrics_sound sound metrics) spent).behind same (fun _ => rfl)
    · exact ⟨same, fun _ => rfl, metrics_sound sound metrics, trivial, spent⟩
  | cons metadata rest =>
    obtain ⟨described, owner⟩ := members metadata List.mem_cons_self
    have referred : drop.group = none ∨ drop.group = some metadata.groupId := by
      rw [owner]
      exact dropSound.popped.imp_right And.left
    have front : Books dispatcher sent (fun groupId => unit metadata.groupId groupId +
        (owed groupId + (rest.countP (fun metadata => metadata.groupId = groupId) +
          drop.owes dispatcher groupId))) := by
      refine books.restate (fun _ => rfl) ?_
      intro groupId
      simp only [List.countP_cons, decide_eq_true_eq, unit]
      omega
    obtain ⟨next, rollout, emits, rolloutOwner, later, steady, nextSound, after⟩ :=
      emit_books sound described referred front
        (failureRollout traces (dispatcher.object drop.group) drop.taskIdx true)
    simp only [mark, emits, afterMark]
    refine ⟨later, steady, nextSound, ⟨dropSound.later later, ?_⟩, ?_⟩
    · intro other member
      exact (members other (List.mem_cons_of_mem _ member)).imp_left
        (fun otherDescribed => otherDescribed.later later)
    · refine after.restate ?_ ?_
      · intro groupId
        rw [Coroutine.sent, rolloutOwner]
      · intro groupId
        simp only [Coroutine.owes, dropSound.owes_later later]

/-- Behind its claimed tasks a drop owes markers for the rollouts that were never
dispatched. -/
theorem mark_next_unscheduled {drop : Drop Client} (traces : TraceOps Trace Failure TaskData)
    (dropSound : drop.Sound dispatcher) (unlooked : drop.unscheduled = none) :
    ∃ (count : Nat) (markers : List (InflightRollout Client)),
      dispatcher.markNext traces drop [] =
          dispatcher.mark traces { drop with unscheduled := some count } markers ∧
        (∀ metadata ∈ markers,
          dispatcher.Describes metadata ∧ metadata.groupId = drop.groupId) ∧
        ∀ groupId, markers.countP (fun metadata => metadata.groupId = groupId) =
          drop.owes dispatcher groupId := by
  simp only [markNext, unlooked, and_self, if_true]
  rcases dropSound.popped with missing | ⟨popped, inside, -⟩
  · simp only [object, missing, Option.bind_none, Drop.owes, reduceCtorEq, and_false, if_false]
    refine ⟨0, [], rfl, ?_, fun _ => List.countP_nil⟩
    intro metadata impossible
    cases impossible
  · have found := List.getElem?_eq_getElem inside
    obtain ⟨state, isState⟩ : ∃ state, state = dispatcher.opened[drop.groupId] := ⟨_, rfl⟩
    rw [← isState] at found
    simp only [object, popped, Option.bind_some, found]
    have fallback : dispatcher.Describes (drop.lastMeta.getD (standIn drop.groupId state)) ∧
        (drop.lastMeta.getD (standIn drop.groupId state)).groupId = drop.groupId := by
      cases isLast : drop.lastMeta with
      | none => exact ⟨⟨state, found, rfl, rfl⟩, rfl⟩
      | some metadata => exact dropSound.last metadata isLast
    refine ⟨state.rolloutsToSchedule, _, rfl, ?_, ?_⟩
    · intro metadata member
      rw [List.eq_of_mem_replicate member]
      exact fallback
    · intro groupId
      rw [List.countP_replicate, fallback.2, Drop.owes]
      by_cases same : drop.groupId = groupId
      · simp only [same, decide_true, if_true, unlooked, popped, and_self]
        rw [← same, tally_found found]
      · simp only [same, decide_false, Bool.false_eq_true, if_false, popped, Option.some.injEq,
          and_false]

/-- A drop goes on to its next suspension. -/
theorem mark_next_suspends {sent owed : Nat → Nat} {drop : Drop Client}
    {rest : List (InflightRollout Client)} {others : List Nat}
    {dropLater : RolloutDispatcher Trace TaskData Client →
      RolloutDispatcher Trace TaskData Client × Coroutine Trace Client}
    (traces : TraceOps Trace Failure TaskData) (sound : dispatcher.Sound)
    (dropSound : drop.Sound dispatcher)
    (members : ∀ metadata ∈ rest,
      dispatcher.Describes metadata ∧ metadata.groupId = drop.groupId)
    (books : Books dispatcher sent (fun groupId => owed groupId +
      (rest.countP (fun metadata => metadata.groupId = groupId) + drop.owes dispatcher groupId)))
    (ends : ∀ next : RolloutDispatcher Trace TaskData Client, next.Sound → Books next sent owed →
      Suspends next (dropLater next).1 (dropLater next).2 sent owed) :
    Suspends dispatcher (afterMark dropLater others (dispatcher.markNext traces drop rest)).1
      (afterMark dropLater others (dispatcher.markNext traces drop rest)).2 sent owed := by
  by_cases claimedOver : rest = [] ∧ drop.unscheduled = none
  · obtain ⟨rfl, unlooked⟩ := claimedOver
    obtain ⟨count, markers, goesOn, markersMembers, owes⟩ :=
      mark_next_unscheduled traces dropSound unlooked
    rw [goesOn]
    have looked : Drop.Sound dispatcher { drop with unscheduled := some count } :=
      ⟨dropSound.popped, dropSound.last⟩
    refine mark_suspends traces sound looked markersMembers
      (fun _ => Option.some_ne_none _) ?_ ends
    refine books.restate (fun _ => rfl) ?_
    intro groupId
    rw [owes, List.countP_nil, Nat.zero_add]
    simp only [Drop.owes, reduceCtorEq, false_and, if_false, Nat.add_zero]
  · simp only [markNext, claimedOver, if_false]
    refine mark_suspends traces sound dropSound members ?_ books ends
    intro empty unlooked
    exact claimedOver ⟨empty, unlooked⟩

/-- Claimed tasks owe a marker for each of their rollouts. -/
theorem markers_count (metas : List (InflightRollout Client)) (groupId : Nat) :
    (metas.flatMap (fun metadata => List.replicate metadata.rolloutCount metadata)).countP
        (fun metadata => metadata.groupId = groupId) =
      (metas.map (fun metadata =>
        if metadata.groupId = groupId then metadata.rolloutCount else 0)).sum := by
  rw [List.countP_flatMap]
  congr 1
  apply List.map_congr_left
  intro metadata _
  simp only [Function.comp_apply, List.countP_replicate, decide_eq_true_eq]

/-- A drop claims a group and its tasks at once, and owes what they held. -/
theorem claim_sound {sent owed : Nat → Nat} (groupId : Nat) (sound : dispatcher.Sound)
    (books : Books dispatcher sent owed) :
    let claimed := (dispatcher.claim groupId).1
    let drop := (dispatcher.claim groupId).2.1
    let rest := (dispatcher.claim groupId).2.2
    Later dispatcher claimed ∧ claimed.Sound ∧ drop.Sound claimed ∧
      (∀ metadata ∈ rest, claimed.Describes metadata ∧ metadata.groupId = drop.groupId) ∧
      Books claimed sent (fun other => owed other +
        (rest.countP (fun metadata => metadata.groupId = other) + drop.owes claimed other)) := by
  intro claimed drop rest
  have fewer : ∀ live ∈ claimed.groups, live ∈ dispatcher.groups :=
    fun _ member => List.mem_of_mem_filter member
  have later : Later dispatcher claimed := unwritten_later rfl fewer rfl
  have members : ∀ metadata ∈ (dispatcher.inflight.entries.filter
      (fun entry => entry.2.groupId = groupId)).map Prod.snd,
      claimed.Describes metadata ∧ metadata.groupId = groupId := by
    rintro metadata member
    obtain ⟨entry, listed, rfl⟩ := List.mem_map.mp member
    obtain ⟨held, owner⟩ := List.mem_filter.mp listed
    exact ⟨(sound.described _ (List.mem_map_of_mem held)).later later, of_decide_eq_true owner⟩
  refine ⟨later, ?_, ⟨?_, ?_⟩, ?_, ?_⟩
  · exact unwritten_sound sound rfl fewer (fun _ member => List.mem_of_mem_filter member) rfl rfl
  · by_cases live : groupId ∈ dispatcher.groups
    · refine .inr ⟨if_pos live, sound.live groupId live, ?_⟩
      intro still
      exact of_decide_eq_true (List.mem_filter.mp still).2 rfl
    · exact .inl (if_neg live)
  · intro metadata isLast
    exact members metadata (List.mem_of_getLast? isLast)
  · intro metadata member
    obtain ⟨owner, listed, replicated⟩ := List.mem_flatMap.mp member
    rw [List.eq_of_mem_replicate replicated]
    exact members owner listed
  · refine unwritten_books books rfl ?_
    intro other
    have discarded := dispatcher.inflight.total_discard
      (fun metadata => metadata.groupId = groupId)
      (fun metadata => if metadata.groupId = other then metadata.rolloutCount else 0)
    have markers := markers_count ((dispatcher.inflight.entries.filter
      (fun entry => entry.2.groupId = groupId)).map Prod.snd) other
    rw [List.map_map] at markers
    have claims : dispatcher.inflightOf other =
        rest.countP (fun metadata => metadata.groupId = other) + claimed.inflightOf other := by
      rw [inflightOf, discarded]
      exact congrArg (· + claimed.inflightOf other) markers.symm
    have drops : drop.owes claimed other + claimed.liveToSchedule other =
        dispatcher.liveToSchedule other := by
      have refers : drop.group = dispatcher.lookup groupId := rfl
      have keeps : other ∈ claimed.groups ↔ other ∈ dispatcher.groups ∧ other ≠ groupId := by
        rw [← decide_eq_true_iff (p := other ≠ groupId)]
        exact List.mem_filter
      have unwritten : claimed.tally GroupState.rolloutsToSchedule other =
          dispatcher.tally GroupState.rolloutsToSchedule other := tally_unwritten rfl _ other
      have unlooked : drop.unscheduled = none := rfl
      simp only [Drop.owes, liveToSchedule, refers, lookup, keeps, unwritten, unlooked, true_and]
      by_cases same : other = groupId
      · subst same
        by_cases live : other ∈ dispatcher.groups
        · simp only [live, if_true, ne_eq, not_true, and_false, if_false, Nat.add_zero]
        · simp only [live, reduceCtorEq, if_false, false_and]
      · by_cases claims : groupId ∈ dispatcher.groups
        · simp only [claims, if_true, Option.some.injEq, Ne.symm same, if_false, ne_eq, same,
            not_false_iff, and_true, Nat.zero_add]
        · simp only [claims, reduceCtorEq, if_false, ne_eq, same, not_false_iff, and_true,
            Nat.zero_add]
    omega


/-- Dropping groups one after another goes on to the next suspension. -/
theorem drop_groups_suspends {sent owed : Nat → Nat} (traces : TraceOps Trace Failure TaskData)
    (groupIds : List Nat) (sound : dispatcher.Sound) (books : Books dispatcher sent owed) :
    Suspends dispatcher (dropGroups traces groupIds dispatcher).1
      (dropGroups traces groupIds dispatcher).2 sent owed := by
  induction groupIds generalizing dispatcher with
  | nil => exact ⟨.refl _, fun _ => rfl, sound, trivial, books⟩
  | cons groupId others inductionHypothesis =>
    obtain ⟨later, claimedSound, dropSound, members, claimedBooks⟩ :=
      claim_sound groupId sound books
    refine (mark_next_suspends traces claimedSound dropSound members claimedBooks ?_).behind later
      (tally_unwritten rfl _)
    exact fun next nextSound nextBooks => inductionHypothesis nextSound nextBooks

/-- Ageing rollouts rewrites no group. -/
theorem age_later (dispatcher : RolloutDispatcher Trace TaskData Client) :
    Later dispatcher dispatcher.age := unwritten_later rfl (fun _ member => member) rfl

theorem age_sound (sound : dispatcher.Sound) : dispatcher.age.Sound where
  live := sound.live
  fresh := by
    intro task member
    refine sound.fresh task ?_
    simpa only [age, OrderedDict.keys, OrderedDict.mapValues, List.map_map, Function.comp_def] using
      member
  described := by
    rintro metadata member
    obtain ⟨aged, listed, rfl⟩ := List.mem_map.mp member
    obtain ⟨entry, held, rfl⟩ := List.mem_map.mp listed
    obtain ⟨state, found, kind, evalStep⟩ := sound.described _ (List.mem_map_of_mem held)
    simp only
    split
    · exact ⟨state, found, kind, evalStep⟩
    · exact ⟨state, found, kind, evalStep⟩
  stepped := sound.stepped

theorem age_books {sent owed : Nat → Nat} (books : Books dispatcher sent owed) :
    Books dispatcher.age sent owed := by
  refine unwritten_books books rfl ?_
  intro groupId
  have same : dispatcher.age.inflightOf groupId = dispatcher.inflightOf groupId := by
    refine OrderedDict.total_map_values _ _ _ ?_
    intro metadata
    split
    · rfl
    · rfl
  rw [same]
  rfl

/-! ## Who holds a group -/

/-- Completing a task holds no group. -/
theorem complete_next_holds (traces : TraceOps Trace Failure TaskData)
    (metadata : InflightRollout Client) (group : Option Nat) (rollouts : List Trace)
    (groupId : Nat) :
    (dispatcher.completeNext traces metadata group rollouts).2.holds groupId = false := by
  cases rollouts with
  | nil => rfl
  | cons trace rest =>
    simp only [completeNext]
    split
    · rfl
    · rfl

theorem handle_holds (traces : TraceOps Trace Failure TaskData) (task : Nat)
    (outcome : TaskOutcome Trace Failure) (groupId : Nat) :
    (dispatcher.handleCompletedRollout traces task outcome).2.holds groupId = false := by
  simp only [handleCompletedRollout]
  split
  · rfl
  · cases outcome with
    | returned rollouts => exact complete_next_holds _ _ _ _ _
    | failed error => exact complete_next_holds _ _ _ _ _
    | unsupported => rfl
    | cancelled => rfl

/-- Behind a marker the same drop holds on, and behind the last one a later drop may. -/
theorem mark_holds {drop : Drop Client} {rest : List (InflightRollout Client)}
    {others : List Nat} {groupId : Nat}
    {dropLater : RolloutDispatcher Trace TaskData Client →
      RolloutDispatcher Trace TaskData Client × Coroutine Trace Client}
    (traces : TraceOps Trace Failure TaskData)
    (held : (afterMark dropLater others (dispatcher.mark traces drop rest)).2.holds groupId) :
    drop.holds groupId ∨ ∃ next : RolloutDispatcher Trace TaskData Client,
      next.groups = dispatcher.groups ∧ (dropLater next).2.holds groupId := by
  cases rest with
  | nil =>
    obtain ⟨metrics, recorded⟩ := dispatcher.record_dropped_metrics drop
    simp only [mark, afterMark, recorded] at held
    split at held
    · exact .inr ⟨{ dispatcher with metrics := metrics }, rfl, held⟩
    · cases held
  | cons metadata rest =>
    simp only [mark] at held
    split at held
    · exact .inl held
    · cases held

theorem mark_next_holds {drop : Drop Client} {rest : List (InflightRollout Client)}
    {others : List Nat} {groupId : Nat}
    {dropLater : RolloutDispatcher Trace TaskData Client →
      RolloutDispatcher Trace TaskData Client × Coroutine Trace Client}
    (traces : TraceOps Trace Failure TaskData)
    (held : (afterMark dropLater others (dispatcher.markNext traces drop rest)).2.holds groupId) :
    drop.holds groupId ∨ ∃ next : RolloutDispatcher Trace TaskData Client,
      next.groups = dispatcher.groups ∧ (dropLater next).2.holds groupId := by
  have looked : ∀ count, ({ drop with unscheduled := some count } : Drop Client).holds groupId =
      false := by
    intro count
    simp only [Drop.holds, reduceCtorEq, false_and, decide_false]
  simp only [markNext] at held
  split at held
  · split at held
    · have ended : (afterMark dropLater others
          (dispatcher.mark traces { drop with unscheduled := some 0 } [])).2.holds groupId := held
      rcases mark_holds traces ended with same | later
      · rw [looked] at same
        cases same
      · exact .inr later
    · rcases mark_holds traces held with same | later
      · rw [looked] at same
        cases same
      · exact .inr later
  · exact mark_holds traces held

/-- A drop only comes to hold a group that was live. -/
theorem drop_groups_holds {groupId : Nat} (traces : TraceOps Trace Failure TaskData)
    (groupIds : List Nat) (held : (dropGroups traces groupIds dispatcher).2.holds groupId) :
    groupId ∈ dispatcher.groups := by
  induction groupIds generalizing dispatcher with
  | nil => cases held
  | cons dropped others inductionHypothesis =>
    rcases mark_next_holds traces held with claimed | ⟨next, sameGroups, later⟩
    · have popped : dispatcher.lookup dropped = some groupId := (of_decide_eq_true claimed).2
      simp only [lookup] at popped
      obtain ⟨live, same⟩ := Option.ite_none_right_eq_some.mp popped
      exact Option.some.inj same ▸ live
    · have still := inductionHypothesis later
      rw [sameGroups] at still
      exact List.mem_of_mem_filter still

end RolloutDispatcher

end PrimeRl.Orchestrator.Dispatcher
