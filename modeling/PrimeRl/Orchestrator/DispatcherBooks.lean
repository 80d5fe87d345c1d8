import PrimeRl.Orchestrator.Dispatcher

/-!
# The books of the dispatcher

Every rollout of a group is sent, owed by a coroutine or by the scheduling call,
in flight, or still to schedule in a live group. The books say so, given what was
sent and what is owed elsewhere. Coroutines only rely on what no other coroutine
takes back.
-/

namespace PrimeRl.Orchestrator.Dispatcher

universe u
variable {Trace Failure TaskData Client : Type u}

namespace RolloutDispatcher

variable {dispatcher before after : RolloutDispatcher Trace TaskData Client}

/-- A counter of a group, and zero where none was opened. -/
def tally (dispatcher : RolloutDispatcher Trace TaskData Client)
    (field : GroupState TaskData Client → Nat) (groupId : Nat) : Nat :=
  (dispatcher.opened[groupId]?).elim 0 field

/-- What a live group has left to schedule. -/
def liveToSchedule (dispatcher : RolloutDispatcher Trace TaskData Client) (groupId : Nat) : Nat :=
  if groupId ∈ dispatcher.groups then dispatcher.tally GroupState.rolloutsToSchedule groupId else 0

/-- The rollouts of a group in flight. -/
def inflightOf (dispatcher : RolloutDispatcher Trace TaskData Client) (groupId : Nat) : Nat :=
  dispatcher.inflight.total
    (fun metadata => if metadata.groupId = groupId then metadata.rolloutCount else 0)

/-- Metadata agrees with the group it names. -/
def Describes (dispatcher : RolloutDispatcher Trace TaskData Client)
    (metadata : InflightRollout Client) : Prop :=
  ∃ state, dispatcher.opened[metadata.groupId]? = some state ∧ metadata.kind = state.kind ∧
    metadata.evalStep = state.evalStep

/-- What the dispatcher's own state satisfies between any two suspensions. -/
structure Sound (dispatcher : RolloutDispatcher Trace TaskData Client) : Prop where
  live : ∀ groupId ∈ dispatcher.groups, groupId < dispatcher.opened.length
  fresh : ∀ task ∈ dispatcher.inflight.keys, task < dispatcher.calls.length
  described : ∀ metadata ∈ dispatcher.inflight.values, dispatcher.Describes metadata
  stepped : ∀ (groupId : Nat) state, dispatcher.opened[groupId]? = some state →
    state.kind = .eval → state.evalStep ≠ none

/-- What happens between two suspensions: groups are not forgotten, those that left
the live groups neither come back nor change what they had left to schedule, and
nothing is put. -/
structure Later (before after : RolloutDispatcher Trace TaskData Client) : Prop where
  kept : ∀ (groupId : Nat) state, before.opened[groupId]? = some state →
    ∃ next, after.opened[groupId]? = some next ∧ next.kind = state.kind ∧
      next.evalStep = state.evalStep
  gone : ∀ groupId, groupId < before.opened.length → groupId ∉ before.groups →
    groupId ∉ after.groups
  settled : ∀ groupId, groupId < before.opened.length → groupId ∉ before.groups →
    after.tally GroupState.rolloutsToSchedule groupId =
      before.tally GroupState.rolloutsToSchedule groupId
  queued : after.outQ = before.outQ

theorem Later.refl (dispatcher : RolloutDispatcher Trace TaskData Client) :
    Later dispatcher dispatcher where
  kept := fun _ state found => ⟨state, found, rfl, rfl⟩
  gone := fun _ _ absent => absent
  settled := fun _ _ _ => rfl
  queued := rfl

theorem Later.inside (later : Later before after) {groupId : Nat}
    (inside : groupId < before.opened.length) : groupId < after.opened.length := by
  obtain ⟨next, found, -⟩ := later.kept groupId _ (List.getElem?_eq_getElem inside)
  exact (List.getElem?_eq_some_iff.mp found).1

theorem Later.trans {middle : RolloutDispatcher Trace TaskData Client}
    (first : Later before middle) (second : Later middle after) : Later before after where
  kept := by
    rintro groupId state found
    obtain ⟨next, nextFound, kind, evalStep⟩ := first.kept groupId state found
    obtain ⟨last, lastFound, lastKind, lastStep⟩ := second.kept groupId next nextFound
    exact ⟨last, lastFound, lastKind.trans kind, lastStep.trans evalStep⟩
  gone := fun groupId inside absent =>
    second.gone groupId (first.inside inside) (first.gone groupId inside absent)
  settled := fun groupId inside absent =>
    (second.settled groupId (first.inside inside) (first.gone groupId inside absent)).trans
      (first.settled groupId inside absent)
  queued := second.queued.trans first.queued

/-- Metadata still agrees later. -/
theorem Describes.later {metadata : InflightRollout Client}
    (described : before.Describes metadata) (later : Later before after) :
    after.Describes metadata := by
  obtain ⟨state, found, kind, evalStep⟩ := described
  obtain ⟨next, nextFound, nextKind, nextStep⟩ := later.kept _ state found
  exact ⟨next, nextFound, kind.trans nextKind.symm, evalStep.trans nextStep.symm⟩

/-- One rollout of the group `owner`, counted for a group. -/
def unit (owner groupId : Nat) : Nat := if owner = groupId then 1 else 0

/-- Every rollout of a group is sent, owed, in flight or left to schedule, and a
group counts no more emissions than there were. -/
structure Books (dispatcher : RolloutDispatcher Trace TaskData Client) (sent owed : Nat → Nat) :
    Prop where
  balanced : ∀ groupId, sent groupId + owed groupId + dispatcher.inflightOf groupId +
    dispatcher.liveToSchedule groupId = dispatcher.tally GroupState.targetRollouts groupId
  emitted : ∀ groupId, dispatcher.tally GroupState.emitted groupId ≤ sent groupId

/-- Books may be kept in other words. -/
theorem Books.restate {sent owed otherSent otherOwed : Nat → Nat}
    (books : Books dispatcher sent owed) (sameSent : ∀ groupId, sent groupId = otherSent groupId)
    (sameOwed : ∀ groupId, owed groupId = otherOwed groupId) :
    Books dispatcher otherSent otherOwed := by
  obtain rfl : sent = otherSent := funext sameSent
  obtain rfl : owed = otherOwed := funext sameOwed
  exact books

/-- A counter after one group was rewritten. -/
theorem tally_set {groupId : Nat} {state : GroupState TaskData Client}
    (found : dispatcher.opened[groupId]? = some state) (next : GroupState TaskData Client)
    (field : GroupState TaskData Client → Nat) (other : Nat)
    (rewritten : after.opened = dispatcher.opened.set groupId next) :
    after.tally field other = if groupId = other then field next else dispatcher.tally field other := by
  obtain ⟨inside, -⟩ := List.getElem?_eq_some_iff.mp found
  simp only [tally, rewritten]
  split
  · rename_i same
    subst same
    rw [List.getElem?_set_self inside]
    rfl
  · rename_i different
    rw [List.getElem?_set_ne different]

/-- A counter of a group that was opened. -/
theorem tally_found {groupId : Nat} {state : GroupState TaskData Client}
    (found : dispatcher.opened[groupId]? = some state)
    (field : GroupState TaskData Client → Nat) : dispatcher.tally field groupId = field state := by
  rw [tally, found]
  rfl

/-- A counter that the rewrite keeps. -/
theorem tally_kept {groupId : Nat} {state next : GroupState TaskData Client}
    (found : before.opened[groupId]? = some state)
    (rewritten : after.opened = before.opened.set groupId next)
    {field : GroupState TaskData Client → Nat} (kept : field next = field state) (other : Nat) :
    after.tally field other = before.tally field other := by
  rw [tally_set found next field other rewritten]
  split
  · rename_i same
    rw [← same, tally_found found, kept]
  · rfl

/-- A group may be rewritten while it is live, as long as it stays the same group. -/
theorem rewrite_later {groupId : Nat} {state next : GroupState TaskData Client}
    (found : before.opened[groupId]? = some state)
    (rewritten : after.opened = before.opened.set groupId next)
    (kind : next.kind = state.kind) (evalStep : next.evalStep = state.evalStep)
    (fewer : ∀ live ∈ after.groups, live ∈ before.groups)
    (settled : next.rolloutsToSchedule = state.rolloutsToSchedule ∨ groupId ∈ before.groups)
    (queued : after.outQ = before.outQ) : Later before after where
  kept := by
    intro other old oldFound
    obtain ⟨inside, -⟩ := List.getElem?_eq_some_iff.mp found
    by_cases same : groupId = other
    · subst same
      obtain rfl : state = old := Option.some.inj (found.symm.trans oldFound)
      exact ⟨next, by rw [rewritten, List.getElem?_set_self inside], kind, evalStep⟩
    · exact ⟨old, by rw [rewritten, List.getElem?_set_ne same, oldFound], rfl, rfl⟩
  gone := fun other _ absent member => absent (fewer other member)
  settled := by
    intro other _ absent
    rw [tally_set found next _ other rewritten]
    split
    · rename_i same
      subst same
      rw [tally_found found]
      exact settled.resolve_right absent
    · rfl
  queued := queued

/-- Rewriting a group keeps the dispatcher sound. -/
theorem rewrite_sound {groupId : Nat} {state next : GroupState TaskData Client}
    (sound : before.Sound) (found : before.opened[groupId]? = some state)
    (rewritten : after.opened = before.opened.set groupId next)
    (kind : next.kind = state.kind) (evalStep : next.evalStep = state.evalStep)
    (later : Later before after) (fewer : ∀ live ∈ after.groups, live ∈ before.groups)
    (inflight : after.inflight = before.inflight) (calls : after.calls = before.calls) :
    after.Sound where
  live := fun live member => later.inside (sound.live live (fewer live member))
  fresh := by
    rw [inflight, calls]
    exact sound.fresh
  described := by
    rw [inflight]
    exact fun metadata member => (sound.described metadata member).later later
  stepped := by
    intro other last lastFound isEval
    rw [rewritten] at lastFound
    by_cases same : groupId = other
    · subst same
      obtain ⟨inside, -⟩ := List.getElem?_eq_some_iff.mp found
      rw [List.getElem?_set_self inside, Option.some.injEq] at lastFound
      subst lastFound
      rw [evalStep]
      exact sound.stepped _ state found (kind ▸ isEval)
    · rw [List.getElem?_set_ne same] at lastFound
      exact sound.stepped other last lastFound isEval

/-- Books do not show what a rewrite leaves alone. -/
theorem rewrite_books {sent owed : Nat → Nat} {groupId : Nat}
    {state next : GroupState TaskData Client} (books : Books before sent owed)
    (found : before.opened[groupId]? = some state)
    (rewritten : after.opened = before.opened.set groupId next)
    (left : next.rolloutsToSchedule = state.rolloutsToSchedule)
    (target : next.targetRollouts = state.targetRollouts) (emitted : next.emitted = state.emitted)
    (groups : after.groups = before.groups) (inflight : after.inflight = before.inflight) :
    Books after sent owed where
  balanced := by
    intro other
    rw [inflightOf, inflight, liveToSchedule, groups, tally_kept found rewritten left,
      tally_kept found rewritten target]
    exact books.balanced other
  emitted := by
    intro other
    rw [tally_kept found rewritten emitted]
    exact books.emitted other

/-- A counter only depends on the groups ever opened. -/
theorem tally_unwritten (opened : after.opened = before.opened)
    (field : GroupState TaskData Client → Nat) (groupId : Nat) :
    after.tally field groupId = before.tally field groupId := by
  rw [tally, opened, tally]

/-- Nothing changes for a coroutine where no group is rewritten. -/
theorem unwritten_later (opened : after.opened = before.opened)
    (fewer : ∀ live ∈ after.groups, live ∈ before.groups) (queued : after.outQ = before.outQ) :
    Later before after where
  kept := fun _ state found => ⟨state, by rw [opened, found], rfl, rfl⟩
  gone := fun groupId _ absent member => absent (fewer groupId member)
  settled := fun groupId _ _ => tally_unwritten opened _ groupId
  queued := queued

/-- Nothing changes for the dispatcher either, where tasks only leave. -/
theorem unwritten_sound (sound : before.Sound) (opened : after.opened = before.opened)
    (fewer : ∀ live ∈ after.groups, live ∈ before.groups)
    (left : ∀ entry ∈ after.inflight.entries, entry ∈ before.inflight.entries)
    (calls : after.calls = before.calls) (queued : after.outQ = before.outQ) : after.Sound where
  live := by
    rw [opened]
    exact fun live member => sound.live live (fewer live member)
  fresh := by
    rintro task member
    obtain ⟨entry, listed, rfl⟩ := List.mem_map.mp member
    rw [calls]
    exact sound.fresh _ (List.mem_map_of_mem (left entry listed))
  described := by
    rintro metadata member
    obtain ⟨entry, listed, rfl⟩ := List.mem_map.mp member
    exact (sound.described _ (List.mem_map_of_mem (left entry listed))).later
      (unwritten_later opened fewer queued)
  stepped := by
    rw [opened]
    exact sound.stepped

/-- The books stay balanced where rollouts that left their place are owed. -/
theorem unwritten_books {sent owed nowOwed : Nat → Nat} (books : Books before sent owed)
    (opened : after.opened = before.opened)
    (moved : ∀ groupId, nowOwed groupId + after.inflightOf groupId + after.liveToSchedule groupId =
      owed groupId + before.inflightOf groupId + before.liveToSchedule groupId) :
    Books after sent nowOwed where
  balanced := by
    intro groupId
    have balanced := books.balanced groupId
    have same := moved groupId
    rw [tally_unwritten opened]
    omega
  emitted := by
    intro groupId
    rw [tally_unwritten opened]
    exact books.emitted groupId

/-! ## Emission -/

/-- The stamp of described metadata does not raise. -/
theorem stamp_described {metadata : InflightRollout Client} {evalStep : Option Int}
    (stepped : metadata.kind = .eval → evalStep ≠ none) (policyVersion : Int) (trace : Trace) :
    ∃ rollout, stamp metadata evalStep policyVersion trace = some rollout ∧
      rollout.groupId = metadata.groupId := by
  have passes : ¬ (metadata.kind = .eval ∧ evalStep = none) := by
    rintro ⟨isEval, missing⟩
    exact stepped isEval missing
  simp only [stamp, passes, if_false]
  exact ⟨_, rfl, rfl⟩

/-- The step of an emission: an owed rollout is sent. A group that leaves the live
groups here has nothing left to schedule. -/
theorem emit_books {sent owed : Nat → Nat} {metadata : InflightRollout Client}
    {group : Option Nat} (sound : dispatcher.Sound) (described : dispatcher.Describes metadata)
    (referred : group = none ∨ group = some metadata.groupId)
    (books : Books dispatcher sent (fun groupId => unit metadata.groupId groupId + owed groupId))
    (trace : Trace) :
    ∃ next rollout, dispatcher.emitRollout metadata group trace = (next, some rollout) ∧
      rollout.groupId = metadata.groupId ∧ Later dispatcher next ∧
      (∀ groupId, next.tally GroupState.rolloutsToSchedule groupId =
        dispatcher.tally GroupState.rolloutsToSchedule groupId) ∧
      next.Sound ∧ Books next (fun groupId => sent groupId + unit metadata.groupId groupId) owed := by
  obtain ⟨state, found, kind, evalStep⟩ := described
  rcases referred with rfl | rfl
  · have stepped : metadata.kind = .eval → metadata.evalStep ≠ none := by
      intro isEval
      rw [evalStep]
      exact sound.stepped _ state found (kind ▸ isEval)
    obtain ⟨rollout, stamped, owner⟩ := stamp_described stepped metadata.policyVersion trace
    refine ⟨dispatcher, rollout, ?_, owner, .refl _, fun _ => rfl, sound, ?_, ?_⟩
    · simp only [emitRollout, stamped]
    · intro groupId
      have balanced := books.balanced groupId
      omega
    · intro groupId
      exact Nat.le_add_right_of_le (books.emitted groupId)
  · have stepped : metadata.kind = .eval → state.evalStep ≠ none :=
      fun isEval => sound.stepped _ state found (kind ▸ isEval)
    obtain ⟨rollout, stamped, owner⟩ :=
      stamp_described stepped state.policyVersionAtStart trace
    obtain ⟨counted, isCounted⟩ : ∃ counted, counted =
      { state with emitted := state.emitted + 1 } := ⟨_, rfl⟩
    obtain ⟨next, isNext⟩ : ∃ next, next =
        { dispatcher with
          opened := dispatcher.opened.set metadata.groupId counted
          groups :=
            if state.targetRollouts ≤ counted.emitted then
              dispatcher.groups.filter (fun live => live ≠ metadata.groupId)
            else dispatcher.groups } := ⟨_, rfl⟩
    have emits : dispatcher.emitRollout metadata (some metadata.groupId) trace =
        (next, some rollout) := by
      simp only [emitRollout, object, Option.bind_some, found, stamped, isNext, isCounted]
    have rewritten : next.opened = dispatcher.opened.set metadata.groupId counted := by rw [isNext]
    have fewer : ∀ live ∈ next.groups, live ∈ dispatcher.groups := by
      intro live member
      simp only [isNext] at member
      split at member
      · exact List.mem_of_mem_filter member
      · exact member
    have later : Later dispatcher next :=
      rewrite_later found rewritten (by rw [isCounted]) (by rw [isCounted]) fewer
        (.inl (by rw [isCounted])) (by rw [isNext])
    have steady : ∀ groupId, next.tally GroupState.rolloutsToSchedule groupId =
        dispatcher.tally GroupState.rolloutsToSchedule groupId :=
      tally_kept found rewritten (by rw [isCounted])
    refine ⟨next, rollout, emits, owner, later, steady, ?_, ?_, ?_⟩
    · exact rewrite_sound sound found rewritten (by rw [isCounted]) (by rw [isCounted]) later fewer
        (by rw [isNext]) (by rw [isNext])
    · intro groupId
      have balanced := books.balanced groupId
      have emitted := books.emitted groupId
      have sameInflight : next.inflightOf groupId = dispatcher.inflightOf groupId := by
        simp only [inflightOf, isNext]
      have sameTarget : next.tally GroupState.targetRollouts groupId =
          dispatcher.tally GroupState.targetRollouts groupId :=
        tally_kept found rewritten (by rw [isCounted]) groupId
      have sameLive : next.liveToSchedule groupId = dispatcher.liveToSchedule groupId := by
        simp only [liveToSchedule, steady]
        by_cases complete : state.targetRollouts ≤ counted.emitted
        · by_cases same : metadata.groupId = groupId
          · -- The last member is emitted, so the balance leaves nothing to schedule.
            subst same
            have popped : metadata.groupId ∉ next.groups := by
              simp only [isNext, complete, if_true, List.mem_filter, ne_eq, not_true, decide_false,
                Bool.false_eq_true, and_false, not_false_iff]
            simp only [tally_found found, unit, if_true, liveToSchedule] at balanced emitted
            simp only [isCounted] at complete
            simp only [popped, if_false, tally_found found]
            split
            · rename_i live
              simp only [live, if_true] at balanced
              omega
            · rfl
          · simp only [isNext, complete, if_true, List.mem_filter, ne_eq, Ne.symm same,
              not_false_iff, decide_true, and_true]
        · simp only [isNext, complete, if_false]
      rw [sameInflight, sameTarget, sameLive]
      omega
    · intro groupId
      have emitted := books.emitted groupId
      rw [tally_set found counted _ groupId rewritten]
      split
      · rename_i same
        rw [← same, tally_found found] at emitted
        simp only [isCounted, unit, same, if_true]
        rw [← same]
        omega
      · exact Nat.le_add_right_of_le emitted

end RolloutDispatcher

end PrimeRl.Orchestrator.Dispatcher
