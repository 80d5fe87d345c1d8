import PrimeRl.Orchestrator.DispatcherCoroutines

/-!
# Scheduling calls of the dispatcher

A scheduling call is suspended while it selects a client and at each permit. It
owes what it took off its group until the task is registered.
-/

namespace PrimeRl.Orchestrator.Dispatcher

open RolloutDispatcher

universe u
variable {Trace Failure TaskData Client : Type u}
  {dispatcher before after : RolloutDispatcher Trace TaskData Client}

/-- What a scheduling call took off its group and did not register yet. -/
def Scheduler.owes : Scheduler TaskData Client → Nat → Nat
  | .acquiring owner _ permits _ _ => fun groupId => permits * unit owner groupId
  | _ => fun _ => 0

/-- What a suspended scheduling call relies on. A group it selects a client for
still has rollouts to schedule. -/
def Scheduler.Sound (dispatcher : RolloutDispatcher Trace TaskData Client) :
    Scheduler TaskData Client → Prop
  | .idle => True
  | .selecting groupId _ _ => 0 < dispatcher.tally GroupState.rolloutsToSchedule groupId
  | .acquiring groupId _ _ _ _ => groupId < dispatcher.opened.length

/-- A scheduling call ran to its next suspension, with the books kept. -/
structure Schedules (before after : RolloutDispatcher Trace TaskData Client)
    (scheduler : Scheduler TaskData Client) (sent owed : Nat → Nat) : Prop where
  later : Later before after
  sound : after.Sound
  relies : scheduler.Sound after
  books : Books after sent (fun groupId => owed groupId + scheduler.owes groupId)

namespace RolloutDispatcher

/-- A registered task is in flight with its permits. -/
theorem register_schedules {sent owed : Nat → Nat} {groupId : Nat}
    {state : GroupState TaskData Client} (client : Client) (permits : Nat)
    (call : Call TaskData Client) (sound : dispatcher.Sound)
    (found : dispatcher.opened[groupId]? = some state)
    (books : Books dispatcher sent (fun other => owed other + permits * unit groupId other)) :
    Schedules dispatcher (dispatcher.register groupId state client permits call) .idle sent owed := by
  have later : Later dispatcher (dispatcher.register groupId state client permits call) :=
    unwritten_later rfl (fun _ member => member) rfl
  have fresh : dispatcher.calls.length ∉ dispatcher.inflight.keys :=
    fun member => Nat.lt_irrefl _ (sound.fresh _ member)
  have entries := fun metadata => dispatcher.inflight.set_new dispatcher.calls.length metadata fresh
  refine ⟨later, ⟨sound.live, ?_, ?_, sound.stepped⟩, trivial, ?_⟩
  · intro task member
    simp only [register, OrderedDict.keys, entries, List.map_append, List.map_cons, List.map_nil,
      List.mem_append, List.mem_singleton] at member
    simp only [register, List.length_append, List.length_singleton]
    rcases member with earlier | rfl
    · exact Nat.lt_succ_of_lt (sound.fresh task earlier)
    · exact Nat.lt_succ_self _
  · intro metadata member
    simp only [register, OrderedDict.values, entries, List.map_append, List.map_cons, List.map_nil,
      List.mem_append, List.mem_singleton] at member
    rcases member with earlier | rfl
    · exact (sound.described metadata earlier).later later
    · exact ⟨state, found, rfl, rfl⟩
  · refine unwritten_books books rfl ?_
    intro other
    have share : permits * unit groupId other = if groupId = other then permits else 0 := by
      rw [unit, mul_ite, Nat.mul_one, Nat.mul_zero]
    have grown : (dispatcher.register groupId state client permits call).inflightOf other =
        dispatcher.inflightOf other + if groupId = other then permits else 0 := by
      simp only [inflightOf, register, OrderedDict.total, OrderedDict.values, entries,
        List.map_append, List.map_cons, List.map_nil, List.sum_append, List.sum_singleton]
    have sameLive : (dispatcher.register groupId state client permits call).liveToSchedule other =
        dispatcher.liveToSchedule other := rfl
    simp only [grown, sameLive, share, Scheduler.owes]
    omega

/-- The permits of a task are among the rollouts left to schedule. -/
theorem task_call_permits (env : Env) (state : GroupState TaskData Client) (client : Client)
    (modelName : String) (liveSourced : Bool) (left : 0 < state.rolloutsToSchedule) :
    (taskCall env state client modelName liveSourced).1 ≤ state.rolloutsToSchedule := by
  simp only [taskCall]
  split
  · exact Nat.le_refl _
  · exact left

/-- Rollouts taken off a live group are owed by the scheduling call. -/
theorem reserve_schedules {sent owed : Nat → Nat} {groupId permits : Nat}
    {state reserved : GroupState TaskData Client} (client : Client) (call : Call TaskData Client)
    (inflightPermits : Int) (sound : dispatcher.Sound)
    (found : dispatcher.opened[groupId]? = some state) (live : groupId ∈ dispatcher.groups)
    (within : permits ≤ state.rolloutsToSchedule)
    (isReserved : reserved =
      { state with rolloutsToSchedule := state.rolloutsToSchedule - permits })
    (books : Books dispatcher sent owed) :
    Schedules dispatcher
      { dispatcher with
        opened := dispatcher.opened.set groupId reserved
        inflightPermits := inflightPermits }
      (.acquiring groupId client permits permits call) sent owed := by
  obtain ⟨taken, isTaken⟩ : ∃ taken, taken =
      { dispatcher with
        opened := dispatcher.opened.set groupId reserved
        inflightPermits := inflightPermits } := ⟨_, rfl⟩
  have rewritten : taken.opened = dispatcher.opened.set groupId reserved := by rw [isTaken]
  have fewer : ∀ member ∈ taken.groups, member ∈ dispatcher.groups := by
    rw [isTaken]
    exact fun _ member => member
  have later : Later dispatcher taken :=
    rewrite_later found rewritten (by rw [isReserved]) (by rw [isReserved]) fewer (.inr live) (by rw [isTaken])
  rw [← isTaken]
  refine ⟨later, ?_, later.inside (List.getElem?_eq_some_iff.mp found).1, ?_, ?_⟩
  · exact rewrite_sound sound found rewritten (by rw [isReserved]) (by rw [isReserved]) later fewer
      (by rw [isTaken]) (by rw [isTaken])
  · intro other
    have balanced := books.balanced other
    have sameTarget : taken.tally GroupState.targetRollouts other =
        dispatcher.tally GroupState.targetRollouts other :=
      tally_kept found rewritten (by rw [isReserved]) other
    have sameInflight : taken.inflightOf other = dispatcher.inflightOf other := by
      rw [isTaken]
      rfl
    have less : taken.liveToSchedule other + permits * unit groupId other =
        dispatcher.liveToSchedule other := by
      have sameGroups : taken.groups = dispatcher.groups := by rw [isTaken]
      simp only [liveToSchedule, sameGroups, tally_set found reserved _ other rewritten, unit]
      by_cases same : groupId = other
      · subst same
        simp only [live, if_true, tally_found found, isReserved]
        omega
      · simp only [same, if_false, Nat.mul_zero, Nat.add_zero]
    rw [sameTarget, sameInflight]
    simp only [Scheduler.owes]
    omega
  · intro other
    have sameEmitted : taken.tally GroupState.emitted other =
        dispatcher.tally GroupState.emitted other :=
      tally_kept found rewritten (by rw [isReserved]) other
    rw [sameEmitted]
    exact books.emitted other

/-- Dispatching takes rollouts off a live group, and owes them until their task is
registered. -/
theorem dispatch_schedules {sent owed : Nat → Nat} {groupId : Nat}
    {state : GroupState TaskData Client} (client : Client) (modelName : String)
    (liveSourced : Bool) (sound : dispatcher.Sound)
    (found : dispatcher.opened[groupId]? = some state) (live : groupId ∈ dispatcher.groups)
    (left : 0 < state.rolloutsToSchedule) (books : Books dispatcher sent owed) :
    Schedules dispatcher (dispatcher.dispatch groupId state client modelName liveSourced).1
      (dispatcher.dispatch groupId state client modelName liveSourced).2 sent owed := by
  cases collection : dispatcher.envs state.kind with
  | none =>
    simp only [dispatch, collection]
    exact ⟨.refl _, sound, trivial, books⟩
  | some envs =>
    have within := task_call_permits (envs state.envName) state client modelName liveSourced left
    simp only [dispatch, collection]
    generalize taskCall (envs state.envName) state client modelName liveSourced = started at within ⊢
    obtain ⟨permits, call⟩ := started
    simp only at within ⊢
    obtain ⟨reserved, isReserved⟩ : ∃ reserved, reserved =
        { state with rolloutsToSchedule := state.rolloutsToSchedule - permits } := ⟨_, rfl⟩
    obtain ⟨inside, -⟩ := List.getElem?_eq_some_iff.mp found
    have kept := fun inflightPermits =>
      reserve_schedules client call inflightPermits sound found live within isReserved books
    rw [← isReserved]
    split
    · exact kept dispatcher.inflightPermits
    · have taken := kept (dispatcher.inflightPermits + permits)
      have registered := register_schedules client permits call taken.sound
        (List.getElem?_set_self inside) taken.books
      exact { registered with later := taken.later.trans registered.later }


/-- A selected client is pinned and used, unless the group was dropped meanwhile. -/
theorem client_selected_schedules {sent owed : Nat → Nat} {groupId : Nat} (modelName : String)
    (liveSourced : Bool) (client : Client) (sound : dispatcher.Sound)
    (left : 0 < dispatcher.tally GroupState.rolloutsToSchedule groupId)
    (books : Books dispatcher sent owed) :
    Schedules dispatcher (dispatcher.clientSelected groupId modelName liveSourced client).1
      (dispatcher.clientSelected groupId modelName liveSourced client).2 sent owed := by
  cases found : dispatcher.opened[groupId]? with
  | none =>
    simp only [clientSelected, found]
    exact ⟨.refl _, sound, trivial, books⟩
  | some state =>
    rw [tally_found found] at left
    by_cases live : groupId ∈ dispatcher.groups
    · obtain ⟨pinned, isPinned⟩ : ∃ pinned, pinned = { state with pinnedClient := some client } :=
        ⟨_, rfl⟩
      obtain ⟨chosen, isChosen⟩ : ∃ chosen, chosen =
          { dispatcher with opened := dispatcher.opened.set groupId pinned } := ⟨_, rfl⟩
      have rewritten : chosen.opened = dispatcher.opened.set groupId pinned := by rw [isChosen]
      have sameGroups : chosen.groups = dispatcher.groups := by rw [isChosen]
      have fewer : ∀ member ∈ chosen.groups, member ∈ dispatcher.groups := by
        rw [sameGroups]
        exact fun _ member => member
      have later : Later dispatcher chosen :=
        rewrite_later found rewritten (by rw [isPinned]) (by rw [isPinned]) fewer (.inr live) (by rw [isChosen])
      have chosenSound : chosen.Sound :=
        rewrite_sound sound found rewritten (by rw [isPinned]) (by rw [isPinned]) later fewer
          (by rw [isChosen]) (by rw [isChosen])
      have chosenBooks : Books chosen sent owed :=
        rewrite_books books found rewritten (by rw [isPinned]) (by rw [isPinned])
          (by rw [isPinned]) sameGroups (by rw [isChosen])
      have chosenFound : chosen.opened[groupId]? = some pinned := by
        rw [rewritten, List.getElem?_set_self (List.getElem?_eq_some_iff.mp found).1]
      have dispatched := dispatch_schedules client modelName liveSourced chosenSound chosenFound
        (sameGroups ▸ live) (by rw [isPinned]; exact left) chosenBooks
      simp only [clientSelected, found, live, if_true]
      rw [← isPinned, ← isChosen]
      exact { dispatched with later := later.trans dispatched.later }
    · simp only [clientSelected, found, live, if_false]
      exact ⟨.refl _, sound, trivial, books⟩

/-- The last permit registers the task, and any other leaves it waiting. -/
theorem permit_acquired_schedules {sent owed : Nat → Nat} {groupId : Nat} (client : Client)
    (permits left : Nat) (call : Call TaskData Client) (sound : dispatcher.Sound)
    (inside : groupId < dispatcher.opened.length)
    (books : Books dispatcher sent (fun other => owed other + permits * unit groupId other)) :
    Schedules dispatcher (dispatcher.permitAcquired groupId client permits left call).1
      (dispatcher.permitAcquired groupId client permits left call).2 sent owed := by
  obtain ⟨reserved, isReserved⟩ : ∃ reserved, reserved =
      { dispatcher with inflightPermits := dispatcher.inflightPermits + 1 } := ⟨_, rfl⟩
  have later : Later dispatcher reserved := by
    rw [isReserved]
    exact unwritten_later rfl (fun _ member => member) rfl
  have reservedSound : reserved.Sound := by
    rw [isReserved]
    exact unwritten_sound sound rfl (fun _ member => member) (fun _ member => member) rfl rfl
  have reservedBooks : Books reserved sent
      (fun other => owed other + permits * unit groupId other) := by
    rw [isReserved]
    exact unwritten_books books rfl (fun _ => rfl)
  simp only [permitAcquired]
  rw [← isReserved]
  split
  · have found : dispatcher.opened[groupId]? = some dispatcher.opened[groupId] :=
      List.getElem?_eq_getElem inside
    have reservedFound : reserved.opened[groupId]? = some dispatcher.opened[groupId] := by
      rw [isReserved]
      exact found
    have registered :=
      register_schedules client permits call reservedSound reservedFound reservedBooks
    simp only [found]
    exact { registered with later := later.trans registered.later }
  · exact ⟨later, reservedSound, later.inside inside, reservedBooks⟩

/-- A call for a group with rollouts to schedule selects a client or dispatches. -/
theorem schedule_group_schedules {sent owed : Nat → Nat} {groupId : Nat}
    {state : GroupState TaskData Client} (sound : dispatcher.Sound)
    (found : dispatcher.opened[groupId]? = some state) (live : groupId ∈ dispatcher.groups)
    (left : 0 < state.rolloutsToSchedule) (books : Books dispatcher sent owed) :
    Schedules dispatcher (dispatcher.scheduleGroupRollout groupId state).1
      (dispatcher.scheduleGroupRollout groupId state).2 sent owed := by
  simp only [scheduleGroupRollout]
  cases pinned : state.pinnedClient with
  | none =>
    refine ⟨.refl _, sound, ?_, books⟩
    simp only [Scheduler.Sound, tally_found found]
    exact left
  | some client => exact dispatch_schedules client _ _ sound found live left books

/-- A fresh group is live with all its rollouts left to schedule. -/
theorem open_schedules {sent owed : Nat → Nat} (fresh : GroupState TaskData Client)
    (sound : dispatcher.Sound) (books : Books dispatcher sent owed)
    (stepped : fresh.kind = .eval → fresh.evalStep ≠ none)
    (whole : fresh.rolloutsToSchedule = fresh.targetRollouts) (unemitted : fresh.emitted = 0) :
    Schedules dispatcher
      { dispatcher with
        opened := dispatcher.opened ++ [fresh]
        groups := dispatcher.groups ++ [dispatcher.opened.length] }
      .idle sent owed := by
  obtain ⟨grown, isGrown⟩ : ∃ grown, grown =
      { dispatcher with
        opened := dispatcher.opened ++ [fresh]
        groups := dispatcher.groups ++ [dispatcher.opened.length] } := ⟨_, rfl⟩
  have opened : grown.opened = dispatcher.opened ++ [fresh] := by rw [isGrown]
  have groups : grown.groups = dispatcher.groups ++ [dispatcher.opened.length] := by rw [isGrown]
  have inflight : grown.inflight = dispatcher.inflight := by rw [isGrown]
  have listed : ∀ groupId, grown.opened[groupId]? =
      if groupId = dispatcher.opened.length then some fresh else dispatcher.opened[groupId]? := by
    intro groupId
    rw [opened]
    rcases Nat.lt_trichotomy groupId dispatcher.opened.length with inside | rfl | outside
    · rw [List.getElem?_append_left inside, if_neg (Nat.ne_of_lt inside)]
    · rw [List.getElem?_concat_length, if_pos rfl]
    · rw [if_neg (Nat.ne_of_gt outside), List.getElem?_eq_none (Nat.le_of_lt outside),
        List.getElem?_eq_none (by rw [List.length_append, List.length_singleton]; omega)]
  have tallied : ∀ field groupId, grown.tally field groupId =
      if groupId = dispatcher.opened.length then field fresh
      else dispatcher.tally field groupId := by
    intro field groupId
    rw [tally, listed]
    split
    · rfl
    · rfl
  have later : Later dispatcher grown := by
    refine ⟨?_, ?_, ?_, ?_⟩
    · intro groupId state found
      obtain ⟨inside, -⟩ := List.getElem?_eq_some_iff.mp found
      exact ⟨state, by rw [opened, List.getElem?_append_left inside, found], rfl, rfl⟩
    · intro groupId inside absent member
      rw [groups] at member
      rcases List.mem_append.mp member with live | new
      · exact absent live
      · exact Nat.lt_irrefl _ (List.mem_singleton.mp new ▸ inside)
    · intro groupId inside _
      rw [tallied, if_neg (Nat.ne_of_lt inside)]
    · rw [isGrown]
  rw [← isGrown]
  refine ⟨later, ⟨?_, ?_, ?_, ?_⟩, trivial, ?_, ?_⟩
  · intro groupId member
    rw [groups] at member
    rcases List.mem_append.mp member with live | new
    · exact later.inside (sound.live groupId live)
    · rw [List.mem_singleton.mp new, opened, List.length_append, List.length_singleton]
      exact Nat.lt_succ_self _
  · rw [isGrown]
    exact sound.fresh
  · rw [inflight]
    exact fun metadata member => (sound.described metadata member).later later
  · intro groupId state found isEval
    rw [listed] at found
    split at found
    · obtain rfl := Option.some.inj found
      exact stepped isEval
    · exact sound.stepped groupId state found isEval
  · intro groupId
    have balanced := books.balanced groupId
    have sameInflight : grown.inflightOf groupId = dispatcher.inflightOf groupId := by
      rw [inflightOf, inflight, inflightOf]
    rw [sameInflight, liveToSchedule, groups, tallied, tallied]
    simp only [List.mem_append, List.mem_singleton, Scheduler.owes]
    by_cases new : groupId = dispatcher.opened.length
    · -- Nothing was booked for a group that was not opened.
      have unopened : dispatcher.tally GroupState.targetRollouts groupId = 0 := by
        rw [tally, new, List.getElem?_eq_none (Nat.le_refl _)]
        rfl
      simp only [new, or_true, if_true]
      rw [new] at balanced unopened
      omega
    · simp only [new, or_false, if_false]
      exact balanced
  · intro groupId
    rw [tallied]
    split
    · rw [unemitted]
      exact Nat.zero_le _
    · exact books.emitted groupId

/-- Scheduling continues a group or opens one, and goes on to its next suspension. -/
theorem try_schedule_schedules {sent owed : Nat → Nat} {kind : RolloutKind}
    {nextExample : Option (Example TaskData)} (sound : dispatcher.Sound)
    (stepped : kind = .eval → ∀ picked, nextExample = some picked → picked.evalStep ≠ none)
    (books : Books dispatcher sent owed) :
    Schedules dispatcher (dispatcher.trySchedule kind nextExample).1
      (dispatcher.trySchedule kind nextExample).2 sent owed := by
  have nothing : Schedules dispatcher dispatcher .idle sent owed := ⟨.refl _, sound, trivial, books⟩
  simp only [trySchedule]
  split
  · exact nothing
  cases collection : dispatcher.envs kind with
  | none => exact nothing
  | some envs =>
    simp only
    cases continued : dispatcher.groups.find? (dispatcher.continuable kind envs) with
    | some groupId =>
      have fits := List.find?_some continued
      have live := List.mem_of_find?_eq_some continued
      simp only [continuable] at fits
      split at fits
      · cases fits
      · rename_i state found
        simp only [found]
        exact schedule_group_schedules sound found live (of_decide_eq_true fits).2.1 books
    | none =>
      cases nextExample with
      | none => exact nothing
      | some picked =>
        obtain ⟨fresh, isFresh⟩ : ∃ fresh, fresh =
            dispatcher.nextFreshGroup kind (envs picked.envName) picked := ⟨_, rfl⟩
        have positive : 0 < fresh.rolloutsToSchedule := by
          rw [isFresh]
          exact (envs picked.envName).positive
        have opened := open_schedules fresh sound books
          (by
            rw [isFresh]
            rintro rfl
            exact stepped rfl picked rfl)
          (by rw [isFresh]; rfl) (by rw [isFresh]; rfl)
        simp only
        rw [← isFresh]
        have scheduled := schedule_group_schedules opened.sound List.getElem?_concat_length
          (List.mem_append_right _ (List.mem_singleton_self _)) positive opened.books
        exact { scheduled with later := opened.later.trans scheduled.later }


end RolloutDispatcher

end PrimeRl.Orchestrator.Dispatcher
