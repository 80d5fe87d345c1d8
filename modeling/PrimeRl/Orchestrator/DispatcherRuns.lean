import Mathlib.Algebra.Ring.Int.Defs
import Mathlib.Algebra.Ring.Nat
import PrimeRl.Orchestrator.DispatcherScheduling
import PrimeRl.Support.Machine
import PrimeRl.Support.Pool

/-!
# Runs of the rollout dispatcher

One scheduling call runs at a time, in the dispatch loop. Finished tasks, version
changes and drops are handled by coroutines, and any number of these interleave
with the scheduling call at every suspension. A put waits for room in the queue,
which the sink empties whenever it likes.
-/

namespace PrimeRl.Orchestrator.Dispatcher

open RolloutDispatcher

universe u
variable {Trace Failure TaskData Client : Type u}

structure DispatcherRun (Trace TaskData Client : Type u) where
  dispatcher : RolloutDispatcher Trace TaskData Client
  scheduler : Scheduler TaskData Client := .idle
  coroutines : List (Coroutine Trace Client) := []
  received : List (Rollout Trace) := []

inductive DispatcherAction (Trace Failure TaskData Client : Type u) where
  | trySchedule (kind : RolloutKind) (nextExample : Option (Example TaskData))
  | clientSelected (client : Client)
  | permitAcquired
  | handleCompleted (task : Nat) (outcome : TaskOutcome Trace Failure)
  | versionPending (order : List Nat)
  | dropGroup (groupId : Nat)
  | resume (coroutine : Nat)
  | receive
  | setPolicy (policy : Policy)
  | disableTrainScheduling

namespace DispatcherRun

def schedule (run : DispatcherRun Trace TaskData Client)
    (result : RolloutDispatcher Trace TaskData Client × Scheduler TaskData Client) :
    DispatcherRun Trace TaskData Client :=
  { run with dispatcher := result.1, scheduler := result.2 }

def spawn (run : DispatcherRun Trace TaskData Client)
    (result : RolloutDispatcher Trace TaskData Client × Coroutine Trace Client) :
    DispatcherRun Trace TaskData Client :=
  { run with dispatcher := result.1, coroutines := run.coroutines ++ [result.2] }

def replace (run : DispatcherRun Trace TaskData Client) (index : Nat)
    (result : RolloutDispatcher Trace TaskData Client × Coroutine Trace Client) :
    DispatcherRun Trace TaskData Client :=
  { run with dispatcher := result.1, coroutines := run.coroutines.set index result.2 }

/-- The put of a coroutine, once there is room. -/
def put (dispatcher : RolloutDispatcher Trace TaskData Client) (rollout : Rollout Trace) :
    Option (RolloutDispatcher Trace TaskData Client) :=
  if (dispatcher.outQ.length : Int) < dispatcher.maxsize then
    some { dispatcher with outQ := dispatcher.outQ ++ [rollout] }
  else none

/-- A suspended coroutine runs to its next suspension. -/
def resumed (traces : TraceOps Trace Failure TaskData)
    (dispatcher : RolloutDispatcher Trace TaskData Client) :
    Coroutine Trace Client →
      Option (RolloutDispatcher Trace TaskData Client × Coroutine Trace Client)
  | .completing metadata group putting rest =>
    (put dispatcher putting).map (fun next => next.completeNext traces metadata group rest)
  | .dropping drop putting rest later =>
    (put dispatcher putting).map (fun next =>
      afterMark (dropGroups traces later) later (next.markNext traces drop rest))
  | .cancelling later => some (dropGroups traces later dispatcher)
  | .returned => none
  | .raised => none

def step (traces : TraceOps Trace Failure TaskData) (run : DispatcherRun Trace TaskData Client) :
    DispatcherAction Trace Failure TaskData Client → Option (DispatcherRun Trace TaskData Client)
  | .trySchedule kind nextExample =>
    match run.scheduler with
    | .idle => some (run.schedule (run.dispatcher.trySchedule kind nextExample))
    | _ => none
  | .clientSelected client =>
    match run.scheduler with
    | .selecting groupId modelName liveSourced =>
      some (run.schedule (run.dispatcher.clientSelected groupId modelName liveSourced client))
    | _ => none
  | .permitAcquired =>
    match run.scheduler with
    | .acquiring groupId client permits left call =>
      some (run.schedule (run.dispatcher.permitAcquired groupId client permits left call))
    | _ => none
  | .handleCompleted task outcome =>
    some (run.spawn (run.dispatcher.handleCompletedRollout traces task outcome))
  | .versionPending order =>
    let aged := run.dispatcher.age
    if order.Perm aged.staleGroups then some (run.spawn (dropGroups traces order aged)) else none
  | .dropGroup groupId => some (run.spawn (dropGroups traces [groupId] run.dispatcher))
  | .resume index =>
    (run.coroutines[index]?).bind (fun coroutine =>
      (resumed traces run.dispatcher coroutine).map (run.replace index))
  | .receive =>
    match run.dispatcher.outQ with
    | [] => none
    | rollout :: rest =>
      some
        { run with
          dispatcher := { run.dispatcher with outQ := rest }
          received := run.received ++ [rollout] }
  | .setPolicy policy => some { run with dispatcher := { run.dispatcher with policy := policy } }
  | .disableTrainScheduling =>
    some { run with dispatcher := { run.dispatcher with trainSchedulingDisabled := true } }

/-- Tasks end as their calls promise, and the evaluation source gives each of its
examples a step. -/
def expected (run : DispatcherRun Trace TaskData Client) :
    DispatcherAction Trace Failure TaskData Client → Bool
  | .trySchedule kind nextExample =>
    decide (kind = .train) || nextExample.all (fun picked => picked.evalStep.isSome)
  | .handleCompleted task outcome =>
    (run.dispatcher.inflight.get? task).all (fun metadata => decide (Ordinary metadata outcome))
  | _ => true

/-- A step in which nothing but what is expected happens. -/
def expectedStep (traces : TraceOps Trace Failure TaskData)
    (run : DispatcherRun Trace TaskData Client)
    (action : DispatcherAction Trace Failure TaskData Client) :
    Option (DispatcherRun Trace TaskData Client) :=
  if run.expected action then run.step traces action else none

/-- Rollouts of a group that were put, whether or not the sink received them. -/
def putOf (received : List (Rollout Trace)) (dispatcher : RolloutDispatcher Trace TaskData Client)
    (groupId : Nat) : Nat :=
  (received ++ dispatcher.outQ).countP (fun rollout => rollout.groupId = groupId)

/-- Every rollout is accounted for, no coroutine relies on what is not so, and no
group is held twice. -/
structure Accounted (dispatcher : RolloutDispatcher Trace TaskData Client)
    (scheduler : Scheduler TaskData Client) (coroutines : List (Coroutine Trace Client))
    (received : List (Rollout Trace)) : Prop where
  sound : dispatcher.Sound
  relies : ∀ coroutine ∈ coroutines, coroutine.Sound dispatcher
  selecting : scheduler.Sound dispatcher
  books : Books dispatcher
    (fun groupId => putOf received dispatcher groupId +
      (coroutines.map (fun coroutine => coroutine.sent groupId)).sum)
    (fun groupId => scheduler.owes groupId +
      (coroutines.map (fun coroutine => coroutine.owes dispatcher groupId)).sum)
  single : ∀ groupId, coroutines.countP (fun coroutine => coroutine.holds groupId) ≤ 1

variable {dispatcher next : RolloutDispatcher Trace TaskData Client}
  {scheduler nextScheduler : Scheduler TaskData Client}
  {coroutine : Coroutine Trace Client} {coroutines : List (Coroutine Trace Client)}
  {received : List (Rollout Trace)}

/-- The order of the coroutines does not matter. -/
theorem Accounted.perm {reordered : List (Coroutine Trace Client)}
    (accounted : Accounted dispatcher scheduler coroutines received)
    (same : coroutines.Perm reordered) : Accounted dispatcher scheduler reordered received where
  sound := accounted.sound
  relies := fun coroutine member => accounted.relies coroutine (same.mem_iff.mpr member)
  selecting := accounted.selecting
  books := by
    refine accounted.books.restate ?_ ?_
    · intro groupId
      rw [(same.map _).sum_eq]
    · intro groupId
      rw [(same.map _).sum_eq]
  single := by
    intro groupId
    rw [← same.countP_eq]
    exact accounted.single groupId

/-- What suspended coroutines owe does not depend on what others do. -/
theorem owes_later (relies : ∀ coroutine ∈ coroutines, coroutine.Sound dispatcher)
    (later : Later dispatcher next) (groupId : Nat) :
    (coroutines.map (fun coroutine => coroutine.owes next groupId)).sum =
      (coroutines.map (fun coroutine => coroutine.owes dispatcher groupId)).sum := by
  congr 1
  apply List.map_congr_left
  intro coroutine member
  exact (relies coroutine member).owes_later later groupId

/-- Nothing is put before a suspension. -/
theorem put_later (later : Later dispatcher next) (groupId : Nat) :
    putOf received next groupId = putOf received dispatcher groupId := by
  rw [putOf, later.queued, putOf]

/-- A scheduling call went on to its next suspension. -/
theorem Accounted.scheduled (accounted : Accounted dispatcher scheduler coroutines received)
    (schedules : Schedules dispatcher next nextScheduler
      (fun groupId => putOf received dispatcher groupId +
        (coroutines.map (fun coroutine => coroutine.sent groupId)).sum)
      (fun groupId => (coroutines.map (fun coroutine => coroutine.owes dispatcher groupId)).sum)) :
    Accounted next nextScheduler coroutines received where
  sound := schedules.sound
  relies := fun coroutine member => (accounted.relies coroutine member).later schedules.later
  selecting := schedules.relies
  books := by
    refine schedules.books.restate ?_ ?_
    · intro groupId
      rw [put_later schedules.later]
    intro groupId
    rw [owes_later accounted.relies schedules.later, Nat.add_comm]
  single := accounted.single

/-- A suspended scheduling call still has what it relies on. -/
theorem selecting_later (selecting : scheduler.Sound dispatcher) (later : Later dispatcher next)
    (steady : ∀ groupId, next.tally GroupState.rolloutsToSchedule groupId =
      dispatcher.tally GroupState.rolloutsToSchedule groupId) : scheduler.Sound next := by
  cases scheduler with
  | idle => trivial
  | selecting groupId modelName liveSourced =>
    rw [Scheduler.Sound, steady]
    exact selecting
  | acquiring groupId client permits left call => exact later.inside selecting

/-- A coroutine went on to its next suspension, with its share put or taken from the
dispatcher, and with no group that another one holds. -/
theorem suspended_accounted
    (relies : ∀ other ∈ coroutines, other.Sound dispatcher)
    (selecting : scheduler.Sound dispatcher)
    (single : ∀ groupId, coroutines.countP (fun other => other.holds groupId) ≤ 1)
    (alone : ∀ groupId, coroutine.holds groupId = true →
      coroutines.countP (fun other => other.holds groupId) = 0)
    (suspends : Suspends dispatcher next coroutine
      (fun groupId => putOf received dispatcher groupId + (coroutines.map (fun other => other.sent groupId)).sum)
      (fun groupId => scheduler.owes groupId +
        (coroutines.map (fun other => other.owes dispatcher groupId)).sum)) :
    Accounted next scheduler (coroutine :: coroutines) received where
  sound := suspends.sound
  relies := by
    rintro other member
    rcases List.mem_cons.mp member with rfl | earlier
    · exact suspends.relies
    · exact (relies other earlier).later suspends.later
  selecting := selecting_later selecting suspends.later suspends.steady
  books := by
    refine suspends.books.restate ?_ ?_
    · intro groupId
      rw [List.map_cons, List.sum_cons, put_later suspends.later]
      omega
    · intro groupId
      rw [List.map_cons, List.sum_cons, owes_later relies suspends.later]
      omega
  single := by
    intro groupId
    rw [List.countP_cons]
    by_cases held : coroutine.holds groupId = true
    · have none := alone groupId held
      have one : (if coroutine.holds groupId = true then 1 else 0) = 1 := if_pos held
      omega
    · rw [if_neg held]
      exact single groupId

/-- No coroutine holds a live group. -/
theorem live_unheld (relies : ∀ other ∈ coroutines, other.Sound dispatcher) {groupId : Nat}
    (live : groupId ∈ dispatcher.groups) :
    coroutines.countP (fun other => other.holds groupId) = 0 := by
  rw [List.countP_eq_zero]
  rintro other member held
  have sound := relies other member
  cases other with
  | dropping drop rollout rest later =>
    have holds := of_decide_eq_true held
    rcases sound.1.popped with missing | ⟨popped, -, absent⟩
    · rw [missing] at holds
      cases holds.2
    · obtain rfl := Option.some.inj (popped.symm.trans holds.2)
      exact absent live
  | completing metadata group rollout rest => cases held
  | cancelling later => cases held
  | returned => cases held
  | raised => cases held

/-- A coroutine that starts is accounted for. -/
theorem Accounted.spawned (accounted : Accounted dispatcher scheduler coroutines received)
    (claims : ∀ groupId, coroutine.holds groupId = true → groupId ∈ dispatcher.groups)
    (suspends : Suspends dispatcher next coroutine
      (fun groupId => putOf received dispatcher groupId + (coroutines.map (fun other => other.sent groupId)).sum)
      (fun groupId => scheduler.owes groupId +
        (coroutines.map (fun other => other.owes dispatcher groupId)).sum)) :
    Accounted next scheduler (coroutines ++ [coroutine]) received :=
  (suspended_accounted accounted.relies accounted.selecting accounted.single
    (fun groupId held => live_unheld accounted.relies (claims groupId held)) suspends).perm
      (List.perm_append_singleton coroutine coroutines).symm

/-- No coroutine relies on the queue. -/
theorem relies_queue (relies : coroutine.Sound dispatcher) (queue : List (Rollout Trace)) :
    coroutine.Sound { dispatcher with outQ := queue } := by
  cases coroutine with
  | completing metadata group rollout rest => exact relies
  | dropping drop rollout rest later => exact ⟨⟨relies.1.popped, relies.1.last⟩, relies.2⟩
  | cancelling later => trivial
  | returned => trivial
  | raised => exact relies

theorem owes_queue (queue : List (Rollout Trace)) (groupId : Nat) :
    coroutine.owes { dispatcher with outQ := queue } groupId =
      coroutine.owes dispatcher groupId := by
  cases coroutine with
  | completing metadata group rollout rest => rfl
  | dropping drop rollout rest later => rfl
  | cancelling later => rfl
  | returned => rfl
  | raised => rfl

theorem selecting_queue (selecting : scheduler.Sound dispatcher) (queue : List (Rollout Trace)) :
    scheduler.Sound { dispatcher with outQ := queue } := by
  cases scheduler with
  | idle => trivial
  | selecting groupId modelName liveSourced => exact selecting
  | acquiring groupId client permits left call => exact selecting

/-- A put counts the rollout that was at its put. -/
theorem put_counts (rollout : Rollout Trace) (groupId : Nat) :
    putOf received { dispatcher with outQ := dispatcher.outQ ++ [rollout] } groupId =
      putOf received dispatcher groupId + unit rollout.groupId groupId := by
  simp only [putOf, unit, List.countP_append, List.countP_singleton, decide_eq_true_eq]
  omega

/-- Behind a put nothing else changed. The books show the rollout as put, and what its
coroutine still owes. -/
theorem Accounted.behind_put {others : List (Coroutine Trace Client)} {rollout : Rollout Trace}
    {behind : RolloutDispatcher Trace TaskData Client}
    (accounted : Accounted dispatcher scheduler (coroutine :: others) received)
    (sends : ∀ groupId, coroutine.sent groupId = unit rollout.groupId groupId)
    (accepted : put dispatcher rollout = some behind) :
    behind.Sound ∧ coroutine.Sound behind ∧ (∀ other ∈ others, other.Sound behind) ∧
      scheduler.Sound behind ∧
      Books behind
        (fun groupId => putOf received behind groupId +
          (others.map (fun other => other.sent groupId)).sum)
        (fun groupId => (scheduler.owes groupId +
          (others.map (fun other => other.owes behind groupId)).sum) +
            coroutine.owes behind groupId) := by
  obtain ⟨-, ⟨rfl⟩⟩ := Option.ite_none_right_eq_some.mp accepted
  obtain ⟨live, fresh, described, stepped⟩ := accounted.sound
  refine ⟨⟨live, fresh, described, stepped⟩,
    relies_queue (accounted.relies coroutine List.mem_cons_self) _,
    fun other member => relies_queue (accounted.relies other (List.mem_cons_of_mem _ member)) _,
    selecting_queue accounted.selecting _, ?_⟩
  have same : Books { dispatcher with outQ := dispatcher.outQ ++ [rollout] } _ _ :=
    ⟨accounted.books.balanced, accounted.books.emitted⟩
  refine same.restate ?_ ?_
  · intro groupId
    rw [put_counts, List.map_cons, List.sum_cons, sends]
    omega
  · intro groupId
    simp only [owes_queue, List.map_cons, List.sum_cons]
    omega

/-- A coroutine that resumes is accounted for at its next suspension. -/
theorem Accounted.resumed {others : List (Coroutine Trace Client)}
    {result : RolloutDispatcher Trace TaskData Client × Coroutine Trace Client}
    (traces : TraceOps Trace Failure TaskData)
    (accounted : Accounted dispatcher scheduler (coroutine :: others) received)
    (ran : resumed traces dispatcher coroutine = some result) :
    Accounted result.1 scheduler (result.2 :: others) received := by
  have single : ∀ groupId, others.countP (fun other => other.holds groupId) ≤ 1 := by
    intro groupId
    have bound := accounted.single groupId
    rw [List.countP_cons] at bound
    exact Nat.le_of_add_right_le bound
  cases coroutine with
  | completing metadata group rollout rest =>
    obtain ⟨behind, accepted, rfl⟩ := Option.map_eq_some_iff.mp ran
    obtain ⟨sound, mine, relies, selecting, books⟩ :=
      accounted.behind_put (fun _ => rfl) accepted
    refine suspended_accounted relies selecting single ?_
      (complete_next_suspends traces sound mine.1 mine.2 books)
    intro groupId held
    rw [complete_next_holds] at held
    cases held
  | dropping drop rollout rest later =>
    obtain ⟨behind, accepted, rfl⟩ := Option.map_eq_some_iff.mp ran
    obtain ⟨sound, mine, relies, selecting, books⟩ :=
      accounted.behind_put (fun _ => rfl) accepted
    refine suspended_accounted relies selecting single ?_
      (mark_next_suspends traces sound mine.1 mine.2 books
        (fun next nextSound nextBooks => drop_groups_suspends traces later nextSound nextBooks))
    intro groupId held
    rcases mark_next_holds traces held with still | ⟨next, sameGroups, later⟩
    · have bound := accounted.single groupId
      have held : (Coroutine.dropping drop rollout rest later).holds groupId = true := still
      rw [List.countP_cons, if_pos held] at bound
      omega
    · have live := drop_groups_holds traces _ later
      exact live_unheld relies (sameGroups ▸ live)
  | cancelling later =>
    obtain rfl := Option.some.inj ran
    have relies : ∀ other ∈ others, other.Sound dispatcher :=
      fun other member => accounted.relies other (List.mem_cons_of_mem _ member)
    refine suspended_accounted relies accounted.selecting single
      (fun groupId held => live_unheld relies (drop_groups_holds traces later held))
      (drop_groups_suspends traces later accounted.sound ?_)
    refine accounted.books.restate ?_ ?_
    · intro groupId
      simp only [List.map_cons, List.sum_cons, Coroutine.sent, Nat.zero_add]
    · intro groupId
      simp only [List.map_cons, List.sum_cons, Coroutine.owes, Nat.zero_add]
  | returned => cases ran
  | raised => cases ran


variable {run after : DispatcherRun Trace TaskData Client}

/-- The invariant of a run. -/
def Accounts (run : DispatcherRun Trace TaskData Client) : Prop :=
  Accounted run.dispatcher run.scheduler run.coroutines run.received

/-- Scheduling goes on with what it has the example for. -/
theorem try_schedule_accounts {kind : RolloutKind} {nextExample : Option (Example TaskData)}
    (accounts : Accounts run)
    (stepped : kind = .eval → ∀ picked, nextExample = some picked → picked.evalStep ≠ none)
    (idle : run.scheduler = .idle) :
    Accounts (run.schedule (run.dispatcher.trySchedule kind nextExample)) := by
  refine accounts.scheduled (try_schedule_schedules accounts.sound stepped ?_)
  refine accounts.books.restate (fun _ => rfl) ?_
  intro groupId
  simp only [idle, Scheduler.owes, Nat.zero_add]

theorem client_selected_accounts {groupId : Nat} {modelName : String} {liveSourced : Bool}
    (accounts : Accounts run)
    (selecting : run.scheduler = .selecting groupId modelName liveSourced) (client : Client) :
    Accounts (run.schedule
      (run.dispatcher.clientSelected groupId modelName liveSourced client)) := by
  have left := accounts.selecting
  rw [selecting] at left
  refine accounts.scheduled
    (client_selected_schedules modelName liveSourced client accounts.sound left ?_)
  refine accounts.books.restate (fun _ => rfl) ?_
  intro groupId
  simp only [selecting, Scheduler.owes, Nat.zero_add]

theorem permit_acquired_accounts {groupId permits left : Nat} {client : Client}
    {call : Call TaskData Client} (accounts : Accounts run)
    (acquiring : run.scheduler = .acquiring groupId client permits left call) :
    Accounts (run.schedule
      (run.dispatcher.permitAcquired groupId client permits left call)) := by
  have inside := accounts.selecting
  rw [acquiring] at inside
  refine accounts.scheduled
    (permit_acquired_schedules client permits left call accounts.sound inside ?_)
  refine accounts.books.restate (fun _ => rfl) ?_
  intro groupId
  simp only [acquiring, Scheduler.owes]
  exact Nat.add_comm _ _

/-- A version change ages rollouts and starts to drop groups. -/
theorem version_pending_accounts (traces : TraceOps Trace Failure TaskData) (order : List Nat)
    (accounts : Accounts run) :
    Accounts (run.spawn (dropGroups traces order run.dispatcher.age)) := by
  refine accounts.spawned ?_ ?_
  · intro groupId held
    have live := drop_groups_holds traces order held
    exact live
  · have aged := drop_groups_suspends traces order (age_sound accounts.sound)
      (age_books accounts.books)
    exact aged.behind (age_later _) (tally_unwritten rfl _)

/-- Nobody relies on the settings. -/
theorem settings_accounts (accounts : Accounts run) (policy : Policy) (disabled : Bool) :
    Accounts
      { run with
        dispatcher :=
          { run.dispatcher with
            policy := policy
            trainSchedulingDisabled := disabled } } := by
  obtain ⟨next, isNext⟩ : ∃ next, next =
      { run.dispatcher with
        policy := policy
        trainSchedulingDisabled := disabled } := ⟨_, rfl⟩
  have later : Later run.dispatcher next := by
    rw [isNext]
    exact unwritten_later rfl (fun _ member => member) rfl
  have scheduled : Schedules run.dispatcher next run.scheduler
      (fun groupId => putOf run.received run.dispatcher groupId +
        (run.coroutines.map (fun other => other.sent groupId)).sum)
      (fun groupId =>
        (run.coroutines.map (fun other => other.owes run.dispatcher groupId)).sum) := by
    refine ⟨later, ?_, selecting_later accounts.selecting later ?_, ?_⟩
    · rw [isNext]
      exact unwritten_sound accounts.sound rfl (fun _ member => member) (fun _ member => member)
        rfl rfl
    · rw [isNext]
      exact tally_unwritten rfl _
    · rw [isNext]
      refine unwritten_books accounts.books rfl ?_
      intro groupId
      simp only [Nat.add_comm (run.scheduler.owes groupId)]
      rfl
  rw [← isNext]
  exact accounts.scheduled scheduled

/-- The sink receives what was put. -/
theorem receive_accounts {rollout : Rollout Trace} {rest : List (Rollout Trace)}
    (accounts : Accounts run) (queued : run.dispatcher.outQ = rollout :: rest) :
    Accounts
      { run with
        dispatcher := { run.dispatcher with outQ := rest }
        received := run.received ++ [rollout] } := by
  obtain ⟨live, fresh, described, stepped⟩ := accounts.sound
  refine ⟨⟨live, fresh, described, stepped⟩,
    fun other member => relies_queue (accounts.relies other member) _,
    selecting_queue accounts.selecting _, ?_, accounts.single⟩
  have same : Books { run.dispatcher with outQ := rest } _ _ :=
    ⟨accounts.books.balanced, accounts.books.emitted⟩
  refine same.restate ?_ ?_
  · intro groupId
    simp only [putOf, queued, List.append_assoc, List.singleton_append]
  · intro groupId
    simp only [owes_queue]

/-- Every step keeps the accounts. -/
theorem step_accounts {action : DispatcherAction Trace Failure TaskData Client}
    (traces : TraceOps Trace Failure TaskData) (accounts : Accounts run)
    (accepted : run.expectedStep traces action = some after) : Accounts after := by
  obtain ⟨asExpected, accepted⟩ := Option.ite_none_right_eq_some.mp accepted
  cases action with
  | trySchedule kind nextExample =>
    simp only [step] at accepted
    split at accepted
    · rename_i idle
      obtain rfl := Option.some.inj accepted
      refine try_schedule_accounts accounts ?_ idle
      rintro rfl picked rfl missing
      simp only [expected, reduceCtorEq, decide_false, Bool.false_or, Option.all_some, missing,
        Option.isSome_none, Bool.false_eq_true] at asExpected
    · cases accepted
  | clientSelected client =>
    simp only [step] at accepted
    split at accepted
    · rename_i selecting
      obtain rfl := Option.some.inj accepted
      exact client_selected_accounts accounts selecting client
    · cases accepted
  | permitAcquired =>
    simp only [step] at accepted
    split at accepted
    · rename_i acquiring
      obtain rfl := Option.some.inj accepted
      exact permit_acquired_accounts accounts acquiring
    · cases accepted
  | handleCompleted task outcome =>
    obtain rfl := Option.some.inj accepted
    refine accounts.spawned ?_ (handle_suspends traces accounts.sound ?_ accounts.books)
    · intro groupId held
      rw [handle_holds] at held
      cases held
    · intro metadata found
      simp only [expected, found, Option.all_some] at asExpected
      exact of_decide_eq_true asExpected
  | versionPending order =>
    obtain ⟨-, ⟨rfl⟩⟩ := Option.ite_none_right_eq_some.mp accepted
    exact version_pending_accounts traces order accounts
  | dropGroup groupId =>
    obtain rfl := Option.some.inj accepted
    exact accounts.spawned (fun other held => drop_groups_holds traces [groupId] held)
      (drop_groups_suspends traces [groupId] accounts.sound accounts.books)
  | resume index =>
    obtain ⟨coroutine, found, accepted⟩ := Option.bind_eq_some_iff.mp accepted
    obtain ⟨result, ran, rfl⟩ := Option.map_eq_some_iff.mp accepted
    obtain ⟨others, before, replaced⟩ := Pool.set_perm run.coroutines index coroutine found
    exact ((accounts.perm before).resumed traces ran).perm (replaced result.2).symm
  | receive =>
    simp only [step] at accepted
    split at accepted
    · cases accepted
    · rename_i queued
      obtain rfl := Option.some.inj accepted
      exact receive_accounts accounts queued
  | setPolicy policy =>
    obtain rfl := Option.some.inj accepted
    exact settings_accounts accounts policy run.dispatcher.trainSchedulingDisabled
  | disableTrainScheduling =>
    obtain rfl := Option.some.inj accepted
    exact settings_accounts accounts run.dispatcher.policy true

/-- A dispatcher before its first group. -/
def start (config : DispatcherConfig) (policy : Policy) : DispatcherRun Trace TaskData Client :=
  { dispatcher := { config := config, policy := policy } }

theorem start_accounts (config : DispatcherConfig) (policy : Policy) :
    Accounts (start config policy : DispatcherRun Trace TaskData Client) where
  sound :=
    { live := fun _ impossible => absurd impossible List.not_mem_nil
      fresh := fun _ impossible => absurd impossible List.not_mem_nil
      described := fun _ impossible => absurd impossible List.not_mem_nil
      stepped := fun _ _ impossible => nomatch impossible }
  relies := fun _ impossible => absurd impossible List.not_mem_nil
  selecting := trivial
  books := ⟨fun _ => rfl, fun _ => Nat.zero_le _⟩
  single := fun _ => Nat.zero_le _

/-- Every run keeps the accounts. -/
theorem run_accounts {traces : TraceOps Trace Failure TaskData} {config : DispatcherConfig}
    {policy : Policy} {actions : List (DispatcherAction Trace Failure TaskData Client)}
    (ran : Machine.run (expectedStep traces) (start config policy) actions = some run) :
    Accounts run :=
  Machine.run_invariant Accounts
    (fun _ _ _ accounts accepted => step_accounts traces accounts accepted)
    (start_accounts config policy) ran

/-- Rollouts of a group that the emission loops of coroutines still put. -/
def beingPutOf (run : DispatcherRun Trace TaskData Client) (groupId : Nat) : Nat :=
  (run.coroutines.map (fun coroutine => coroutine.beingPut groupId)).sum

/-- What is left to schedule of a live group, or of one whose drop has not looked for
it yet. -/
def toScheduleOf (run : DispatcherRun Trace TaskData Client) (groupId : Nat) : Nat :=
  if groupId ∈ run.dispatcher.groups ∨ run.coroutines.any (fun other => other.holds groupId) then
    run.dispatcher.tally GroupState.rolloutsToSchedule groupId
  else 0

/-- Nothing of a group is under way any more. -/
structure Settled (run : DispatcherRun Trace TaskData Client) (groupId : Nat) : Prop where
  queued : ∀ rollout ∈ run.dispatcher.outQ, rollout.groupId ≠ groupId
  coroutines : ∀ coroutine ∈ run.coroutines, coroutine = .returned
  inflight : ∀ metadata ∈ run.dispatcher.inflight.values, metadata.groupId ≠ groupId
  scheduler : run.scheduler = .idle
  gone : groupId ∉ run.dispatcher.groups

/-- What coroutines sent and owe is what they put, and what the drops among them have
not looked for. -/
theorem shares_being_put (dispatcher : RolloutDispatcher Trace TaskData Client)
    (coroutines : List (Coroutine Trace Client)) (groupId : Nat) :
    (coroutines.map (fun coroutine => coroutine.sent groupId)).sum +
        (coroutines.map (fun coroutine => coroutine.owes dispatcher groupId)).sum =
      (coroutines.map (fun coroutine => coroutine.beingPut groupId)).sum +
        coroutines.countP (fun coroutine => coroutine.holds groupId) *
          dispatcher.tally GroupState.rolloutsToSchedule groupId := by
  induction coroutines with
  | nil => simp only [List.map_nil, List.sum_nil, List.countP_nil, Nat.zero_mul]
  | cons coroutine rest inductionHypothesis =>
    have share := coroutine.sent_owes dispatcher groupId
    simp only [List.map_cons, List.sum_cons, List.countP_cons]
    split
    · rename_i held
      rw [if_pos held] at share
      rw [Nat.succ_mul]
      omega
    · rename_i unheld
      rw [if_neg unheld] at share
      rw [Nat.add_zero]
      omega

/-- One holder at most keeps what a group has left to schedule. -/
theorem to_schedule_once (accounts : Accounts run) (groupId : Nat) :
    run.coroutines.countP (fun coroutine => coroutine.holds groupId) *
        run.dispatcher.tally GroupState.rolloutsToSchedule groupId +
      run.dispatcher.liveToSchedule groupId = run.toScheduleOf groupId := by
  rw [toScheduleOf, liveToSchedule]
  by_cases live : groupId ∈ run.dispatcher.groups
  · rw [live_unheld accounts.relies live, if_pos live, if_pos (.inl live), Nat.zero_mul,
      Nat.zero_add]
  · rw [if_neg live]
    have single := accounts.single groupId
    by_cases held : run.coroutines.any (fun other => other.holds groupId) = true
    · rw [if_pos (.inr held)]
      obtain ⟨holder, member, holds⟩ := List.any_eq_true.mp held
      have some : 0 < run.coroutines.countP (fun coroutine => coroutine.holds groupId) :=
        List.countP_pos_iff.mpr ⟨holder, member, holds⟩
      have one : run.coroutines.countP (fun coroutine => coroutine.holds groupId) = 1 := by omega
      rw [one, Nat.one_mul, Nat.add_zero]
    · have neither : ¬ (groupId ∈ run.dispatcher.groups ∨
          run.coroutines.any (fun other => other.holds groupId) = true) := by
        rintro (isLive | isHeld)
        · exact live isLive
        · exact held isHeld
      rw [if_neg neither]
      have none : run.coroutines.countP (fun coroutine => coroutine.holds groupId) = 0 := by
        rw [List.countP_eq_zero]
        rintro holder member holds
        apply held
        rw [List.any_eq_true]
        exact ⟨holder, member, holds⟩
      rw [none, Nat.zero_mul]

/-- A settled group has nothing anywhere but with the sink. -/
theorem Settled.nothing {groupId : Nat} (settled : run.Settled groupId) :
    run.dispatcher.outQ.countP (fun rollout => rollout.groupId = groupId) = 0 ∧
      run.beingPutOf groupId = 0 ∧ run.dispatcher.inflightOf groupId = 0 ∧
      run.scheduler.owes groupId = 0 ∧ run.toScheduleOf groupId = 0 := by
  refine ⟨?_, ?_, ?_, ?_, ?_⟩
  · rw [List.countP_eq_zero]
    intro rollout member same
    exact settled.queued rollout member (of_decide_eq_true same)
  · refine List.sum_eq_zero ?_
    intro share member
    obtain ⟨coroutine, listed, rfl⟩ := List.mem_map.mp member
    rw [settled.coroutines coroutine listed]
    rfl
  · refine List.sum_eq_zero ?_
    intro share member
    obtain ⟨metadata, listed, rfl⟩ := List.mem_map.mp member
    exact if_neg (settled.inflight metadata listed)
  · rw [settled.scheduler]
    rfl
  · have unheld : ¬ run.coroutines.any (fun other => other.holds groupId) = true := by
      rw [List.any_eq_true]
      rintro ⟨coroutine, listed, holds⟩
      rw [settled.coroutines coroutine listed] at holds
      cases holds
    rw [toScheduleOf, if_neg (not_or.mpr ⟨settled.gone, unheld⟩)]

/-- In every reachable state, each rollout of each group ever opened was put or is being
put, is in flight, is held by the scheduling call or is left to schedule. The sink
never receives more rollouts of a group than it has, and has received them all once
nothing of the group is under way. No coroutine raises. -/
theorem rollouts_accounted {traces : TraceOps Trace Failure TaskData} {config : DispatcherConfig}
    {policy : Policy} {actions : List (DispatcherAction Trace Failure TaskData Client)}
    (ran : Machine.run (expectedStep traces) (start config policy) actions = some run)
    {groupId : Nat} {group : GroupState TaskData Client}
    (opened : run.dispatcher.opened[groupId]? = some group) :
    putOf run.received run.dispatcher groupId + run.beingPutOf groupId +
        run.dispatcher.inflightOf groupId + run.scheduler.owes groupId +
        run.toScheduleOf groupId = group.targetRollouts ∧
      run.received.countP (fun rollout => rollout.groupId = groupId) ≤ group.targetRollouts ∧
      (run.Settled groupId →
        run.received.countP (fun rollout => rollout.groupId = groupId) = group.targetRollouts) ∧
      ∀ coroutine ∈ run.coroutines, coroutine ≠ .raised := by
  have accounts := run_accounts ran
  have balanced := accounts.books.balanced groupId
  have shares := shares_being_put run.dispatcher run.coroutines groupId
  have once := to_schedule_once accounts groupId
  rw [tally_found opened] at balanced
  have whole : putOf run.received run.dispatcher groupId + run.beingPutOf groupId +
      run.dispatcher.inflightOf groupId + run.scheduler.owes groupId +
      run.toScheduleOf groupId = group.targetRollouts := by
    rw [beingPutOf]
    omega
  have puts : putOf run.received run.dispatcher groupId =
      run.received.countP (fun rollout => rollout.groupId = groupId) +
        run.dispatcher.outQ.countP (fun rollout => rollout.groupId = groupId) :=
    List.countP_append
  refine ⟨whole, by omega, ?_, ?_⟩
  · intro settled
    obtain ⟨unqueued, unput, landed, unreserved, scheduled⟩ := settled.nothing
    omega
  · rintro coroutine member rfl
    exact accounts.relies _ member

/-- Traces that only keep their errors and the number of their turns. -/
def errorTraces : TraceOps (List (String × String) × Nat) String Unit where
  hasError trace := !trace.1.isEmpty
  numTurns trace := trace.2
  dispatchTask _ errors _ := (errors, 0)
  appendError trace kind message := (trace.1 ++ [(kind, message)], trace.2)
  setOk trace _ := trace
  recordError trace error := (trace.1 ++ [("Error", error)], trace.2)
  stop trace _ := trace

/-- The second task of a group waits for its permit while a version change drops the
group. The drop emits markers for the first task and for the rollout never dispatched,
and the second task completes naturally. -/
theorem rollouts_accounted_dropped_group :
    let config : DispatcherConfig :=
      { trainEnvs := fun _ => ⟨⟨false, 3, by decide⟩, true, ""⟩
        evalEnvs := none
        maxInflightRollouts := 8
        rateLimited := true
        maxOffPolicySteps := 0 }
    let picked : Example Unit := ⟨"env", 7, some (), none⟩
    let actions : List (DispatcherAction (List (String × String) × Nat) String Unit Nat) :=
      [.trySchedule .train (some picked), .clientSelected 0, .permitAcquired,
        .trySchedule .train none, .versionPending [0], .permitAcquired, .resume 0, .resume 0,
        .resume 0, .handleCompleted 1 (.returned [([], 5)]), .resume 1, .handleCompleted 0 .cancelled,
        .receive, .receive, .receive]
    ∃ run, Machine.run (expectedStep errorTraces) (start config {}) actions = some run ∧
      run.received.map (fun rollout => (rollout.groupId, rollout.trace.1)) =
        [(0, [("Cancelled", "Off-policy cancel")]), (0, [("Cancelled", "Off-policy cancel")]),
          (0, [])] ∧
      ∀ group, run.dispatcher.opened[0]? = some group →
        run.received.countP (fun rollout => rollout.groupId = 0) ≤ group.targetRollouts := by
  intro config picked actions
  obtain ⟨run, ran, shown⟩ := Option.map_eq_some_iff.mp
    (show (Machine.run (expectedStep errorTraces) (start config {}) actions).map
        (fun run => run.received.map (fun rollout => (rollout.groupId, rollout.trace.1))) =
      some [(0, [("Cancelled", "Off-policy cancel")]), (0, [("Cancelled", "Off-policy cancel")]),
        (0, [])] by decide +kernel)
  exact ⟨run, ran, shown, fun group opened => (rollouts_accounted ran opened).2.1⟩

end DispatcherRun

end PrimeRl.Orchestrator.Dispatcher
