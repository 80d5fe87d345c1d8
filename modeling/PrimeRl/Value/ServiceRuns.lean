import Mathlib.Algebra.Order.BigOperators.Group.List
import Mathlib.Algebra.Ring.Int.Defs
import Mathlib.Algebra.Ring.Nat
import PrimeRl.Support.Machine
import PrimeRl.Value.ServiceAccounting

/-!
# Threads of the request service

Clients submit and cancel, workers take batches and complete or fail them, and
anyone may close the service. Threads interleave at every point where none of
them holds the lock. A worker that coalesces keeps the lock from one reading of
the clock to the next, so each of its steps is what happens after one reading;
the clock may advance between any two steps.
-/

namespace PrimeRl.Value

universe u
variable {Scalar : Type u}

/-- The local state of the coalescing loop. -/
structure Collected where
  tickets : List Nat
  tokens : Nat
  firstAdmittedAt : Rat
  batchDeadline : Rat
  waitedForArrival : Bool
deriving DecidableEq, Repr

/-- Where a worker is. It holds the lock while seeking, collecting, measuring the
remaining window and finishing, and waits for a notification in between. -/
inductive Worker (Scalar : Type u) where
  | idle
  | seeking (waitForFirst : Bool)
  | waitingForFirst
  | collecting (batch : Collected)
  | measuring (batch : Collected)
  | waitingForMore (batch : Collected)
  | finishing (batch : Collected)
  | holding (tickets : List Nat)
  | completing (remaining : List (Nat × ValueEvaluationResponse Scalar))
  | failing (remaining : List Nat) (error : ServiceError)

/-- Tickets in the hands of a worker. -/
def Worker.tickets : Worker Scalar → List Nat
  | .collecting batch => batch.tickets
  | .measuring batch => batch.tickets
  | .waitingForMore batch => batch.tickets
  | .finishing batch => batch.tickets
  | .holding tickets => tickets
  | .completing remaining => remaining.map Prod.fst
  | .failing remaining _ => remaining
  | _ => []

/-- A `close` that still finishes tickets outside the lock. It asks whether the
next one is done before it finishes it. -/
inductive Closer where
  | asking (remaining : List Nat) (error : ServiceError)
  | finishing (ticketId : Nat) (remaining : List Nat) (error : ServiceError)
deriving DecidableEq, Repr

def Closer.tickets : Closer → List Nat
  | .asking remaining _ => remaining
  | .finishing ticketId remaining _ => ticketId :: remaining

structure ServiceRun (Scalar : Type u) where
  service : ValueRequestService Scalar
  now : Rat := 0
  lock : Option Nat := none
  workers : List (Worker Scalar)
  closers : List Closer := []
  returned : List (List Nat) := []

inductive ServiceAction (Scalar : Type u) where
  | tick (elapsed : Rat)
  | setVersion (version : Int)
  | setError (error : ServiceError)
  | submit (request : ValueEvaluationRequest) (admittedAt : Rat)
  | hasQueued
  | cancel (ticketId : Nat)
  | startTake (worker : Nat) (waitForFirst : Bool)
  | complete (worker : Nat) (values : List (List Scalar)) (version : Int)
  | fail (worker : Nat) (error : ServiceError)
  | work (worker : Nat)
  | close (error : Option ServiceError)
  | resolve (closer : Nat)

namespace ServiceRun

def setWorker (run : ServiceRun Scalar) (index : Nat) (worker : Worker Scalar) :
    ServiceRun Scalar :=
  { run with workers := run.workers.set index worker }

/-- Continue with a head that was popped, or leave when starting it raised. -/
def takeNext (run : ServiceRun Scalar) (index ticketId : Nat) (rest : List Nat)
    (taken skipped : Worker Scalar) : ServiceRun Scalar :=
  match run.service.takeHead ticketId rest with
  | (service, .taken _) => { run with service := service }.setWorker index taken
  | (service, .skipped) => { run with service := service }.setWorker index skipped
  | (service, .invalidState) =>
    { run with service := service, lock := none }.setWorker index .idle

/-- After a reading at the head of the loop: return or wait on an empty queue,
otherwise start the first ticket of a batch. -/
def seek (run : ServiceRun Scalar) (index : Nat) (waitForFirst : Bool) : ServiceRun Scalar :=
  let expired := { run with service := run.service.expireHead run.now }
  match expired.service.queue with
  | [] =>
    if expired.service.closed || !waitForFirst then
      { expired with lock := none }.setWorker index .idle
    else { expired with lock := none }.setWorker index .waitingForFirst
  | ticketId :: rest =>
    match expired.service.tickets[ticketId]? with
    | none => { expired with lock := none }.setWorker index .idle
    | some first =>
      expired.takeNext index ticketId rest
        (.collecting
          { tickets := [ticketId]
            tokens := first.tokens
            firstAdmittedAt := first.admittedAt
            batchDeadline :=
              min (first.admittedAt + run.service.config.batchWaitMs / 1000) first.deadline
            waitedForArrival := false })
        (.seeking waitForFirst)

/-- After a reading in the coalescing loop: stop at the token ceiling or behind
the window, otherwise start the next ticket. -/
def collect (run : ServiceRun Scalar) (index : Nat) (batch : Collected) : ServiceRun Scalar :=
  if batch.tokens < run.service.config.maxBatchTokens then
    let expired := { run with service := run.service.expireHead run.now }
    match expired.service.queue with
    | [] => expired.setWorker index (.measuring batch)
    | ticketId :: rest =>
      match expired.service.tickets[ticketId]? with
      | none => { expired with lock := none }.setWorker index .idle
      | some next =>
        if batch.waitedForArrival ∧ batch.batchDeadline < next.admittedAt then
          expired.setWorker index (.finishing batch)
        else if run.service.config.maxBatchTokens < batch.tokens + next.tokens then
          expired.setWorker index (.finishing batch)
        else
          expired.takeNext index ticketId rest
            (.collecting
              { batch with
                tickets := batch.tickets ++ [ticketId]
                tokens := batch.tokens + next.tokens })
            (.collecting batch)
  else run.setWorker index (.finishing batch)

/-- After a reading on an empty queue: wait for more while the window is open. -/
def measure (run : ServiceRun Scalar) (index : Nat) (batch : Collected) : ServiceRun Scalar :=
  if batch.batchDeadline - run.now ≤ 0 ∨ run.service.closed then
    run.setWorker index (.finishing batch)
  else
    { run with lock := none }.setWorker index (.waitingForMore { batch with waitedForArrival := true })

/-- After the last reading: return the batch. -/
def finish (run : ServiceRun Scalar) (index : Nat) (batch : Collected) : ServiceRun Scalar :=
  { run with
    service :=
      { run.service with maxWait := max run.service.maxWait (run.now - batch.firstAdmittedAt) }
    lock := none
    returned := run.returned ++ [batch.tickets] }.setWorker index (.holding batch.tickets)

/-- The slices of a batch response, from `offset` on. -/
def responses (service : ValueRequestService Scalar) (values : List (List Scalar)) (version : Int) :
    Nat → List Nat → List (Nat × ValueEvaluationResponse Scalar)
  | _, [] => []
  | offset, ticketId :: rest =>
    let count := (service.tickets[ticketId]?).elim 0 (fun ticket => ticket.request.tokenIds.length)
    (ticketId, ⟨(values.drop offset).take count, version⟩) ::
      responses service values version (offset + count) rest

/-- Sequences requested by a batch. -/
def requested (service : ValueRequestService Scalar) (tickets : List Nat) : Nat :=
  (tickets.map (fun ticketId =>
    (service.tickets[ticketId]?).elim 0 (fun ticket => ticket.request.tokenIds.length))).sum

/-- One step of a worker that has something to do. -/
def workStep (run : ServiceRun Scalar) (index : Nat) : Worker Scalar → Option (ServiceRun Scalar)
  | .seeking waitForFirst =>
    if run.lock = some index then some (run.seek index waitForFirst) else none
  | .waitingForFirst =>
    if run.lock = none then
      some ({ run with lock := some index }.setWorker index (.seeking true))
    else none
  | .collecting batch => if run.lock = some index then some (run.collect index batch) else none
  | .measuring batch => if run.lock = some index then some (run.measure index batch) else none
  | .waitingForMore batch =>
    if run.lock = none then
      some ({ run with lock := some index }.setWorker index (.collecting batch))
    else none
  | .finishing batch => if run.lock = some index then some (run.finish index batch) else none
  | .completing ((ticketId, response) :: rest) =>
    if run.lock = none then
      match run.service.completeTicket ticketId response with
      | (service, true) => some ({ run with service := service }.setWorker index (.completing rest))
      | (service, false) => some ({ run with service := service }.setWorker index .idle)
    else none
  | .completing [] => some (run.setWorker index .idle)
  | .failing (ticketId :: rest) error =>
    if run.lock = none then
      match run.service.failTicket ticketId error with
      | (service, true) => some ({ run with service := service }.setWorker index (.failing rest error))
      | (service, false) => some ({ run with service := service }.setWorker index .idle)
    else none
  | .failing [] _ => some (run.setWorker index .idle)
  | _ => none

/-- One step of a `close` outside the lock. -/
def resolveStep (run : ServiceRun Scalar) (index : Nat) : Closer → Option (ServiceRun Scalar)
  | .asking [] _ => none
  | .asking (ticketId :: rest) error =>
    match run.service.tickets[ticketId]? with
    | none => none
    | some ticket =>
      some { run with
        closers := run.closers.set index
          (if ticket.future.done then .asking rest error else .finishing ticketId rest error) }
  | .finishing ticketId rest error =>
    match run.service.resolveClosed ticketId error with
    | (service, true) =>
      some { run with service := service, closers := run.closers.set index (.asking rest error) }
    | (service, false) =>
      some { run with service := service, closers := run.closers.set index (.asking [] error) }

/-- One action, refused while another thread holds the lock it needs. -/
def step (run : ServiceRun Scalar) : ServiceAction Scalar → Option (ServiceRun Scalar)
  | .tick elapsed => if 0 ≤ elapsed then some { run with now := run.now + elapsed } else none
  | .setVersion version =>
    if run.lock = none then
      some { run with service := { run.service with version := some version } }
    else none
  | .setError error =>
    if run.lock = none then some { run with service := { run.service with error := some error } }
    else none
  | .submit request admittedAt =>
    if run.lock = none ∧ admittedAt ≤ run.now then
      some { run with service := (run.service.submit request admittedAt).1 }
    else none
  | .hasQueued =>
    if run.lock = none then some { run with service := run.service.expireHead run.now } else none
  | .cancel ticketId =>
    if run.lock = none then some { run with service := (run.service.cancel ticketId).1 } else none
  | .startTake index waitForFirst =>
    match run.workers[index]? with
    | some .idle =>
      if run.lock = none then
        some ({ run with lock := some index }.setWorker index (.seeking waitForFirst))
      else none
    | _ => none
  | .complete index values version =>
    match run.workers[index]? with
    | some (.holding tickets) =>
      if values.length = requested run.service tickets then
        some (run.setWorker index (.completing (responses run.service values version 0 tickets)))
      else some run
    | _ => none
  | .fail index error =>
    match run.workers[index]? with
    | some (.holding tickets) => some (run.setWorker index (.failing tickets error))
    | _ => none
  | .work index => (run.workers[index]?).bind (run.workStep index)
  | .close error =>
    if run.lock = none then
      let (service, tickets) := run.service.closeQueue
      some { run with
        service := service
        closers := run.closers ++
          [.asking tickets (error.getD (.unavailable "value evaluator is stopping"))] }
    else none
  | .resolve index => (run.closers[index]?).bind (run.resolveStep index)

/-- The accounts of a run, with what all its threads hold. -/
def Accounted (run : ServiceRun Scalar) : Prop :=
  run.service.Balanced (run.workers.flatMap Worker.tickets) (run.closers.flatMap Closer.tickets)

open ValueRequestService

variable {run next : ServiceRun Scalar} {index : Nat} {worker moved : Worker Scalar}

/-- The accounts of a run, with one worker's tickets in front. -/
theorem Accounted.front (accounted : Accounted run) (found : run.workers[index]? = some worker) :
    ∃ others, run.service.Balanced (worker.tickets ++ others)
      (run.closers.flatMap Closer.tickets) := by
  obtain ⟨others, before, -⟩ := Pool.flatMap_set Worker.tickets run.workers index worker found
  exact ⟨others, accounted.perm before (.refl _)⟩

/-- A step of one worker keeps the accounts when it does so for that worker's
tickets beside any others. -/
theorem Accounted.set_worker (accounted : Accounted run) (found : run.workers[index]? = some worker)
    (workers : next.workers = run.workers.set index moved) (closers : next.closers = run.closers)
    (keeps : ∀ others closing, run.service.Balanced (worker.tickets ++ others) closing →
      next.service.Balanced (moved.tickets ++ others) closing) : Accounted next := by
  obtain ⟨others, before, after⟩ := Pool.flatMap_set Worker.tickets run.workers index worker found
  have kept := keeps others _ (accounted.perm before (.refl _))
  simp only [Accounted, workers, closers]
  exact kept.perm (after moved).symm (.refl _)

/-- A worker that only moves on keeps its tickets. -/
theorem Accounted.move_worker (accounted : Accounted run)
    (found : run.workers[index]? = some worker)
    (workers : next.workers = run.workers.set index moved) (closers : next.closers = run.closers)
    (same : moved.tickets = worker.tickets)
    (keeps : ∀ inHand closing, run.service.Balanced inHand closing →
      next.service.Balanced inHand closing) : Accounted next :=
  accounted.set_worker found workers closers
    (fun _ closing balanced => same ▸ keeps _ closing balanced)

/-- Expiry keeps the accounts, whoever holds what. -/
theorem Accounted.expire (accounted : Accounted run) :
    Accounted { run with service := run.service.expireHead run.now } :=
  expire_head_balanced accounted run.now

/-- A popped head joins the tickets of the worker that took it. -/
theorem take_next_accounted {ticketId : Nat} {rest : List Nat} {taken skipped : Worker Scalar}
    (accounted : Accounted run) (found : run.workers[index]? = some worker)
    (queued : run.service.queue = ticketId :: rest)
    (joined : taken.tickets.Perm (ticketId :: worker.tickets)) :
    Accounted (run.takeNext index ticketId rest taken skipped) := by
  have outcome := (take_head_balanced accounted queued).1
  cases popped : run.service.takeHead ticketId rest with
  | mk service head =>
    rw [popped] at outcome
    simp only at outcome
    subst outcome
    simp only [takeNext, popped]
    refine accounted.set_worker found rfl rfl ?_
    intro others closing balanced
    have inHand := (take_head_balanced balanced queued).2
    rw [popped] at inHand
    exact inHand.perm (joined.symm.append_right others) (.refl _)

theorem seek_accounted {waitForFirst : Bool} (accounted : Accounted run)
    (found : run.workers[index]? = some (.seeking waitForFirst)) :
    Accounted (run.seek index waitForFirst) := by
  have expired := accounted.expire
  simp only [seek]
  split
  · split
    · exact expired.move_worker found rfl rfl rfl (fun _ _ balanced => balanced)
    · exact expired.move_worker found rfl rfl rfl (fun _ _ balanced => balanced)
  · rename_i ticketId rest queued
    split
    · exact expired.move_worker found rfl rfl rfl (fun _ _ balanced => balanced)
    · exact take_next_accounted expired found queued (.refl _)

/-- The head of the queue is an admitted ticket. -/
theorem head_known {ticketId : Nat} {rest : List Nat} (accounted : Accounted run)
    (queued : run.service.queue = ticketId :: rest) :
    ∃ ticket, run.service.tickets[ticketId]? = some ticket ∧
      RequestTicket.Fits .queued ticket := by
  apply accounted.placed.staged ticketId .queued
  rw [queued]
  exact List.mem_cons_self

theorem collect_accounted {batch : Collected} (accounted : Accounted run)
    (found : run.workers[index]? = some (.collecting batch)) :
    Accounted (run.collect index batch) := by
  have expired := accounted.expire
  simp only [collect]
  split
  · split
    · exact expired.move_worker found rfl rfl rfl (fun _ _ balanced => balanced)
    · rename_i ticketId rest queued
      split
      · rename_i unknown
        obtain ⟨ticket, known, -⟩ := head_known expired queued
        exact absurd (known.symm.trans unknown) (Option.some_ne_none ticket)
      · split
        · exact expired.move_worker found rfl rfl rfl (fun _ _ balanced => balanced)
        · split
          · exact expired.move_worker found rfl rfl rfl (fun _ _ balanced => balanced)
          · exact take_next_accounted expired found queued (List.perm_append_singleton _ _)
  · exact accounted.move_worker found rfl rfl rfl (fun _ _ balanced => balanced)

theorem measure_accounted {batch : Collected} (accounted : Accounted run)
    (found : run.workers[index]? = some (.measuring batch)) :
    Accounted (run.measure index batch) := by
  simp only [measure]
  split
  · exact accounted.move_worker found rfl rfl rfl (fun _ _ balanced => balanced)
  · exact accounted.move_worker found rfl rfl rfl (fun _ _ balanced => balanced)

/-- The slices of a response belong to the tickets of the batch. -/
theorem responses_tickets (service : ValueRequestService Scalar) (values : List (List Scalar))
    (version : Int) (offset : Nat) (tickets : List Nat) :
    (responses service values version offset tickets).map Prod.fst = tickets := by
  induction tickets generalizing offset with
  | nil => rfl
  | cons ticketId rest inductionHypothesis =>
    simp only [responses, List.map_cons, inductionHypothesis]

/-- Whatever a worker does next, the accounts stay exact. -/
theorem work_accounted (accounted : Accounted run) (found : run.workers[index]? = some worker)
    (worked : run.workStep index worker = some next) : Accounted next := by
  cases worker with
  | idle => cases worked
  | holding tickets => cases worked
  | seeking waitForFirst =>
    obtain ⟨-, ⟨rfl⟩⟩ := Option.ite_none_right_eq_some.mp worked
    exact seek_accounted accounted found
  | waitingForFirst =>
    obtain ⟨-, ⟨rfl⟩⟩ := Option.ite_none_right_eq_some.mp worked
    exact accounted.move_worker found rfl rfl rfl (fun _ _ balanced => balanced)
  | collecting batch =>
    obtain ⟨-, ⟨rfl⟩⟩ := Option.ite_none_right_eq_some.mp worked
    exact collect_accounted accounted found
  | measuring batch =>
    obtain ⟨-, ⟨rfl⟩⟩ := Option.ite_none_right_eq_some.mp worked
    exact measure_accounted accounted found
  | waitingForMore batch =>
    obtain ⟨-, ⟨rfl⟩⟩ := Option.ite_none_right_eq_some.mp worked
    exact accounted.move_worker found rfl rfl rfl (fun _ _ balanced => balanced)
  | finishing batch =>
    obtain ⟨-, ⟨rfl⟩⟩ := Option.ite_none_right_eq_some.mp worked
    exact accounted.move_worker found rfl rfl rfl (fun _ _ balanced => { balanced with })
  | completing remaining =>
    cases remaining with
    | nil =>
      obtain rfl := Option.some.inj worked
      exact accounted.move_worker found rfl rfl rfl (fun _ _ balanced => balanced)
    | cons slice rest =>
      obtain ⟨ticketId, response⟩ := slice
      obtain ⟨-, worked⟩ := Option.ite_none_right_eq_some.mp worked
      obtain ⟨mine, front⟩ := accounted.front found
      have through := (complete_ticket_balanced front response).1
      cases completed : run.service.completeTicket ticketId response with
      | mk service passed =>
        rw [completed] at worked through
        obtain rfl : passed = true := through
        obtain rfl := Option.some.inj worked
        refine accounted.set_worker found rfl rfl ?_
        intro others closing balanced
        have after := (complete_ticket_balanced balanced response).2
        rw [completed] at after
        exact after
  | failing remaining error =>
    cases remaining with
    | nil =>
      obtain rfl := Option.some.inj worked
      exact accounted.move_worker found rfl rfl rfl (fun _ _ balanced => balanced)
    | cons ticketId rest =>
      obtain ⟨-, worked⟩ := Option.ite_none_right_eq_some.mp worked
      obtain ⟨mine, front⟩ := accounted.front found
      have through := (fail_ticket_balanced front error).1
      cases failed : run.service.failTicket ticketId error with
      | mk service passed =>
        rw [failed] at worked through
        obtain rfl : passed = true := through
        obtain rfl := Option.some.inj worked
        refine accounted.set_worker found rfl rfl ?_
        intro others closing balanced
        have after := (fail_ticket_balanced balanced error).2
        rw [failed] at after
        exact after

/-- A `close` outside the lock finds its next ticket unfinished and finishes it. -/
theorem resolve_accounted {closer : Closer} (accounted : Accounted run)
    (found : run.closers[index]? = some closer)
    (resolved : run.resolveStep index closer = some next) : Accounted next := by
  obtain ⟨others, before, after⟩ := Pool.flatMap_set Closer.tickets run.closers index closer found
  have front := accounted.perm (.refl _) before
  cases closer with
  | asking remaining error =>
    cases remaining with
    | nil => cases resolved
    | cons ticketId rest =>
      obtain ⟨⟨ticket, known, pending⟩, -⟩ := resolve_closed_balanced front error
      simp only [resolveStep, known, pending, Future.done, Bool.false_eq_true, if_false,
        Option.some.injEq] at resolved
      subst resolved
      exact front.perm (.refl _) (after (.finishing ticketId rest error)).symm
  | finishing ticketId rest error =>
    obtain ⟨-, through, finished⟩ := resolve_closed_balanced front error
    cases outcome : run.service.resolveClosed ticketId error with
    | mk service passed =>
      rw [outcome] at through finished
      obtain rfl : passed = true := through
      simp only [resolveStep, outcome, Option.some.injEq] at resolved
      subst resolved
      exact finished.perm (.refl _) (after (.asking rest error)).symm

/-- Every action keeps the accounts exact. -/
theorem step_accounted (run : ServiceRun Scalar) (action : ServiceAction Scalar)
    (next : ServiceRun Scalar) (accounted : Accounted run) (accepted : run.step action = some next) :
    Accounted next := by
  cases action with
  | tick elapsed =>
    obtain ⟨-, ⟨rfl⟩⟩ := Option.ite_none_right_eq_some.mp accepted
    exact accounted
  | setVersion version =>
    obtain ⟨-, ⟨rfl⟩⟩ := Option.ite_none_right_eq_some.mp accepted
    exact { accounted with }
  | setError error =>
    obtain ⟨-, ⟨rfl⟩⟩ := Option.ite_none_right_eq_some.mp accepted
    exact { accounted with }
  | submit request admittedAt =>
    obtain ⟨-, ⟨rfl⟩⟩ := Option.ite_none_right_eq_some.mp accepted
    exact submit_balanced accounted request admittedAt
  | hasQueued =>
    obtain ⟨-, ⟨rfl⟩⟩ := Option.ite_none_right_eq_some.mp accepted
    exact accounted.expire
  | cancel ticketId =>
    obtain ⟨-, ⟨rfl⟩⟩ := Option.ite_none_right_eq_some.mp accepted
    exact cancel_balanced accounted ticketId
  | startTake index waitForFirst =>
    simp only [step] at accepted
    split at accepted
    · rename_i found
      obtain ⟨-, ⟨rfl⟩⟩ := Option.ite_none_right_eq_some.mp accepted
      exact accounted.move_worker found rfl rfl rfl (fun _ _ balanced => balanced)
    · cases accepted
  | complete index values version =>
    simp only [step] at accepted
    split at accepted
    · rename_i tickets found
      split at accepted
      · obtain rfl := Option.some.inj accepted
        exact accounted.move_worker found rfl rfl (responses_tickets _ _ _ _ _)
          (fun _ _ balanced => balanced)
      · obtain rfl := Option.some.inj accepted
        exact accounted
    · cases accepted
  | fail index error =>
    simp only [step] at accepted
    split at accepted
    · rename_i tickets found
      obtain rfl := Option.some.inj accepted
      exact accounted.move_worker found rfl rfl rfl (fun _ _ balanced => balanced)
    · cases accepted
  | work index =>
    obtain ⟨worker, found, worked⟩ := Option.bind_eq_some_iff.mp accepted
    exact work_accounted accounted found worked
  | close error =>
    have closed := close_queue_balanced accounted
    simp only [step] at accepted
    obtain ⟨-, accepted⟩ := Option.ite_none_right_eq_some.mp accepted
    cases taken : run.service.closeQueue with
    | mk service tickets =>
      rw [taken] at accepted closed
      obtain rfl := Option.some.inj accepted
      simpa only [Accounted, List.flatMap_append, List.flatMap_singleton, Closer.tickets] using
        closed
  | resolve index =>
    obtain ⟨closer, found, resolved⟩ := Option.bind_eq_some_iff.mp accepted
    exact resolve_accounted accounted found resolved

/-- A service before its first request, with idle workers. -/
def start (config : ValueEvaluatorConfig) (seqLen vocabSize : Nat) (version : Option Int)
    (workers : Nat) : ServiceRun Scalar :=
  { service := { config := config, seqLen := seqLen, vocabSize := vocabSize, version := version }
    workers := List.replicate workers .idle }

theorem start_accounted (config : ValueEvaluatorConfig) (seqLen vocabSize : Nat)
    (version : Option Int) (workers : Nat) :
    Accounted (start config seqLen vocabSize version workers : ServiceRun Scalar) := by
  have empty : (List.replicate workers (Worker.idle : Worker Scalar)).flatMap Worker.tickets = [] := by
    rw [List.flatMap_eq_nil_iff]
    intro worker member
    rw [List.eq_of_mem_replicate member]
    rfl
  simp only [Accounted, start, empty]
  exact
    { placed := Stages.staged_nil
      requests := rfl
      tokens := rfl
      requests_bounded := Int.natCast_nonneg _
      tokens_bounded := Int.natCast_nonneg _
      listed := rfl
      conserved := fun _ => rfl
      faultless := rfl }

/-- A ticket at any place, or over, gave its capacity back at most once and
finished at most once. -/
theorem ticket_once (accounted : Accounted run) (ticket : RequestTicket Scalar)
    (admitted : ticket ∈ run.service.tickets) :
    ticket.releases = (if ticket.released then 1 else 0) ∧
      ticket.settlements = (if ticket.future.done then 1 else 0) := by
  obtain ⟨ticketId, found⟩ := List.getElem?_of_mem admitted
  by_cases placed : ticketId ∈ (places run.service.queue (run.workers.flatMap Worker.tickets)
      (run.closers.flatMap Closer.tickets)).map Prod.fst
  · obtain ⟨⟨listedId, place⟩, member, rfl⟩ := List.mem_map.mp placed
    obtain ⟨same, sameFound, fits⟩ := accounted.placed.staged listedId place member
    obtain rfl : same = ticket := Option.some.inj (sameFound.symm.trans found)
    cases place with
    | queued =>
      obtain ⟨pending, -, kept, unreleased, unsettled⟩ := fits
      simp [pending, kept, unreleased, unsettled, Future.done]
    | running =>
      obtain ⟨running, kept, unreleased, unsettled⟩ := fits
      simp [running, kept, unreleased, unsettled, Future.done]
    | closing =>
      obtain ⟨pending, -, emptied, once, unsettled⟩ := fits
      simp [pending, emptied, once, unsettled, Future.done]
  · obtain ⟨released, once, ⟨finished, settled⟩ | ⟨running, -, unsettled⟩⟩ :=
      accounted.placed.rest ticketId ticket found placed
    · simp [released, once, finished, settled]
    · simp [released, once, running, unsettled, Future.done]

/-- In every reachable state the pending counters are what the admitted tickets
that were not released occupy, and both stay within their limits. No ticket is
released twice, no future is finished or cancelled twice, nothing raises, and
until `close` every admission is accounted for by one outcome, the queue or a
worker. -/
theorem ticket_accounting (config : ValueEvaluatorConfig) (seqLen vocabSize : Nat)
    (version : Option Int) (workers : Nat) (actions : List (ServiceAction Scalar))
    (run : ServiceRun Scalar)
    (ran : Machine.run step (start config seqLen vocabSize version workers) actions = some run) :
    run.service.pendingRequests =
        run.service.tickets.countP (fun ticket => !ticket.released) ∧
      run.service.pendingTokens =
        (run.service.tickets.map
          (fun ticket => if ticket.released then 0 else (ticket.tokens : Int))).sum ∧
      (0 ≤ run.service.pendingRequests ∧
        run.service.pendingRequests ≤ run.service.config.maxPendingRequests) ∧
      (0 ≤ run.service.pendingTokens ∧
        run.service.pendingTokens ≤ run.service.config.maxPendingTokens) ∧
      (∀ ticket ∈ run.service.tickets, ticket.releases ≤ 1 ∧ ticket.settlements ≤ 1) ∧
      run.service.faults = [] ∧
      run.service.metrics.admitted = run.service.tickets.length ∧
      (run.service.closed = false → run.service.metrics.admitted =
        run.service.metrics.completed + run.service.metrics.failed + run.service.metrics.expired +
          run.service.metrics.abandoned + run.service.queue.length +
          run.service.tickets.countP
            (fun ticket => ticket.future.isRunning && !ticket.abandoned)) := by
  have accounted : Accounted run :=
    Machine.run_invariant Accounted step_accounted
      (start_accounted config seqLen vocabSize version workers) ran
  refine ⟨accounted.requests, accounted.tokens, ⟨?_, accounted.requests_bounded⟩,
    ⟨?_, accounted.tokens_bounded⟩, ?_, accounted.faultless, accounted.listed,
    accounted.conserved⟩
  · rw [accounted.requests]
    exact Int.natCast_nonneg _
  · rw [accounted.tokens]
    apply List.sum_nonneg
    intro share member
    obtain ⟨ticket, -, rfl⟩ := List.mem_map.mp member
    simp only [RequestTicket.occupied]
    split
    · exact le_refl _
    · exact Int.natCast_nonneg _
  · intro ticket admitted
    obtain ⟨releases, settlements⟩ := ticket_once accounted ticket admitted
    constructor
    · rw [releases]
      split <;> decide
    · rw [settlements]
      split <;> decide

/-- One ticket completed, one abandoned while it ran, one expired in the queue and
one closed out: nothing stays pending and nothing raised. -/
theorem ticket_accounting_four_tickets :
    let config : ValueEvaluatorConfig :=
      ⟨8, 2, 8, 100, 10, by decide, by decide +kernel, by decide, by decide, by decide +kernel⟩
    let request : ValueEvaluationRequest := ⟨[[1, 2], [3]]⟩
    ∃ run : ServiceRun Int,
      Machine.run step (start config 16 100 (some 0) 1)
        [.submit request 0, .submit request 0, .startTake 0 false, .work 0, .work 0, .work 0,
          .tick 1, .work 0, .work 0, .cancel 1, .submit request 1, .complete 0 [[1, 2], [3], [1, 2], [3]] 0,
          .work 0, .work 0, .work 0, .tick 11, .hasQueued, .submit request 12, .close none,
          .resolve 0, .resolve 0] = some run ∧
      run.service.metrics = ⟨4, 0, 1, 1, 1, 0⟩ ∧ run.service.pendingRequests = 0 ∧
      run.service.faults = [] := by
  intro config request
  obtain ⟨run, ran, shown⟩ := Option.map_eq_some_iff.mp
    (show (Machine.run step (start config 16 100 (some 0) 1 : ServiceRun Int)
        [.submit request 0, .submit request 0, .startTake 0 false, .work 0, .work 0, .work 0,
          .tick 1, .work 0, .work 0, .cancel 1, .submit request 1, .complete 0 [[1, 2], [3], [1, 2], [3]] 0,
          .work 0, .work 0, .work 0, .tick 11, .hasQueued, .submit request 12, .close none,
          .resolve 0, .resolve 0]).map
        (fun run => (run.service.metrics, run.service.pendingRequests)) =
          some (⟨4, 0, 1, 1, 1, 0⟩, 0) by decide +kernel)
  obtain ⟨metrics, pending⟩ := Prod.mk.inj shown
  exact ⟨run, ran, metrics, pending,
    (ticket_accounting config 16 100 (some 0) 1 _ run ran).2.2.2.2.2.1⟩

end ServiceRun

end PrimeRl.Value
