import Mathlib.Algebra.Ring.Int.Defs
import Mathlib.Algebra.Ring.Nat
import PrimeRl.Value.ServiceQueue
import PrimeRl.Value.ServiceRuns

/-!
# Batches of the request service

A ticket that leaves the queue for a worker is taken. Batches are what the calls
of `take_batch` return, and while a call is under way its share of the taken
tickets is in its worker's hands. Every action takes at most one ticket or
returns at most one batch.
-/

namespace PrimeRl.Value

universe u
variable {Scalar : Type u}

/-- The tickets that a call of `take_batch` collected so far, with their tokens. -/
def Worker.share : Worker Scalar → List Nat × Nat
  | .collecting batch => (batch.tickets, batch.tokens)
  | .measuring batch => (batch.tickets, batch.tokens)
  | .waitingForMore batch => (batch.tickets, batch.tokens)
  | .finishing batch => (batch.tickets, batch.tokens)
  | _ => ([], 0)

/-- Whether a call of `take_batch` is under way. -/
def Worker.taking : Worker Scalar → Bool
  | .seeking _ => true
  | .waitingForFirst => true
  | .collecting _ => true
  | .measuring _ => true
  | .waitingForMore _ => true
  | .finishing _ => true
  | _ => false

theorem Worker.share_of_idle (worker : Worker Scalar) (idle : worker.taking = false) :
    worker.share = ([], 0) := by
  cases worker with
  | collecting batch => cases idle
  | measuring batch => cases idle
  | waitingForMore batch => cases idle
  | finishing batch => cases idle
  | _ => rfl

namespace ServiceRun

open ValueRequestService RequestTicket

variable {run next : ServiceRun Scalar} {index : Nat} {worker moved : Worker Scalar}

def shares (run : ServiceRun Scalar) : List (List Nat × Nat) :=
  run.workers.map Worker.share

/-- The tickets taken so far: those of the returned batches and those of the
batches that are still being collected. -/
def taken (run : ServiceRun Scalar) : List Nat :=
  run.returned.flatten ++ run.shares.flatMap Prod.fst

/-- The sequences of a batch, those of its first ticket first. -/
def batchTokenIds (service : ValueRequestService Scalar) (tickets : List Nat) : List (List Nat) :=
  tickets.flatMap (fun ticketId =>
    (service.tickets[ticketId]?).elim [] (fun ticket => ticket.request.tokenIds))

/-- What one action does to the batches, with the ticket it takes. -/
inductive BatchStep (run next : ServiceRun Scalar) : List Nat → Prop
  | quiet (returned : next.returned = run.returned) (shares : next.shares = run.shares) :
      BatchStep run next []
  | took (index : Nat) (worker : Worker Scalar) (ticketId : Nat) (ticket : RequestTicket Scalar)
      (found : run.workers[index]? = some worker) (taking : worker.taking = true)
      (present : next.service.tickets[ticketId]? = some ticket)
      (ahead : run.now < ticket.deadline)
      (room : worker.share.1 ≠ [] →
        worker.share.2 + ticket.tokens ≤ run.service.config.maxBatchTokens)
      (returned : next.returned = run.returned)
      (shares : next.shares =
        run.shares.set index (worker.share.1 ++ [ticketId], worker.share.2 + ticket.tokens)) :
      BatchStep run next [ticketId]
  | finished (index : Nat) (worker : Worker Scalar)
      (found : run.workers[index]? = some worker) (taking : worker.taking = true)
      (returned : next.returned = run.returned ++ [worker.share.1])
      (shares : next.shares = run.shares.set index ([], 0)) : BatchStep run next []

/-- What one action does, to tickets, queue and batches. -/
structure Stepped (run next : ServiceRun Scalar) : Prop where
  kept : Kept run.service next.service
  moves : ∃ taken, QueueStep run.service next.service taken ∧ BatchStep run next taken

/-- A worker that moves on with the share it had. -/
theorem shares_of_move (found : run.workers[index]? = some worker)
    (workers : next.workers = run.workers.set index moved) (same : moved.share = worker.share) :
    next.shares = run.shares := by
  obtain ⟨inside, rfl⟩ := List.getElem?_eq_some_iff.mp found
  rw [shares, workers, List.map_set, same, ← List.map_set, List.set_getElem_self]
  rfl

/-- An action that serves nobody. -/
theorem stepped_quietly (kept : Kept run.service next.service)
    (queue : QueueStep run.service next.service []) (returned : next.returned = run.returned)
    (shares : next.shares = run.shares) : Stepped run next :=
  ⟨kept, [], queue, .quiet returned shares⟩

/-- A worker that only moves on. -/
theorem stepped_by_move (found : run.workers[index]? = some worker)
    (kept : Kept run.service next.service) (queue : QueueStep run.service next.service [])
    (returned : next.returned = run.returned)
    (workers : next.workers = run.workers.set index moved) (same : moved.share = worker.share) :
    Stepped run next :=
  stepped_quietly kept queue returned (shares_of_move found workers same)

/-- Starting the head that expiry left: the worker's share grows by it. -/
theorem take_next_stepped {ticketId : Nat} {rest : List Nat} {ticket : RequestTicket Scalar}
    {skipped : Worker Scalar} {expired : ValueRequestService Scalar}
    (found : run.workers[index]? = some worker) (taking : worker.taking = true)
    (expiry : Expired run.service expired) (queued : expired.queue = ticketId :: rest)
    (present : expired.tickets[ticketId]? = some ticket) (fits : Fits .queued ticket)
    (ahead : run.now < ticket.deadline)
    (room : worker.share.1 ≠ [] →
      worker.share.2 + ticket.tokens ≤ run.service.config.maxBatchTokens)
    (grown : moved.share = (worker.share.1 ++ [ticketId], worker.share.2 + ticket.tokens)) :
    Stepped run ({ run with service := expired }.takeNext index ticketId rest moved skipped) := by
  obtain ⟨kept, served⟩ := expiry.take_head queued present fits
  have same : { run with service := expired }.takeNext index ticketId rest moved skipped =
      { run with service := (expired.takeHead ticketId rest).1 }.setWorker index moved := by
    simp only [takeNext, take_head_eq rest present fits.1]
  rw [same]
  refine ⟨kept, [ticketId], served, ?_⟩
  apply BatchStep.took index worker ticketId { ticket with future := .running } found taking
  · simp only [setWorker, take_head_eq rest present fits.1]
    exact found_set present
  · exact ahead
  · exact room
  · rfl
  · simp only [shares, setWorker, List.map_set, grown]

theorem seek_stepped {waitForFirst : Bool} (accounted : Accounted run)
    (found : run.workers[index]? = some (.seeking waitForFirst)) :
    Stepped run (run.seek index waitForFirst) := by
  obtain ⟨expiry, front⟩ := expire_head_expired accounted run.now
  simp only [seek]
  split
  · split
    · exact stepped_by_move found expiry.kept expiry.step rfl rfl rfl
    · exact stepped_by_move found expiry.kept expiry.step rfl rfl rfl
  · rename_i ticketId rest queued
    obtain ⟨ticket, present, fits, ahead⟩ := front ticketId rest queued
    rw [present]
    apply take_next_stepped found rfl expiry queued present fits ahead
    · exact fun nonempty => absurd rfl nonempty
    · simp only [Worker.share, List.nil_append, Nat.zero_add]

theorem collect_stepped {batch : Collected} (accounted : Accounted run)
    (found : run.workers[index]? = some (.collecting batch)) :
    Stepped run (run.collect index batch) := by
  obtain ⟨expiry, front⟩ := expire_head_expired accounted run.now
  have unchanged : Kept run.service run.service := kept_of_same rfl rfl
  have still : QueueStep run.service run.service [] := queueStep_of_same rfl rfl rfl
  simp only [collect]
  split
  · split
    · exact stepped_by_move found expiry.kept expiry.step rfl rfl rfl
    · rename_i ticketId rest queued
      obtain ⟨ticket, present, fits, ahead⟩ := front ticketId rest queued
      simp only [present]
      split
      · exact stepped_by_move found expiry.kept expiry.step rfl rfl rfl
      · split
        · exact stepped_by_move found expiry.kept expiry.step rfl rfl rfl
        · rename_i room
          apply take_next_stepped found rfl expiry queued present fits ahead
          · exact fun _ => le_of_not_gt room
          · rfl
  · exact stepped_by_move found unchanged still rfl rfl rfl

theorem measure_stepped {batch : Collected}
    (found : run.workers[index]? = some (.measuring batch)) :
    Stepped run (run.measure index batch) := by
  have unchanged : Kept run.service run.service := kept_of_same rfl rfl
  have still : QueueStep run.service run.service [] := queueStep_of_same rfl rfl rfl
  simp only [measure]
  split
  · exact stepped_by_move found unchanged still rfl rfl rfl
  · exact stepped_by_move found unchanged still rfl rfl rfl

theorem finish_stepped {batch : Collected}
    (found : run.workers[index]? = some (.finishing batch)) :
    Stepped run (run.finish index batch) := by
  refine ⟨kept_of_same rfl rfl, [], queueStep_of_same rfl rfl rfl, ?_⟩
  apply BatchStep.finished index _ found rfl rfl
  simp only [shares, finish, setWorker, List.map_set, Worker.share]

/-- Whatever a worker does next. -/
theorem work_stepped (accounted : Accounted run) (found : run.workers[index]? = some worker)
    (worked : run.workStep index worker = some next) : Stepped run next := by
  have unchanged : Kept run.service run.service := kept_of_same rfl rfl
  have still : QueueStep run.service run.service [] := queueStep_of_same rfl rfl rfl
  cases worker with
  | idle => cases worked
  | holding tickets => cases worked
  | seeking waitForFirst =>
    obtain ⟨-, ⟨rfl⟩⟩ := Option.ite_none_right_eq_some.mp worked
    exact seek_stepped accounted found
  | waitingForFirst =>
    obtain ⟨-, ⟨rfl⟩⟩ := Option.ite_none_right_eq_some.mp worked
    exact stepped_by_move found unchanged still rfl rfl rfl
  | collecting batch =>
    obtain ⟨-, ⟨rfl⟩⟩ := Option.ite_none_right_eq_some.mp worked
    exact collect_stepped accounted found
  | measuring batch =>
    obtain ⟨-, ⟨rfl⟩⟩ := Option.ite_none_right_eq_some.mp worked
    exact measure_stepped found
  | waitingForMore batch =>
    obtain ⟨-, ⟨rfl⟩⟩ := Option.ite_none_right_eq_some.mp worked
    exact stepped_by_move found unchanged still rfl rfl rfl
  | finishing batch =>
    obtain ⟨-, ⟨rfl⟩⟩ := Option.ite_none_right_eq_some.mp worked
    exact finish_stepped found
  | completing remaining =>
    cases remaining with
    | nil =>
      obtain rfl := Option.some.inj worked
      exact stepped_by_move found unchanged still rfl rfl rfl
    | cons slice rest =>
      obtain ⟨ticketId, response⟩ := slice
      obtain ⟨-, worked⟩ := Option.ite_none_right_eq_some.mp worked
      obtain ⟨others, front⟩ := accounted.front found
      obtain ⟨kept, queue, -⟩ := complete_ticket_step front response
      cases completed : run.service.completeTicket ticketId response with
      | mk service passed =>
        rw [completed] at worked kept queue
        cases passed with
        | true =>
          obtain rfl := Option.some.inj worked
          exact stepped_by_move found kept queue rfl rfl rfl
        | false =>
          obtain rfl := Option.some.inj worked
          exact stepped_by_move found kept queue rfl rfl rfl
  | failing remaining error =>
    cases remaining with
    | nil =>
      obtain rfl := Option.some.inj worked
      exact stepped_by_move found unchanged still rfl rfl rfl
    | cons ticketId rest =>
      obtain ⟨-, worked⟩ := Option.ite_none_right_eq_some.mp worked
      obtain ⟨others, front⟩ := accounted.front found
      obtain ⟨kept, queue⟩ := fail_ticket_step front error
      cases failed : run.service.failTicket ticketId error with
      | mk service passed =>
        rw [failed] at worked kept queue
        cases passed with
        | true =>
          obtain rfl := Option.some.inj worked
          exact stepped_by_move found kept queue rfl rfl rfl
        | false =>
          obtain rfl := Option.some.inj worked
          exact stepped_by_move found kept queue rfl rfl rfl

/-- A `close` outside the lock leaves queue and batches alone. -/
theorem resolve_stepped {closer : Closer} (accounted : Accounted run)
    (found : run.closers[index]? = some closer)
    (resolved : run.resolveStep index closer = some next) : Stepped run next := by
  obtain ⟨others, before, -⟩ := Pool.flatMap_set Closer.tickets run.closers index closer found
  have front := accounted.perm (.refl _) before
  cases closer with
  | asking remaining error =>
    cases remaining with
    | nil => cases resolved
    | cons ticketId rest =>
      simp only [resolveStep] at resolved
      split at resolved
      · cases resolved
      · obtain rfl := Option.some.inj resolved
        exact stepped_quietly (kept_of_same rfl rfl) (queueStep_of_same rfl rfl rfl) rfl rfl
  | finishing ticketId rest error =>
    obtain ⟨kept, queue⟩ := resolve_closed_step front error
    cases outcome : run.service.resolveClosed ticketId error with
    | mk service passed =>
      rw [outcome] at kept queue
      simp only [resolveStep, outcome] at resolved
      cases passed with
      | true =>
        obtain rfl := Option.some.inj resolved
        exact stepped_quietly kept queue rfl rfl
      | false =>
        obtain rfl := Option.some.inj resolved
        exact stepped_quietly kept queue rfl rfl

/-- Every action takes at most one ticket or returns at most one batch. -/
theorem step_stepped (accounted : Accounted run) (action : ServiceAction Scalar)
    (accepted : run.step action = some next) : Stepped run next := by
  have unchanged : ∀ other : ServiceRun Scalar, other.service.config = run.service.config →
      other.service.tickets = run.service.tickets → other.service.queue = run.service.queue →
      other.service.closed = run.service.closed → other.returned = run.returned →
      other.shares = run.shares → Stepped run other := by
    intro other config tickets queue closed returned shares
    exact stepped_quietly (kept_of_same config tickets)
      (queueStep_of_same queue (congrArg List.length tickets) closed) returned shares
  cases action with
  | tick elapsed =>
    obtain ⟨-, ⟨rfl⟩⟩ := Option.ite_none_right_eq_some.mp accepted
    exact unchanged _ rfl rfl rfl rfl rfl rfl
  | setVersion version =>
    obtain ⟨-, ⟨rfl⟩⟩ := Option.ite_none_right_eq_some.mp accepted
    exact unchanged _ rfl rfl rfl rfl rfl rfl
  | setError error =>
    obtain ⟨-, ⟨rfl⟩⟩ := Option.ite_none_right_eq_some.mp accepted
    exact unchanged _ rfl rfl rfl rfl rfl rfl
  | submit request admittedAt =>
    obtain ⟨-, ⟨rfl⟩⟩ := Option.ite_none_right_eq_some.mp accepted
    obtain ⟨kept, queue⟩ := submit_step run.service request admittedAt
    exact stepped_quietly kept queue rfl rfl
  | hasQueued =>
    obtain ⟨-, ⟨rfl⟩⟩ := Option.ite_none_right_eq_some.mp accepted
    obtain ⟨expiry, -⟩ := expire_head_expired accounted run.now
    exact stepped_quietly expiry.kept expiry.step rfl rfl
  | cancel ticketId =>
    obtain ⟨-, ⟨rfl⟩⟩ := Option.ite_none_right_eq_some.mp accepted
    obtain ⟨kept, queue⟩ := cancel_step accounted ticketId
    exact stepped_quietly kept queue rfl rfl
  | startTake index waitForFirst =>
    simp only [step] at accepted
    split at accepted
    · rename_i found
      obtain ⟨-, ⟨rfl⟩⟩ := Option.ite_none_right_eq_some.mp accepted
      exact unchanged _ rfl rfl rfl rfl rfl (shares_of_move found rfl rfl)
    · cases accepted
  | complete index values version =>
    simp only [step] at accepted
    split at accepted
    · rename_i tickets found
      split at accepted
      · obtain rfl := Option.some.inj accepted
        exact unchanged _ rfl rfl rfl rfl rfl (shares_of_move found rfl rfl)
      · obtain rfl := Option.some.inj accepted
        exact unchanged _ rfl rfl rfl rfl rfl rfl
    · cases accepted
  | fail index error =>
    simp only [step] at accepted
    split at accepted
    · rename_i tickets found
      obtain rfl := Option.some.inj accepted
      exact unchanged _ rfl rfl rfl rfl rfl (shares_of_move found rfl rfl)
    · cases accepted
  | work index =>
    obtain ⟨worker, found, worked⟩ := Option.bind_eq_some_iff.mp accepted
    exact work_stepped accounted found worked
  | close error =>
    obtain ⟨kept, queue⟩ := close_queue_step run.service
    simp only [step] at accepted
    obtain ⟨-, accepted⟩ := Option.ite_none_right_eq_some.mp accepted
    obtain rfl := Option.some.inj accepted
    exact stepped_quietly kept queue rfl rfl
  | resolve index =>
    obtain ⟨closer, found, resolved⟩ := Option.bind_eq_some_iff.mp accepted
    exact resolve_stepped accounted found resolved

/-- Exactly the taken ticket joins those taken before. -/
theorem BatchStep.taken_perm {tickets : List Nat} (step : BatchStep run next tickets) :
    next.taken.Perm (run.taken ++ tickets) := by
  cases step with
  | quiet returned shares =>
    rw [taken, returned, shares, List.append_nil]
    exact .refl _
  | took index worker ticketId ticket found taking present ahead room returned shares =>
    have shared : run.shares[index]? = some worker.share := by
      rw [ServiceRun.shares, List.getElem?_map, found, Option.map_some]
    obtain ⟨others, before, after⟩ := Pool.flatMap_set Prod.fst run.shares index _ shared
    rw [taken, taken, returned, shares, List.append_assoc]
    apply List.Perm.append_left
    refine (after _).trans (List.Perm.trans ?_ (before.symm.append_right [ticketId]))
    rw [List.append_assoc, List.append_assoc]
    exact List.perm_append_comm.append_left _
  | finished index worker found taking returned shares =>
    have shared : run.shares[index]? = some worker.share := by
      rw [ServiceRun.shares, List.getElem?_map, found, Option.map_some]
    obtain ⟨others, before, after⟩ := Pool.flatMap_set Prod.fst run.shares index _ shared
    rw [taken, taken, returned, shares, List.append_nil, List.flatten_append, List.append_assoc]
    apply List.Perm.append_left
    rw [List.flatten_singleton]
    exact ((after ([], 0)).append_left _).trans before.symm

/-- No ticket was taken twice or is still queued once it was taken. -/
structure Distinct (run : ServiceRun Scalar) : Prop where
  accounted : Accounted run
  nodup : (run.taken ++ run.service.queue).Nodup
  known : ∀ ticketId ∈ run.taken ++ run.service.queue, ticketId < run.service.tickets.length

theorem step_distinct (run : ServiceRun Scalar) (action : ServiceAction Scalar)
    (next : ServiceRun Scalar) (distinct : Distinct run) (accepted : run.step action = some next) :
    Distinct next := by
  obtain ⟨kept, tickets, queued, batched⟩ := step_stepped distinct.accounted action accepted
  have counted := step_accounted run action next distinct.accounted accepted
  have joined := batched.taken_perm
  cases queued with
  | served _ ordered missed admitted closed =>
    have moved : (next.taken ++ next.service.queue).Subperm (run.taken ++ run.service.queue) := by
      have apart := joined.append_right next.service.queue
      rw [List.append_assoc] at apart
      exact apart.subperm.trans (ordered.append_left run.taken).subperm
    refine ⟨counted, ?_, ?_⟩
    · obtain ⟨part, same, sublist⟩ := moved
      exact same.nodup_iff.mp (distinct.nodup.sublist sublist)
    · intro ticketId member
      rw [admitted]
      exact distinct.known ticketId (moved.subset member)
  | arrived queue admitted measured wasOpen =>
    rw [List.append_nil] at joined
    have moved : (next.taken ++ next.service.queue).Perm
        (run.service.tickets.length :: (run.taken ++ run.service.queue)) := by
      rw [queue, ← List.append_assoc]
      exact (List.perm_append_singleton _ _).trans ((joined.append_right _).cons _)
    refine ⟨counted, ?_, ?_⟩
    · rw [moved.nodup_iff, List.nodup_cons]
      exact ⟨fun member => absurd (distinct.known _ member) (Nat.lt_irrefl _), distinct.nodup⟩
    · intro ticketId member
      rw [admitted]
      rcases List.mem_cons.mp (moved.mem_iff.mp member) with rfl | earlier
      · exact Nat.lt_succ_self _
      · exact Nat.lt_succ_of_lt (distinct.known ticketId earlier)
  | shut queue admitted closed =>
    rw [List.append_nil] at joined
    refine ⟨counted, ?_, ?_⟩
    · rw [queue, List.append_nil, joined.nodup_iff]
      exact distinct.nodup.sublist (List.sublist_append_left _ _)
    · intro ticketId member
      rw [queue, List.append_nil, joined.mem_iff] at member
      rw [admitted]
      exact distinct.known ticketId (List.mem_append_left _ member)

/-- Tokens of a batch. -/
def batchTokens (service : ValueRequestService Scalar) (tickets : List Nat) : Nat :=
  ((batchTokenIds service tickets).map List.length).sum

/-- A batch of known tickets with its tokens, which exceed the ceiling only when
it is a single ticket. -/
structure Fitting (service : ValueRequestService Scalar) (tickets : List Nat) (tokens : Nat) :
    Prop where
  known : ∀ ticketId ∈ tickets, ticketId < service.tickets.length
  counted : batchTokens service tickets = tokens
  bounded : 1 < tickets.length → tokens ≤ service.config.maxBatchTokens

/-- A batch asks for the same sequences at any later time. -/
theorem batch_token_ids_kept {service later : ValueRequestService Scalar} (kept : Kept service later)
    (tickets : List Nat) (known : ∀ ticketId ∈ tickets, ticketId < service.tickets.length) :
    batchTokenIds later tickets = batchTokenIds service tickets := by
  apply List.flatMap_congr
  intro ticketId member
  have found := List.getElem?_eq_getElem (known ticketId member)
  obtain ⟨after, present, remains⟩ := kept.remains ticketId _ found
  rw [present, found, Option.elim_some, Option.elim_some, remains.request]

theorem Fitting.later {service later : ValueRequestService Scalar} {tickets : List Nat}
    {tokens : Nat} (fitting : Fitting service tickets tokens) (kept : Kept service later)
    (grown : service.tickets.length ≤ later.tickets.length) : Fitting later tickets tokens where
  known := fun ticketId member => lt_of_lt_of_le (fitting.known ticketId member) grown
  counted := by
    rw [batchTokens, batch_token_ids_kept kept tickets fitting.known]
    exact fitting.counted
  bounded := by
    rw [kept.config]
    exact fitting.bounded

/-- One more ticket, where it fits. -/
theorem Fitting.grow {service : ValueRequestService Scalar} {tickets : List Nat} {tokens ticketId : Nat}
    {ticket : RequestTicket Scalar} (fitting : Fitting service tickets tokens)
    (found : service.tickets[ticketId]? = some ticket) (measured : Measured ticket)
    (room : tickets ≠ [] → tokens + ticket.tokens ≤ service.config.maxBatchTokens) :
    Fitting service (tickets ++ [ticketId]) (tokens + ticket.tokens) where
  known := by
    intro other member
    rw [List.mem_append, List.mem_singleton] at member
    rcases member with earlier | rfl
    · exact fitting.known other earlier
    · exact (List.getElem?_eq_some_iff.mp found).1
  counted := by
    rw [batchTokens, batchTokenIds, List.flatMap_append, List.map_append, List.sum_append,
      List.flatMap_singleton, found, Option.elim_some, ← measured]
    exact congrArg (· + ticket.tokens) fitting.counted
  bounded := by
    intro several
    apply room
    rintro rfl
    simp at several

theorem fitting_nil (service : ValueRequestService Scalar) : Fitting service [] 0 where
  known := fun _ impossible => absurd impossible List.not_mem_nil
  counted := rfl
  bounded := fun impossible => absurd impossible (Nat.not_lt_zero _)

/-- Every share and every returned batch fits. -/
structure Bounded (run : ServiceRun Scalar) : Prop where
  accounted : Accounted run
  measured : ∀ (ticketId : Nat) ticket, run.service.tickets[ticketId]? = some ticket →
    Measured ticket
  shares : ∀ share ∈ run.shares, Fitting run.service share.1 share.2
  returned : ∀ tickets ∈ run.returned, ∃ tokens, Fitting run.service tickets tokens

/-- Tickets hold what they ask for, those of the next state as well. -/
theorem measured_kept {service later : ValueRequestService Scalar} {taken : List Nat}
    (measured : ∀ (ticketId : Nat) ticket, service.tickets[ticketId]? = some ticket →
      Measured ticket)
    (kept : Kept service later) (step : QueueStep service later taken) (ticketId : Nat)
    (ticket : RequestTicket Scalar) (present : later.tickets[ticketId]? = some ticket) :
    Measured ticket := by
  have stays : ticketId < service.tickets.length → Measured ticket := by
    intro inside
    have found := List.getElem?_eq_getElem inside
    obtain ⟨after, same, remains⟩ := kept.remains ticketId _ found
    obtain rfl : after = ticket := Option.some.inj (same.symm.trans present)
    have before := measured ticketId _ found
    rw [Measured, remains.tokens, remains.request]
    exact before
  obtain ⟨inside, -⟩ := List.getElem?_eq_some_iff.mp present
  cases step with
  | served _ _ _ admitted _ => exact stays (admitted ▸ inside)
  | shut _ admitted _ => exact stays (admitted ▸ inside)
  | arrived _ admitted fresh _ =>
    obtain ⟨last, isLast, lastMeasured⟩ := fresh
    by_cases earlier : ticketId < service.tickets.length
    · exact stays earlier
    · obtain rfl : ticketId = service.tickets.length := by omega
      obtain rfl : last = ticket := Option.some.inj (isLast.symm.trans present)
      exact lastMeasured

theorem step_bounded (run : ServiceRun Scalar) (action : ServiceAction Scalar)
    (next : ServiceRun Scalar) (bounded : Bounded run) (accepted : run.step action = some next) :
    Bounded next := by
  obtain ⟨kept, tickets, queued, batched⟩ := step_stepped bounded.accounted action accepted
  have measured := measured_kept bounded.measured kept queued
  have grown : run.service.tickets.length ≤ next.service.tickets.length := by
    cases queued with
    | served _ _ _ admitted _ => exact admitted.ge
    | shut _ admitted _ => exact admitted.ge
    | arrived _ admitted _ _ => omega
  have sharesLater : ∀ share ∈ run.shares, Fitting next.service share.1 share.2 :=
    fun share member => (bounded.shares share member).later kept grown
  have returnedLater : ∀ tickets ∈ run.returned, ∃ tokens, Fitting next.service tickets tokens := by
    intro earlier member
    obtain ⟨tokens, fitting⟩ := bounded.returned earlier member
    exact ⟨tokens, fitting.later kept grown⟩
  refine ⟨step_accounted run action next bounded.accounted accepted, measured, ?_, ?_⟩
  · cases batched with
    | quiet returned shares =>
      rw [shares]
      exact sharesLater
    | took index worker ticketId ticket found taking present ahead room returned shares =>
      rw [shares]
      intro share member
      rcases List.mem_or_eq_of_mem_set member with kept' | rfl
      · exact sharesLater share kept'
      · have own : worker.share ∈ run.shares :=
          List.mem_map_of_mem (List.mem_of_getElem? found)
        apply (sharesLater _ own).grow present (measured ticketId ticket present)
        rw [kept.config]
        exact room
    | finished index worker found taking returned shares =>
      rw [shares]
      intro share member
      rcases List.mem_or_eq_of_mem_set member with kept' | rfl
      · exact sharesLater share kept'
      · exact fitting_nil next.service
  · cases batched with
    | quiet returned shares =>
      rw [returned]
      exact returnedLater
    | took index worker ticketId ticket found taking present ahead room returned shares =>
      rw [returned]
      exact returnedLater
    | finished index worker found taking returned shares =>
      rw [returned]
      intro batch member
      rw [List.mem_append, List.mem_singleton] at member
      rcases member with earlier | rfl
      · exact returnedLater batch earlier
      · have own : worker.share ∈ run.shares :=
          List.mem_map_of_mem (List.mem_of_getElem? found)
        exact ⟨_, sharesLater _ own⟩

end ServiceRun

end PrimeRl.Value
