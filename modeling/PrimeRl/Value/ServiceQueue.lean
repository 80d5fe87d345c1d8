import Mathlib.Algebra.Ring.Int.Defs
import Mathlib.Algebra.Ring.Nat
import PrimeRl.Support.NumberedQueue
import PrimeRl.Value.ServiceAccounting

/-!
# The queue of the request service

Tickets carry the number of their admission, and each locked section does one of
three things to the queue: it serves and expires from it, it puts one new ticket
at its end, or it empties it for good. What a ticket asked for never changes, and
a ticket that is over never changes at all.
-/

namespace PrimeRl.Value

universe u
variable {Scalar : Type u}

namespace RequestTicket

/-- Expired in the queue, or cancelled there. -/
def Missed (ticket : RequestTicket Scalar) : Prop :=
  ticket.future = .failed (.timeout "value evaluation request timed out") ∨
    ticket.future = .cancelled

/-- Its size is what its sequences hold. -/
def Measured (ticket : RequestTicket Scalar) : Prop :=
  ticket.tokens = (ticket.request.tokenIds.map List.length).sum

/-- The same ticket at a later time. -/
structure Remains (before after : RequestTicket Scalar) : Prop where
  request : after.request = before.request
  tokens : after.tokens = before.tokens
  deadline : after.deadline = before.deadline
  settled : Over before → after = before

theorem remains_refl (ticket : RequestTicket Scalar) : Remains ticket ticket :=
  ⟨rfl, rfl, rfl, fun _ => rfl⟩

theorem Remains.trans {before between after : RequestTicket Scalar}
    (first : Remains before between) (second : Remains between after) : Remains before after where
  request := second.request.trans first.request
  tokens := second.tokens.trans first.tokens
  deadline := second.deadline.trans first.deadline
  settled := by
    intro isOver
    have same := first.settled isOver
    rw [second.settled (same ▸ isOver), same]

/-- A ticket that has a place is not over yet. -/
theorem fits_not_over {place : TicketPlace} {ticket : RequestTicket Scalar}
    (fits : Fits place ticket) : ¬ Over ticket := by
  rintro ⟨released, -, outcome⟩
  cases place with
  | queued => exact Bool.noConfusion (released.symm.trans fits.2.2.1)
  | running => exact Bool.noConfusion (released.symm.trans fits.2.1)
  | closing =>
    rcases outcome with ⟨finished, -⟩ | ⟨running, -⟩
    · rw [fits.1] at finished
      cases finished
    · rw [fits.1] at running
      cases running

end RequestTicket

namespace ValueRequestService

open RequestTicket

variable {service between next : ValueRequestService Scalar} {inHand closing : List Nat}
  {ticketId : Nat}

/-- Every ticket stays in its place and remains itself. -/
structure Kept (service next : ValueRequestService Scalar) : Prop where
  config : next.config = service.config
  remains : ∀ (ticketId : Nat) ticket, service.tickets[ticketId]? = some ticket →
    ∃ after, next.tickets[ticketId]? = some after ∧ Remains ticket after

theorem kept_of_same (config : next.config = service.config)
    (tickets : next.tickets = service.tickets) : Kept service next where
  config := config
  remains := fun _ ticket found => ⟨ticket, tickets ▸ found, remains_refl ticket⟩

theorem Kept.trans (first : Kept service between) (second : Kept between next) :
    Kept service next where
  config := second.config.trans first.config
  remains := by
    intro ticketId ticket found
    obtain ⟨middle, present, remains⟩ := first.remains ticketId ticket found
    obtain ⟨after, later, stays⟩ := second.remains ticketId middle present
    exact ⟨after, later, remains.trans stays⟩

/-- A change of one ticket that stays itself. -/
theorem kept_of_set {ticket after : RequestTicket Scalar}
    (found : service.tickets[ticketId]? = some ticket) (config : next.config = service.config)
    (tickets : next.tickets = service.tickets.set ticketId after) (remains : Remains ticket after) :
    Kept service next where
  config := config
  remains := by
    intro other present stored
    rw [tickets]
    by_cases same : other = ticketId
    · subst same
      obtain rfl : present = ticket := Option.some.inj (stored.symm.trans found)
      exact ⟨after, found_set found, remains⟩
    · rw [List.getElem?_set_ne (Ne.symm same)]
      exact ⟨present, stored, remains_refl present⟩

/-- What one locked section does to the queue, with the tickets it started. -/
inductive QueueStep (service next : ValueRequestService Scalar) : List Nat → Prop
  | served (taken : List Nat) (ordered : (taken ++ next.queue).Sublist service.queue)
      (missed : ∀ ticketId ∈ service.queue, ticketId ∉ taken ++ next.queue →
        ∃ ticket, next.tickets[ticketId]? = some ticket ∧ Missed ticket ∧ Over ticket)
      (admitted : next.tickets.length = service.tickets.length)
      (closed : next.closed = service.closed) : QueueStep service next taken
  | arrived (queue : next.queue = service.queue ++ [service.tickets.length])
      (admitted : next.tickets.length = service.tickets.length + 1)
      (measured : ∃ ticket, next.tickets[service.tickets.length]? = some ticket ∧ Measured ticket)
      (wasOpen : service.closed = false) : QueueStep service next []
  | shut (queue : next.queue = [])
      (admitted : next.tickets.length = service.tickets.length)
      (closed : next.closed = true) : QueueStep service next []

/-- A section that leaves the queue alone. -/
theorem queueStep_of_same (queue : next.queue = service.queue)
    (admitted : next.tickets.length = service.tickets.length)
    (closed : next.closed = service.closed) : QueueStep service next [] := by
  apply QueueStep.served [] _ _ admitted closed
  · rw [queue]
    exact .refl _
  · intro ticketId member absent
    rw [queue] at absent
    exact absurd member absent

/-- The tickets of a queue that expired and the rest behind them. -/
structure Expired (service next : ValueRequestService Scalar) : Prop where
  kept : Kept service next
  ordered : next.queue.Sublist service.queue
  missed : ∀ ticketId ∈ service.queue, ticketId ∉ next.queue →
    ∃ ticket, next.tickets[ticketId]? = some ticket ∧ Missed ticket ∧ Over ticket
  admitted : next.tickets.length = service.tickets.length
  closed : next.closed = service.closed

theorem expired_refl (service : ValueRequestService Scalar) : Expired service service where
  kept := kept_of_same rfl rfl
  ordered := .refl _
  missed := fun _ member absent => absurd member absent
  admitted := rfl
  closed := rfl

theorem Expired.trans (first : Expired service between) (second : Expired between next) :
    Expired service next where
  kept := first.kept.trans second.kept
  ordered := second.ordered.trans first.ordered
  missed := by
    intro ticketId member absent
    by_cases waited : ticketId ∈ between.queue
    · exact second.missed ticketId waited absent
    · obtain ⟨ticket, found, isMissed, isOver⟩ := first.missed ticketId member waited
      obtain ⟨after, later, remains⟩ := second.kept.remains ticketId ticket found
      rw [remains.settled isOver] at later
      exact ⟨ticket, later, isMissed, isOver⟩
  admitted := second.admitted.trans first.admitted
  closed := second.closed.trans first.closed

/-- Popping an expired head misses that ticket only. -/
theorem expire_ticket_expired {rest : List Nat} (balanced : Balanced service inHand closing)
    (queued : service.queue = ticketId :: rest) :
    Expired service (service.expireTicket ticketId rest) := by
  have listed : (places service.queue inHand closing).Perm
      ((ticketId, .queued) :: places rest inHand closing) := by
    rw [queued, places_queue]
  obtain ⟨ticket, found, fits⟩ := balanced.ticket_at listed
  rw [expire_ticket_eq rest found fits.1 fits.2.2.1]
  constructor
  · exact kept_of_set found rfl rfl
      ⟨rfl, rfl, rfl, fun isOver => absurd isOver (fits_not_over fits)⟩
  · simp only [queued]
    exact List.sublist_cons_self ticketId rest
  · intro other member absent
    rw [queued, List.mem_cons] at member
    obtain rfl : other = ticketId := member.resolve_right absent
    refine ⟨_, found_set found, Or.inl rfl, ?_⟩
    obtain ⟨-, -, -, unreleased, unsettled⟩ := fits
    simp [Over, unreleased, unsettled, Future.done]
  · exact List.length_set
  · rfl

/-- The expiry loop misses a prefix of the queue and stops at a ticket whose
deadline is still ahead. -/
theorem expire_head_expired (balanced : Balanced service inHand closing) (now : Rat) :
    Expired service (service.expireHead now) ∧
      ∀ head rest, (service.expireHead now).queue = head :: rest →
        ∃ ticket, (service.expireHead now).tickets[head]? = some ticket ∧
          Fits .queued ticket ∧ now < ticket.deadline := by
  have loop : ∀ queue (current : ValueRequestService Scalar), Balanced current inHand closing →
      current.queue = queue → Expired current (expireLoop now queue current) ∧
        ∀ head rest, (expireLoop now queue current).queue = head :: rest →
          ∃ ticket, (expireLoop now queue current).tickets[head]? = some ticket ∧
            Fits .queued ticket ∧ now < ticket.deadline := by
    intro queue
    induction queue with
    | nil =>
      intro current _ queued
      refine ⟨expired_refl current, ?_⟩
      intro head rest left
      rw [expireLoop, queued] at left
      cases left
    | cons ticketId rest inductionHypothesis =>
      intro current currentBalanced queued
      have listed : (places current.queue inHand closing).Perm
          ((ticketId, .queued) :: places rest inHand closing) := by
        rw [queued, places_queue]
      obtain ⟨ticket, found, fits⟩ := currentBalanced.ticket_at listed
      simp only [expireLoop, found]
      by_cases late : ticket.deadline ≤ now
      · rw [if_pos late]
        obtain ⟨popped, remaining⟩ := expire_ticket_balanced currentBalanced queued
        obtain ⟨later, front⟩ := inductionHypothesis _ popped remaining
        exact ⟨(expire_ticket_expired currentBalanced queued).trans later, front⟩
      · rw [if_neg late]
        refine ⟨expired_refl current, ?_⟩
        intro head behind left
        rw [queued] at left
        obtain ⟨rfl, -⟩ := List.cons.inj left
        exact ⟨ticket, found, fits, lt_of_not_ge late⟩
  exact loop service.queue service balanced rfl

theorem Expired.step (expired : Expired service next) : QueueStep service next [] :=
  .served [] expired.ordered expired.missed expired.admitted expired.closed

/-- Starting the head that expiry left serves it. -/
theorem Expired.take_head {rest : List Nat} {ticket : RequestTicket Scalar}
    (expired : Expired service between) (queued : between.queue = ticketId :: rest)
    (found : between.tickets[ticketId]? = some ticket) (fits : Fits .queued ticket) :
    Kept service (between.takeHead ticketId rest).1 ∧
      QueueStep service (between.takeHead ticketId rest).1 [ticketId] := by
  rw [take_head_eq rest found fits.1]
  have kept : Kept between { between with
      tickets := between.tickets.set ticketId { ticket with future := .running }
      queue := rest } :=
    kept_of_set found rfl rfl ⟨rfl, rfl, rfl, fun isOver => absurd isOver (fits_not_over fits)⟩
  refine ⟨expired.kept.trans kept, ?_⟩
  apply QueueStep.served [ticketId]
  · have ordered := expired.ordered
    rw [queued] at ordered
    exact ordered
  · intro other member absent
    have gone : other ∉ between.queue := by
      rw [queued]
      exact absent
    obtain ⟨missed, present, isMissed, isOver⟩ := expired.missed other member gone
    obtain ⟨after, later, remains⟩ := kept.remains other missed present
    rw [remains.settled isOver] at later
    exact ⟨missed, later, isMissed, isOver⟩
  · exact List.length_set.trans expired.admitted
  · exact expired.closed

/-- Cancelling takes a waiting ticket out of the queue, whose place it misses. -/
theorem cancel_step (balanced : Balanced service inHand closing) (ticketId : Nat) :
    Kept service (service.cancel ticketId).1 ∧
      QueueStep service (service.cancel ticketId).1 [] := by
  have quiet : ∀ other : ValueRequestService Scalar, other = service →
      Kept service other ∧ QueueStep service other [] := by
    rintro _ rfl
    exact ⟨kept_of_same rfl rfl, queueStep_of_same rfl rfl rfl⟩
  cases found : service.tickets[ticketId]? with
  | none =>
    apply quiet
    simp only [cancel, found]
  | some ticket =>
    cases released : ticket.released with
    | true =>
      apply quiet
      simp only [cancel, found, released, if_true]
    | false =>
      cases left : ticket.abandoned with
      | true =>
        apply quiet
        simp only [cancel, found, released, left, Bool.false_eq_true, if_false, if_true]
      | false =>
        obtain ⟨place, listed, fits⟩ := balanced.placed_of_unreleased found released
        cases place with
        | queued =>
          have queued : ticketId ∈ service.queue := by
            simpa [places] using listed
          rw [cancel_queued_eq queued found fits]
          constructor
          · exact kept_of_set found rfl rfl
              ⟨rfl, rfl, rfl, fun isOver => absurd isOver (fits_not_over fits)⟩
          · refine QueueStep.served [] ?_ ?_ ?_ ?_
            · exact List.erase_sublist
            · intro other member absent
              obtain rfl : other = ticketId := by
                by_contra different
                exact absent ((List.mem_erase_of_ne different).mpr member)
              refine ⟨_, found_set found, Or.inr rfl, ?_⟩
              obtain ⟨-, -, -, unreleased, unsettled⟩ := fits
              simp [Over, unreleased, unsettled, Future.done]
            · exact List.length_set
            · rfl
        | running =>
          rw [cancel_running_eq found fits left]
          exact ⟨kept_of_set found rfl rfl
            ⟨rfl, rfl, rfl, fun isOver => absurd isOver (fits_not_over fits)⟩,
            queueStep_of_same rfl List.length_set rfl⟩
        | closing =>
          have emptied : ticket.released = true := fits.2.2.1
          rw [emptied] at released
          cases released

/-- Completing a ticket in hand gives it its response, unless its client left. -/
theorem complete_ticket_step {rest : List Nat}
    (balanced : Balanced service (ticketId :: rest) closing)
    (response : ValueEvaluationResponse Scalar) :
    Kept service (service.completeTicket ticketId response).1 ∧
      QueueStep service (service.completeTicket ticketId response).1 [] ∧
      ∃ ticket, (service.completeTicket ticketId response).1.tickets[ticketId]? = some ticket ∧
        Over ticket ∧ (ticket.abandoned = true ∨ ticket.future = .resolved response) := by
  obtain ⟨ticket, found, fits, -⟩ := balanced.in_hand
  have running := fits_not_over fits
  obtain ⟨isRunning, kept, unreleased, unsettled⟩ := fits
  cases left : ticket.abandoned with
  | true =>
    rw [complete_abandoned_eq found kept left response, release_eq found kept]
    refine ⟨kept_of_set found rfl rfl ⟨rfl, rfl, rfl, fun isOver => absurd isOver running⟩,
      queueStep_of_same rfl List.length_set rfl, _, found_set found, ?_, Or.inl left⟩
    simp [Over, isRunning, left, unreleased, unsettled]
  | false =>
    rw [complete_waiting_eq found ⟨isRunning, kept, unreleased, unsettled⟩ left response]
    refine ⟨kept_of_set found rfl rfl ⟨rfl, rfl, rfl, fun isOver => absurd isOver running⟩,
      queueStep_of_same rfl List.length_set rfl, _, found_set found, ?_, Or.inr rfl⟩
    simp [Over, Future.done, unreleased, unsettled]

/-- Failing a ticket in hand leaves the queue alone. -/
theorem fail_ticket_step {rest : List Nat}
    (balanced : Balanced service (ticketId :: rest) closing) (error : ServiceError) :
    Kept service (service.failTicket ticketId error).1 ∧
      QueueStep service (service.failTicket ticketId error).1 [] := by
  obtain ⟨ticket, found, fits, -⟩ := balanced.in_hand
  have running := fits_not_over fits
  obtain ⟨isRunning, kept, unreleased, unsettled⟩ := fits
  cases left : ticket.abandoned with
  | true =>
    rw [fail_abandoned_eq found kept left error, release_eq found kept]
    exact ⟨kept_of_set found rfl rfl ⟨rfl, rfl, rfl, fun isOver => absurd isOver running⟩,
      queueStep_of_same rfl List.length_set rfl⟩
  | false =>
    rw [fail_waiting_eq found ⟨isRunning, kept, unreleased, unsettled⟩ left error]
    exact ⟨kept_of_set found rfl rfl ⟨rfl, rfl, rfl, fun isOver => absurd isOver running⟩,
      queueStep_of_same rfl List.length_set rfl⟩

/-- Finishing what `close` emptied out leaves the queue alone. -/
theorem resolve_closed_step {rest : List Nat}
    (balanced : Balanced service inHand (ticketId :: rest)) (error : ServiceError) :
    Kept service (service.resolveClosed ticketId error).1 ∧
      QueueStep service (service.resolveClosed ticketId error).1 [] := by
  obtain ⟨ticket, found, fits⟩ :=
    balanced.ticket_at (places_closing service.queue inHand ticketId rest)
  rw [resolve_closed_eq error found fits.1]
  exact ⟨kept_of_set found rfl rfl
    ⟨rfl, rfl, rfl, fun isOver => absurd isOver (fits_not_over fits)⟩,
    queueStep_of_same rfl List.length_set rfl⟩

/-- Giving capacity back changes neither what was asked for nor a ticket that is over. -/
theorem release_kept (service : ValueRequestService Scalar) (ticketId : Nat) :
    Kept service (service.release ticketId) ∧
      (service.release ticketId).tickets.length = service.tickets.length ∧
      (service.release ticketId).queue = service.queue ∧
      (service.release ticketId).closed = service.closed := by
  cases found : service.tickets[ticketId]? with
  | none =>
    simp only [release, found, and_self, and_true]
    exact kept_of_same rfl rfl
  | some ticket =>
    cases released : ticket.released with
    | true =>
      simp only [release, found, released, if_true, and_self, and_true]
      exact kept_of_same rfl rfl
    | false =>
      rw [release_eq found released]
      refine ⟨kept_of_set found rfl rfl ⟨rfl, rfl, rfl, ?_⟩, List.length_set, rfl, rfl⟩
      intro isOver
      rw [isOver.1] at released
      cases released

/-- `close` empties the queue for good. -/
theorem close_queue_step (service : ValueRequestService Scalar) :
    Kept service service.closeQueue.1 ∧ QueueStep service service.closeQueue.1 [] := by
  have emptied : ∀ (queue : List Nat) (current : ValueRequestService Scalar),
      Kept current (queue.foldl release current) ∧
        (queue.foldl release current).tickets.length = current.tickets.length ∧
        (queue.foldl release current).queue = current.queue ∧
        (queue.foldl release current).closed = current.closed := by
    intro queue
    induction queue with
    | nil => exact fun current => ⟨kept_of_same rfl rfl, rfl, rfl, rfl⟩
    | cons ticketId rest inductionHypothesis =>
      intro current
      obtain ⟨kept, admitted, queue, closed⟩ := release_kept current ticketId
      obtain ⟨keptLater, admittedLater, queueLater, closedLater⟩ :=
        inductionHypothesis (current.release ticketId)
      rw [List.foldl_cons]
      exact ⟨kept.trans keptLater, admittedLater.trans admitted, queueLater.trans queue,
        closedLater.trans closed⟩
  cases closed : service.closed with
  | true =>
    simp only [closeQueue, closed, if_true]
    exact ⟨kept_of_same rfl rfl, queueStep_of_same rfl rfl rfl⟩
  | false =>
    simp only [closeQueue, closed, Bool.false_eq_true, if_false]
    obtain ⟨kept, admitted, queue, isClosed⟩ :=
      emptied service.queue { service with closed := true, queue := [] }
    have shut : Kept service { service with closed := true, queue := [] } := kept_of_same rfl rfl
    exact ⟨shut.trans kept, .shut queue admitted isClosed⟩

/-- An admission puts its ticket at the end of the queue. -/
theorem submit_step (service : ValueRequestService Scalar) (request : ValueEvaluationRequest)
    (admittedAt : Rat) :
    Kept service (service.submit request admittedAt).1 ∧
      QueueStep service (service.submit request admittedAt).1 [] := by
  have quiet : Kept service service ∧ QueueStep service service [] :=
    ⟨kept_of_same rfl rfl, queueStep_of_same rfl rfl rfl⟩
  simp only [submit]
  split
  · exact quiet
  · split
    · exact quiet
    · split
      · exact quiet
      · rename_i available
        split
        · exact ⟨kept_of_same rfl rfl, queueStep_of_same rfl rfl rfl⟩
        · constructor
          · constructor
            · rfl
            · intro ticketId ticket found
              obtain ⟨inside, -⟩ := List.getElem?_eq_some_iff.mp found
              exact ⟨ticket, (List.getElem?_append_left inside).trans found, remains_refl ticket⟩
          · apply QueueStep.arrived rfl
            · exact List.length_append
            · exact ⟨_, List.getElem?_concat_length, rfl⟩
            · simp only [Bool.or_eq_true, not_or, Bool.not_eq_true] at available
              exact available.1.1

end ValueRequestService

end PrimeRl.Value
