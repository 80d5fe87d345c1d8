import PrimeRl.Value.Service

/-!
# Ticket accounting of the request service

An admitted ticket is queued, in a worker's hands, or emptied out of the queue by
`close` and about to be finished; otherwise its capacity was given back and it is
over. The counters are sums over the tickets, so each section keeps them exact
because it moves one ticket.
-/

namespace PrimeRl.Value

universe u
variable {Scalar : Type u}

/-- Where a ticket can be while it is not over. -/
inductive TicketPlace where
  | queued
  | running
  | closing
deriving DecidableEq, Repr

namespace RequestTicket

/-- What holds of a ticket at each place. -/
def Fits : TicketPlace → RequestTicket Scalar → Prop
  | .queued, ticket => ticket.future = .pending ∧ ticket.abandoned = false ∧
      ticket.released = false ∧ ticket.releases = 0 ∧ ticket.settlements = 0
  | .running, ticket => ticket.future = .running ∧ ticket.released = false ∧
      ticket.releases = 0 ∧ ticket.settlements = 0
  | .closing, ticket => ticket.future = .pending ∧ ticket.abandoned = false ∧
      ticket.released = true ∧ ticket.releases = 1 ∧ ticket.settlements = 0

/-- A ticket that is over gave its capacity back once, and its future was finished
or cancelled once unless its client had left while it ran. -/
def Over (ticket : RequestTicket Scalar) : Prop :=
  ticket.released = true ∧ ticket.releases = 1 ∧
    ((ticket.future.done = true ∧ ticket.settlements = 1) ∨
      (ticket.future = .running ∧ ticket.abandoned = true ∧ ticket.settlements = 0))

/-- Tokens a ticket still occupies. -/
def occupied (ticket : RequestTicket Scalar) : Int :=
  if ticket.released then 0 else ticket.tokens

/-- Whether someone works on it for a client that still waits. -/
def active (ticket : RequestTicket Scalar) : Bool :=
  ticket.future.isRunning && !ticket.abandoned

theorem over_inactive (ticket : RequestTicket Scalar) (isOver : Over ticket) :
    ticket.active = false := by
  obtain ⟨-, -, ⟨finished, -⟩ | ⟨-, left, -⟩⟩ := isOver
  · cases future : ticket.future <;> simp_all [active, Future.done, Future.isRunning]
  · simp [active, left]

end RequestTicket

namespace ValueRequestService

open RequestTicket

/-- The places of the queue, of the workers' hands and of a running `close`. -/
def places (queue inHand closing : List Nat) : List (Nat × TicketPlace) :=
  queue.map (fun ticketId => (ticketId, .queued)) ++
    (inHand.map (fun ticketId => (ticketId, .running)) ++
      closing.map (fun ticketId => (ticketId, .closing)))

/-- The accounting invariant, given what is in the workers' hands and what a
running `close` still has to finish. -/
structure Balanced (service : ValueRequestService Scalar) (inHand closing : List Nat) : Prop where
  placed : Stages.Staged Fits Over service.tickets (places service.queue inHand closing)
  requests : service.pendingRequests = service.tickets.countP (fun ticket => !ticket.released)
  tokens : service.pendingTokens = (service.tickets.map occupied).sum
  requests_bounded : service.pendingRequests ≤ service.config.maxPendingRequests
  tokens_bounded : service.pendingTokens ≤ service.config.maxPendingTokens
  listed : service.metrics.admitted = service.tickets.length
  conserved : service.closed = false → service.metrics.admitted =
    service.metrics.completed + service.metrics.failed + service.metrics.expired +
      service.metrics.abandoned + service.queue.length + service.tickets.countP active
  faultless : service.faults = []

variable {service : ValueRequestService Scalar} {inHand closing : List Nat} {ticketId : Nat}

/-- Only which tickets are at a place matters, not their order. -/
theorem Balanced.perm {otherHand otherClosing : List Nat}
    (balanced : Balanced service inHand closing) (sameHand : inHand.Perm otherHand)
    (sameClosing : closing.Perm otherClosing) : Balanced service otherHand otherClosing :=
  { balanced with
    placed := balanced.placed.perm
      (List.Perm.append_left _ ((sameHand.map _).append (sameClosing.map _))) }

/-- The head of the queue is a queued ticket. -/
theorem places_queue (ticketId : Nat) (rest inHand closing : List Nat) :
    places (ticketId :: rest) inHand closing =
      (ticketId, .queued) :: places rest inHand closing := rfl

/-- A ticket in hand, brought to the front. -/
theorem places_hand (queue : List Nat) (ticketId : Nat) (rest closing : List Nat) :
    (places queue (ticketId :: rest) closing).Perm
      ((ticketId, .running) :: places queue rest closing) := by
  simp only [places, List.map_cons, List.cons_append]
  exact List.perm_middle

/-- A ticket that `close` still has to finish, brought to the front. -/
theorem places_closing (queue inHand : List Nat) (ticketId : Nat) (rest : List Nat) :
    (places queue inHand (ticketId :: rest)).Perm
      ((ticketId, .closing) :: places queue inHand rest) := by
  simp only [places, List.map_cons]
  rw [← List.append_assoc, ← List.append_assoc]
  exact List.perm_middle

/-- A change of one ticket keeps the accounts when the counters follow it. -/
theorem Balanced.update (balanced : Balanced service inHand closing)
    {ticket next : RequestTicket Scalar} {queue inHand' closing' : List Nat} {requests tokens : Int}
    {metrics : ServiceMetrics} (found : service.tickets[ticketId]? = some ticket)
    (placed : Stages.Staged Fits Over (service.tickets.set ticketId next)
      (places queue inHand' closing'))
    (requests_follow : requests + (if !ticket.released then 1 else 0) =
      service.pendingRequests + (if !next.released then 1 else 0))
    (tokens_follow : tokens + ticket.occupied = service.pendingTokens + next.occupied)
    (requests_le : requests ≤ service.pendingRequests) (tokens_le : tokens ≤ service.pendingTokens)
    (admitted_same : metrics.admitted = service.metrics.admitted)
    (conserves : service.closed = false →
      metrics.completed + metrics.failed + metrics.expired + metrics.abandoned + queue.length +
          (if next.active then 1 else 0) =
        service.metrics.completed + service.metrics.failed + service.metrics.expired +
          service.metrics.abandoned + service.queue.length + (if ticket.active then 1 else 0)) :
    Balanced { service with
      tickets := service.tickets.set ticketId next
      queue := queue
      pendingRequests := requests
      pendingTokens := tokens
      metrics := metrics } inHand' closing' := by
  have requestCount := Pool.countP_set (fun ticket : RequestTicket Scalar => !ticket.released)
    service.tickets ticketId ticket next found
  have tokenSum := Pool.sum_set occupied service.tickets ticketId ticket next found
  have activeCount := Pool.countP_set active service.tickets ticketId ticket next found
  have requestsBefore := balanced.requests
  have tokensBefore := balanced.tokens
  constructor
  · exact placed
  · simp only at requestCount ⊢
    split at requests_follow <;> split at requests_follow <;>
      simp_all only [if_true, if_false, Bool.false_eq_true] <;> omega
  · simp only
    omega
  · exact le_trans requests_le balanced.requests_bounded
  · exact le_trans tokens_le balanced.tokens_bounded
  · simp only [List.length_set]
    exact admitted_same.trans balanced.listed
  · intro stillOpen
    have before := balanced.conserved stillOpen
    have change := conserves stillOpen
    simp only at activeCount ⊢
    omega
  · exact balanced.faultless

/-- The first release of a ticket gives exactly its own share back. -/
theorem release_eq {ticket : RequestTicket Scalar} (found : service.tickets[ticketId]? = some ticket)
    (kept : ticket.released = false) :
    service.release ticketId =
      { service with
        tickets := service.tickets.set ticketId
          { ticket with released := true, releases := ticket.releases + 1 }
        pendingRequests := service.pendingRequests - 1
        pendingTokens := service.pendingTokens - ticket.tokens } := by
  simp only [release, found, kept, Bool.false_eq_true, if_false, setTicket]

/-- What a listed ticket is, by its place. -/
theorem Balanced.ticket_at {place : TicketPlace} {others : List (Nat × TicketPlace)}
    (balanced : Balanced service inHand closing)
    (listed : (places service.queue inHand closing).Perm ((ticketId, place) :: others)) :
    ∃ ticket, service.tickets[ticketId]? = some ticket ∧ Fits place ticket :=
  balanced.placed.staged ticketId place (listed.mem_iff.mpr List.mem_cons_self)

/-- An updated ticket can be read back. -/
theorem found_set {ticket next : RequestTicket Scalar}
    (found : service.tickets[ticketId]? = some ticket) :
    (service.tickets.set ticketId next)[ticketId]? = some next := by
  obtain ⟨inside, -⟩ := List.getElem?_eq_some_iff.mp found
  exact List.getElem?_set_self inside

/-- Expiring a waiting ticket gives its capacity back and fails its future. -/
theorem expire_ticket_eq {ticket : RequestTicket Scalar} (rest : List Nat)
    (found : service.tickets[ticketId]? = some ticket) (pending : ticket.future = .pending)
    (kept : ticket.released = false) :
    service.expireTicket ticketId rest =
      { service with
        tickets := service.tickets.set ticketId
          { ticket with
            released := true
            releases := ticket.releases + 1
            future := .failed (.timeout "value evaluation request timed out")
            settlements := ticket.settlements + 1 }
        queue := rest
        pendingRequests := service.pendingRequests - 1
        pendingTokens := service.pendingTokens - ticket.tokens
        metrics := { service.metrics with expired := service.metrics.expired + 1 } } := by
  have poppedFound : ({ service with queue := rest } : ValueRequestService Scalar).tickets[ticketId]? =
      some ticket := found
  simp only [expireTicket, release_eq poppedFound kept, found_set found, pending, Future.done,
    Future.setException, Bool.false_eq_true, if_false, settle, setTicket, List.set_set]

/-- Starting a waiting ticket only moves its future on. -/
theorem take_head_eq {ticket : RequestTicket Scalar} (rest : List Nat)
    (found : service.tickets[ticketId]? = some ticket) (pending : ticket.future = .pending) :
    service.takeHead ticketId rest =
      ({ service with
          tickets := service.tickets.set ticketId { ticket with future := .running }
          queue := rest
          pendingRequests := service.pendingRequests
          pendingTokens := service.pendingTokens
          metrics := service.metrics }, .taken ticketId) := by
  simp only [takeHead, found, Option.bind_some, pending, Future.setRunningOrNotifyCancel,
    Option.map_some, setTicket]

/-- Cancelling a waiting ticket takes it out of the queue. -/
theorem cancel_queued_eq {ticket : RequestTicket Scalar} (queued : ticketId ∈ service.queue)
    (found : service.tickets[ticketId]? = some ticket) (fits : Fits .queued ticket) :
    (service.cancel ticketId).1 =
      { service with
        tickets := service.tickets.set ticketId
          { ticket with
            future := .cancelled
            settlements := ticket.settlements + 1
            released := true
            releases := ticket.releases + 1 }
        queue := service.queue.erase ticketId
        pendingRequests := service.pendingRequests - 1
        pendingTokens := service.pendingTokens - ticket.tokens
        metrics := { service.metrics with expired := service.metrics.expired + 1 } } := by
  obtain ⟨pending, waiting, kept, -, -⟩ := fits
  simp only [cancel, found, kept, waiting, pending, Future.cancel, settle, setTicket, release,
    queued, found_set found, Bool.false_eq_true, if_false, if_true, List.set_set]

/-- Cancelling a running ticket marks it as abandoned. -/
theorem cancel_running_eq {ticket : RequestTicket Scalar}
    (found : service.tickets[ticketId]? = some ticket) (fits : Fits .running ticket)
    (waiting : ticket.abandoned = false) :
    (service.cancel ticketId).1 =
      { service with
        tickets := service.tickets.set ticketId { ticket with abandoned := true }
        queue := service.queue
        pendingRequests := service.pendingRequests
        pendingTokens := service.pendingTokens
        metrics := { service.metrics with abandoned := service.metrics.abandoned + 1 } } := by
  obtain ⟨running, kept, -, -⟩ := fits
  simp only [cancel, found, kept, waiting, running, Future.cancel, setTicket, Bool.false_eq_true,
    if_false]

/-- Finishing a ticket that `close` emptied out of the queue. -/
theorem resolve_closed_eq {ticket : RequestTicket Scalar} (error : ServiceError)
    (found : service.tickets[ticketId]? = some ticket) (pending : ticket.future = .pending) :
    service.resolveClosed ticketId error =
      ({ service with
          tickets := service.tickets.set ticketId
            { ticket with future := .failed error, settlements := ticket.settlements + 1 }
          queue := service.queue
          pendingRequests := service.pendingRequests
          pendingTokens := service.pendingTokens
          metrics := service.metrics }, true) := by
  simp only [resolveClosed, found, pending, Future.setException, Future.done, settle, setTicket,
    Bool.false_eq_true, if_false]

/-- Expiring the head of the queue. -/
theorem expire_ticket_balanced {rest : List Nat} (balanced : Balanced service inHand closing)
    (queued : service.queue = ticketId :: rest) :
    Balanced (service.expireTicket ticketId rest) inHand closing ∧
      (service.expireTicket ticketId rest).queue = rest := by
  have listed : (places service.queue inHand closing).Perm
      ((ticketId, .queued) :: places rest inHand closing) := by
    rw [queued, places_queue]
  obtain ⟨ticket, found, pending, waiting, kept, unreleased, unsettled⟩ := balanced.ticket_at listed
  have same := expire_ticket_eq rest found pending kept
  constructor
  · rw [same]
    apply balanced.update found
    · exact (balanced.placed.perm listed).leave _ (by simp [Over, unreleased, unsettled, Future.done])
    · simp only [kept, Bool.not_false, Bool.not_true, if_true, Bool.false_eq_true, if_false]
      omega
    · simp only [occupied, kept, Bool.false_eq_true, if_false, if_true]
      omega
    · omega
    · omega
    · rfl
    · intro _
      simp only [active, pending, Future.isRunning, Bool.false_and, Bool.false_eq_true, if_false,
        queued, List.length_cons]
      omega
  · rw [same]

/-- The expiry loop pops a prefix of the queue. -/
theorem expire_head_balanced (balanced : Balanced service inHand closing) (now : Rat) :
    Balanced (service.expireHead now) inHand closing := by
  have loop : ∀ queue (current : ValueRequestService Scalar), Balanced current inHand closing →
      current.queue = queue → Balanced (expireLoop now queue current) inHand closing := by
    intro queue
    induction queue with
    | nil => exact fun current currentBalanced _ => currentBalanced
    | cons ticketId rest inductionHypothesis =>
      intro current currentBalanced queued
      simp only [expireLoop]
      split
      · exact currentBalanced
      · split
        · obtain ⟨popped, remaining⟩ := expire_ticket_balanced currentBalanced queued
          exact inductionHypothesis _ popped remaining
        · exact currentBalanced
  exact loop service.queue service balanced rfl

/-- Starting the head of the queue puts it into a worker's hands. It cannot have
been cancelled or started before. -/
theorem take_head_balanced {rest : List Nat} (balanced : Balanced service inHand closing)
    (queued : service.queue = ticketId :: rest) :
    (service.takeHead ticketId rest).2 = .taken ticketId ∧
      Balanced (service.takeHead ticketId rest).1 (ticketId :: inHand) closing := by
  have listed : (places service.queue inHand closing).Perm
      ((ticketId, .queued) :: places rest inHand closing) := by
    rw [queued, places_queue]
  obtain ⟨ticket, found, pending, waiting, kept, unreleased, unsettled⟩ := balanced.ticket_at listed
  have same := take_head_eq rest found pending
  constructor
  · rw [same]
  · rw [same]
    apply balanced.update found
    · have moved := (balanced.placed.perm listed).move { ticket with future := .running } .running
        ⟨rfl, kept, unreleased, unsettled⟩
      exact moved.perm (places_hand rest ticketId inHand closing).symm
    · rfl
    · rfl
    · exact le_refl _
    · exact le_refl _
    · rfl
    · intro _
      simp only [active, pending, waiting, Future.isRunning, Bool.not_false, Bool.and_true, if_true,
        Bool.false_eq_true, if_false, queued, List.length_cons]
      omega

/-- A queued ticket that is cancelled leaves the queue and is over. -/
theorem cancel_queued_balanced {ticket : RequestTicket Scalar}
    (balanced : Balanced service inHand closing) (queued : ticketId ∈ service.queue)
    (found : service.tickets[ticketId]? = some ticket) (fits : Fits .queued ticket) :
    Balanced (service.cancel ticketId).1 inHand closing := by
  have same := cancel_queued_eq queued found fits
  obtain ⟨pending, waiting, kept, unreleased, unsettled⟩ := fits
  have inFront : service.queue.Perm (ticketId :: service.queue.erase ticketId) :=
    List.perm_cons_erase queued
  have shorter := inFront.length_eq
  rw [List.length_cons] at shorter
  rw [same]
  apply balanced.update found
  · have reordered : (places service.queue inHand closing).Perm
        ((ticketId, .queued) :: places (service.queue.erase ticketId) inHand closing) :=
      (inFront.map _).append_right _
    exact (balanced.placed.perm reordered).leave _ (by simp [Over, unreleased, unsettled, Future.done])
  · simp only [kept, Bool.not_false, Bool.not_true, if_true, Bool.false_eq_true, if_false]
    omega
  · simp only [occupied, kept, Bool.false_eq_true, if_false, if_true]
    omega
  · omega
  · omega
  · rfl
  · intro _
    simp only [active, pending, Future.isRunning, Bool.false_and, Bool.false_eq_true, if_false]
    omega

/-- A running ticket that is abandoned stays in its worker's hands. -/
theorem cancel_running_balanced {ticket : RequestTicket Scalar}
    (balanced : Balanced service inHand closing)
    (member : (ticketId, TicketPlace.running) ∈ places service.queue inHand closing)
    (found : service.tickets[ticketId]? = some ticket) (fits : Fits .running ticket)
    (waiting : ticket.abandoned = false) :
    Balanced (service.cancel ticketId).1 inHand closing := by
  have same := cancel_running_eq found fits waiting
  obtain ⟨running, kept, unreleased, unsettled⟩ := fits
  rw [same]
  apply balanced.update found
  · have inFront := List.perm_cons_erase member
    exact ((balanced.placed.perm inFront).move { ticket with abandoned := true } .running
      ⟨running, kept, unreleased, unsettled⟩).perm inFront.symm
  · rfl
  · rfl
  · exact le_refl _
  · exact le_refl _
  · rfl
  · intro _
    simp only [active, running, waiting, Future.isRunning, Bool.not_true, Bool.not_false,
      Bool.and_false, Bool.and_true, Bool.false_eq_true, if_false, if_true]
    omega

/-- A ticket that still holds capacity has a place. -/
theorem Balanced.placed_of_unreleased {ticket : RequestTicket Scalar}
    (balanced : Balanced service inHand closing) (found : service.tickets[ticketId]? = some ticket)
    (unreleased : ticket.released = false) :
    ∃ place, (ticketId, place) ∈ places service.queue inHand closing ∧ Fits place ticket := by
  have somewhere : ticketId ∈ (places service.queue inHand closing).map Prod.fst := by
    by_contra nowhere
    have isOver := balanced.placed.rest ticketId ticket found nowhere
    rw [isOver.1] at unreleased
    cases unreleased
  obtain ⟨⟨listedId, place⟩, member, rfl⟩ := List.mem_map.mp somewhere
  obtain ⟨placedTicket, placedFound, fits⟩ := balanced.placed.staged listedId place member
  obtain rfl : placedTicket = ticket := Option.some.inj (placedFound.symm.trans found)
  exact ⟨place, member, fits⟩

/-- Cancelling removes a queued ticket, abandons a running one, and changes
nothing once the capacity was given back. A ticket whose future can still be
cancelled is always in the queue. -/
theorem cancel_balanced (balanced : Balanced service inHand closing) (ticketId : Nat) :
    Balanced (service.cancel ticketId).1 inHand closing := by
  cases found : service.tickets[ticketId]? with
  | none =>
    simp only [cancel, found]
    exact balanced
  | some ticket =>
    cases released : ticket.released with
    | true =>
      simp only [cancel, found, released, if_true]
      exact balanced
    | false =>
      cases left : ticket.abandoned with
      | true =>
        simp only [cancel, found, released, left, Bool.false_eq_true, if_false, if_true]
        exact balanced
      | false =>
        obtain ⟨place, member, fits⟩ := balanced.placed_of_unreleased found released
        cases place with
        | queued =>
          have queued : ticketId ∈ service.queue := by
            simpa [places] using member
          exact cancel_queued_balanced balanced queued found fits
        | running => exact cancel_running_balanced balanced member found fits left
        | closing =>
          have emptied : ticket.released = true := fits.2.2.1
          rw [emptied] at released
          cases released

/-- A ticket in hand, with its place in front. -/
theorem Balanced.in_hand {rest : List Nat} (balanced : Balanced service (ticketId :: rest) closing) :
    ∃ ticket, service.tickets[ticketId]? = some ticket ∧ Fits .running ticket ∧
      ∀ next, Over next →
        Stages.Staged Fits Over (service.tickets.set ticketId next)
          (places service.queue rest closing) := by
  have inFront := places_hand service.queue ticketId rest closing
  obtain ⟨ticket, found, fits⟩ := balanced.ticket_at inFront
  exact ⟨ticket, found, fits, fun next isOver => (balanced.placed.perm inFront).leave next isOver⟩

/-- A ticket whose client left only gives its capacity back. -/
theorem drop_abandoned_balanced {rest : List Nat} {ticket : RequestTicket Scalar}
    (balanced : Balanced service (ticketId :: rest) closing)
    (found : service.tickets[ticketId]? = some ticket) (left : ticket.abandoned = true) :
    Balanced (service.release ticketId) rest closing := by
  obtain ⟨same, sameFound, ⟨running, kept, unreleased, unsettled⟩, leaves⟩ := balanced.in_hand
  obtain rfl : same = ticket := Option.some.inj (sameFound.symm.trans found)
  rw [release_eq found kept]
  apply balanced.update found
  · exact leaves _ (by simp [Over, running, left, unreleased, unsettled])
  · simp only [kept, Bool.not_false, Bool.not_true, if_true, Bool.false_eq_true, if_false]
    omega
  · simp only [occupied, kept, Bool.false_eq_true, if_false, if_true]
    omega
  · omega
  · omega
  · rfl
  · intro _
    simp only [active, left, Bool.not_true, Bool.and_false]

/-- A ticket whose client waits is over once its future is finished and counted. -/
theorem finish_balanced {rest : List Nat} {ticket : RequestTicket Scalar}
    {future : Future (ValueEvaluationResponse Scalar) ServiceError} {metrics : ServiceMetrics}
    (balanced : Balanced service (ticketId :: rest) closing)
    (found : service.tickets[ticketId]? = some ticket) (waiting : ticket.abandoned = false)
    (finished : future.done = true) (admitted_same : metrics.admitted = service.metrics.admitted)
    (counted : metrics.completed + metrics.failed + metrics.expired + metrics.abandoned =
      service.metrics.completed + service.metrics.failed + service.metrics.expired +
        service.metrics.abandoned + 1) :
    Balanced { service with
      tickets := service.tickets.set ticketId
        { ticket with
          released := true
          releases := ticket.releases + 1
          future := future
          settlements := ticket.settlements + 1 }
      pendingRequests := service.pendingRequests - 1
      pendingTokens := service.pendingTokens - ticket.tokens
      metrics := metrics } rest closing := by
  obtain ⟨same, sameFound, ⟨running, kept, unreleased, unsettled⟩, leaves⟩ := balanced.in_hand
  obtain rfl : same = ticket := Option.some.inj (sameFound.symm.trans found)
  have atRest : Over ({ same with
      released := true
      releases := same.releases + 1
      future := future
      settlements := same.settlements + 1 } : RequestTicket Scalar) := by
    simp [Over, finished, unreleased, unsettled]
  apply balanced.update found
  · exact leaves _ atRest
  · simp only [kept, Bool.not_false, Bool.not_true, if_true, Bool.false_eq_true, if_false]
    omega
  · simp only [occupied, kept, Bool.false_eq_true, if_false, if_true]
    omega
  · omega
  · omega
  · exact admitted_same
  · intro _
    simp only [over_inactive _ atRest, Bool.false_eq_true, if_false]
    simp only [active, running, waiting, Future.isRunning, Bool.not_false, Bool.and_true, if_true]
    omega

/-- The section of a completed ticket whose client left. -/
theorem complete_abandoned_eq {ticket : RequestTicket Scalar}
    (found : service.tickets[ticketId]? = some ticket) (kept : ticket.released = false)
    (left : ticket.abandoned = true) (response : ValueEvaluationResponse Scalar) :
    service.completeTicket ticketId response = (service.release ticketId, true) := by
  simp only [completeTicket, release_eq found kept, found_set found, left, if_true]

/-- The section of a completed ticket whose client waits. -/
theorem complete_waiting_eq {ticket : RequestTicket Scalar}
    (found : service.tickets[ticketId]? = some ticket) (fits : Fits .running ticket)
    (waiting : ticket.abandoned = false) (response : ValueEvaluationResponse Scalar) :
    service.completeTicket ticketId response =
      ({ service with
          tickets := service.tickets.set ticketId
            { ticket with
              released := true
              releases := ticket.releases + 1
              future := .resolved response
              settlements := ticket.settlements + 1 }
          pendingRequests := service.pendingRequests - 1
          pendingTokens := service.pendingTokens - ticket.tokens
          metrics := { service.metrics with completed := service.metrics.completed + 1 } }, true) := by
  obtain ⟨running, kept, -, -⟩ := fits
  simp only [completeTicket, release_eq found kept, found_set found, waiting, running,
    Future.setResult, Future.done, settle, setTicket, Bool.false_eq_true, if_false, List.set_set]

/-- The section of a completed ticket goes through and leaves it over. -/
theorem complete_ticket_balanced {rest : List Nat}
    (balanced : Balanced service (ticketId :: rest) closing)
    (response : ValueEvaluationResponse Scalar) :
    (service.completeTicket ticketId response).2 = true ∧
      Balanced (service.completeTicket ticketId response).1 rest closing := by
  obtain ⟨ticket, found, fits, -⟩ := balanced.in_hand
  cases left : ticket.abandoned with
  | true =>
    rw [complete_abandoned_eq found fits.2.1 left response]
    exact ⟨rfl, drop_abandoned_balanced balanced found left⟩
  | false =>
    rw [complete_waiting_eq found fits left response]
    refine ⟨rfl, finish_balanced balanced found left rfl rfl ?_⟩
    simp only
    omega

/-- The section of a failed ticket whose client left. -/
theorem fail_abandoned_eq {ticket : RequestTicket Scalar}
    (found : service.tickets[ticketId]? = some ticket) (kept : ticket.released = false)
    (left : ticket.abandoned = true) (error : ServiceError) :
    service.failTicket ticketId error = (service.release ticketId, true) := by
  simp only [failTicket, release_eq found kept, found_set found, left, if_true]

/-- The section of a failed ticket whose client waits. -/
theorem fail_waiting_eq {ticket : RequestTicket Scalar}
    (found : service.tickets[ticketId]? = some ticket) (fits : Fits .running ticket)
    (waiting : ticket.abandoned = false) (error : ServiceError) :
    service.failTicket ticketId error =
      ({ service with
          tickets := service.tickets.set ticketId
            { ticket with
              released := true
              releases := ticket.releases + 1
              future := .failed error
              settlements := ticket.settlements + 1 }
          pendingRequests := service.pendingRequests - 1
          pendingTokens := service.pendingTokens - ticket.tokens
          metrics := { service.metrics with failed := service.metrics.failed + 1 } }, true) := by
  obtain ⟨running, kept, -, -⟩ := fits
  simp only [failTicket, release_eq found kept, found_set found, waiting, running,
    Future.setException, Future.done, settle, setTicket, Bool.false_eq_true, if_false, List.set_set]

/-- The section of a failed ticket goes through and leaves it over. -/
theorem fail_ticket_balanced {rest : List Nat}
    (balanced : Balanced service (ticketId :: rest) closing) (error : ServiceError) :
    (service.failTicket ticketId error).2 = true ∧
      Balanced (service.failTicket ticketId error).1 rest closing := by
  obtain ⟨ticket, found, fits, -⟩ := balanced.in_hand
  cases left : ticket.abandoned with
  | true =>
    rw [fail_abandoned_eq found fits.2.1 left error]
    exact ⟨rfl, drop_abandoned_balanced balanced found left⟩
  | false =>
    rw [fail_waiting_eq found fits left error]
    refine ⟨rfl, finish_balanced balanced found left rfl rfl ?_⟩
    simp only
    omega

/-- Releasing the emptied queue hands each of its tickets to the running `close`. -/
theorem release_queue_balanced (queue : List Nat) (balanced : Balanced { service with queue := queue }
    inHand closing) (closed : service.closed = true) (emptied : service.queue = []) :
    Balanced (queue.foldl release service) inHand (closing ++ queue) := by
  induction queue generalizing service closing with
  | nil =>
    rw [List.append_nil]
    rw [← emptied] at balanced
    exact balanced
  | cons ticketId rest inductionHypothesis =>
    obtain ⟨ticket, found, pending, waiting, kept, unreleased, unsettled⟩ :=
      balanced.ticket_at (List.Perm.refl _)
    have stored : service.tickets[ticketId]? = some ticket := found
    have next : Balanced { service with
        tickets := service.tickets.set ticketId
          { ticket with released := true, releases := ticket.releases + 1 }
        queue := rest
        pendingRequests := service.pendingRequests - 1
        pendingTokens := service.pendingTokens - ticket.tokens } inHand (closing ++ [ticketId]) := by
      apply balanced.update found
      · have moved := balanced.placed.move
          { ticket with released := true, releases := ticket.releases + 1 } .closing
          ⟨pending, waiting, rfl, by simp only [unreleased], unsettled⟩
        have atEnd : (closing ++ [ticketId]).Perm (ticketId :: closing) :=
          List.perm_append_singleton ticketId closing
        exact moved.perm ((places_closing rest inHand ticketId closing).symm.trans
          (List.Perm.append_left _ (List.Perm.append_left _ (atEnd.symm.map _))))
      · simp only [kept, Bool.not_false, Bool.not_true, if_true, Bool.false_eq_true, if_false]
        omega
      · simp only [occupied, kept, Bool.false_eq_true, if_false, if_true]
        omega
      · simp only
        omega
      · simp only
        omega
      · rfl
      · intro stillOpen
        rw [closed] at stillOpen
        cases stillOpen
    rw [List.foldl_cons, ← List.singleton_append, ← List.append_assoc, release_eq stored kept]
    exact inductionHypothesis next closed emptied

/-- `close` takes the queue over, once. -/
theorem close_queue_balanced (balanced : Balanced service inHand closing) :
    Balanced service.closeQueue.1 inHand (closing ++ service.closeQueue.2) := by
  cases closed : service.closed with
  | true =>
    simp only [closeQueue, closed, if_true, List.append_nil]
    exact balanced
  | false =>
    simp only [closeQueue, closed, Bool.false_eq_true, if_false]
    apply release_queue_balanced service.queue _ rfl rfl
    exact { balanced with conserved := fun stillOpen => nomatch stillOpen }

/-- A ticket that `close` emptied out of the queue is still unfinished, and
finishing it leaves it over. -/
theorem resolve_closed_balanced {rest : List Nat}
    (balanced : Balanced service inHand (ticketId :: rest)) (error : ServiceError) :
    (∃ ticket, service.tickets[ticketId]? = some ticket ∧ ticket.future = .pending) ∧
      (service.resolveClosed ticketId error).2 = true ∧
      Balanced (service.resolveClosed ticketId error).1 inHand rest := by
  have inFront := places_closing service.queue inHand ticketId rest
  obtain ⟨ticket, found, pending, waiting, emptied, once, unsettled⟩ := balanced.ticket_at inFront
  have same := resolve_closed_eq error found pending
  refine ⟨⟨ticket, found, pending⟩, ?_, ?_⟩
  · rw [same]
  · rw [same]
    apply balanced.update found
    · exact (balanced.placed.perm inFront).leave _ (by simp [Over, emptied, once, unsettled, Future.done])
    · rfl
    · simp only [occupied, emptied, if_true]
    · exact le_refl _
    · exact le_refl _
    · rfl
    · intro _
      simp only [active, pending, Future.isRunning, Bool.false_and]

/-- An admission queues one fresh ticket within both limits; a rejection changes
no account. -/
theorem submit_balanced (balanced : Balanced service inHand closing)
    (request : ValueEvaluationRequest) (admittedAt : Rat) :
    Balanced (service.submit request admittedAt).1 inHand closing := by
  simp only [submit]
  split
  · exact balanced
  · split
    · exact balanced
    · split
      · exact balanced
      · split
        · exact { balanced with }
        · rename_i room
          have requestsBefore := balanced.requests
          have tokensBefore := balanced.tokens
          have requestsBounded := balanced.requests_bounded
          have listedBefore := balanced.listed
          constructor
          · have entered := balanced.placed.enter
              ({ request := request
                 tokens := (request.tokenIds.map List.length).sum
                 admittedAt := admittedAt
                 deadline := admittedAt + service.config.requestTimeout } : RequestTicket Scalar)
              .queued ⟨rfl, rfl, rfl, rfl, rfl⟩
            refine entered.perm ?_
            simp only [places, List.map_append, List.map_cons, List.map_nil, List.append_assoc]
            exact List.perm_middle.symm
          · simp only [List.countP_append, List.countP_singleton, Bool.not_false, if_true]
            omega
          · simp only [List.map_append, List.map_cons, List.map_nil, List.sum_append,
              List.sum_singleton, occupied, Bool.false_eq_true, if_false] at tokensBefore ⊢
            omega
          · simp only
            omega
          · simp only
            omega
          · simp only [List.length_append, List.length_singleton]
            omega
          · intro stillOpen
            have before := balanced.conserved stillOpen
            simp only [List.length_append, List.length_singleton, List.countP_append,
              List.countP_singleton, active, Future.isRunning, Bool.false_and,
              Bool.false_eq_true, if_false] at before ⊢
            omega
          · exact balanced.faultless

end ValueRequestService

end PrimeRl.Value
