import Mathlib.Algebra.Order.Ring.Rat
import Mathlib.Algebra.Ring.Int.Defs
import Mathlib.Algebra.Ring.Nat
import Mathlib.Data.Rat.Defs
import PrimeRl.Support.Future
import PrimeRl.Support.Pool
import PrimeRl.Support.Stages
import PrimeRl.Value.Types

/-!
# The value request service

Requests wait as tickets in a bounded queue. Each operation here is one section
that runs under the service lock, with the clock reading it uses. Tickets are
stored under their number of admission, so the queue and the worker's batches
hold numbers. Exceptions out of a future or the queue are recorded as faults.
-/

namespace PrimeRl.Value

universe u
variable {Scalar : Type u}

structure ValueEvaluatorConfig where
  maxBatchTokens : Nat
  batchWaitMs : Rat
  maxPendingRequests : Nat
  maxPendingTokens : Nat
  requestTimeout : Rat
  batch_positive : 1 ≤ maxBatchTokens
  wait_nonnegative : 0 ≤ batchWaitMs
  requests_positive : 1 ≤ maxPendingRequests
  tokens_positive : 1 ≤ maxPendingTokens
  timeout_positive : 0 < requestTimeout

/-- The exceptions of the service, by class. -/
inductive ServiceError where
  | unavailable (message : String)
  | tooLarge (message : String)
  | timeout (message : String)
  | invalid (message : String)
  | raised (message : String)
deriving DecidableEq, Repr

/-- A request with its future. How often its capacity was given back and how
often its future was finished or cancelled is counted beside it. -/
structure RequestTicket (Scalar : Type u) where
  request : ValueEvaluationRequest
  tokens : Nat
  admittedAt : Rat
  deadline : Rat
  future : Future (ValueEvaluationResponse Scalar) ServiceError := .pending
  abandoned : Bool := false
  released : Bool := false
  releases : Nat := 0
  settlements : Nat := 0

structure ServiceMetrics where
  admitted : Nat := 0
  rejectedFull : Nat := 0
  expired : Nat := 0
  abandoned : Nat := 0
  completed : Nat := 0
  failed : Nat := 0
deriving DecidableEq, Repr

structure ValueRequestService (Scalar : Type u) where
  config : ValueEvaluatorConfig
  seqLen : Nat
  vocabSize : Nat
  version : Option Int
  tickets : List (RequestTicket Scalar) := []
  queue : List Nat := []
  error : Option ServiceError := none
  closed : Bool := false
  pendingRequests : Int := 0
  pendingTokens : Int := 0
  metrics : ServiceMetrics := {}
  maxWait : Rat := 0
  faults : List String := []

/-- What popping the head of the queue came to. -/
inductive TakenHead where
  | taken (ticketId : Nat)
  | skipped
  | invalidState
deriving DecidableEq, Repr

namespace ValueRequestService

def fault (service : ValueRequestService Scalar) (name : String) : ValueRequestService Scalar :=
  { service with faults := service.faults ++ [name] }

def setTicket (service : ValueRequestService Scalar) (ticketId : Nat)
    (ticket : RequestTicket Scalar) : ValueRequestService Scalar :=
  { service with tickets := service.tickets.set ticketId ticket }

/-- Store a finished or cancelled future. -/
def settle (service : ValueRequestService Scalar) (ticketId : Nat) (ticket : RequestTicket Scalar)
    (future : Future (ValueEvaluationResponse Scalar) ServiceError) : ValueRequestService Scalar :=
  service.setTicket ticketId { ticket with future := future, settlements := ticket.settlements + 1 }

/-- Give the capacity of a ticket back, once. -/
def release (service : ValueRequestService Scalar) (ticketId : Nat) : ValueRequestService Scalar :=
  match service.tickets[ticketId]? with
  | none => service
  | some ticket =>
    if ticket.released then service
    else
      { service.setTicket ticketId { ticket with released := true, releases := ticket.releases + 1 } with
        pendingRequests := service.pendingRequests - 1
        pendingTokens := service.pendingTokens - ticket.tokens }

/-- The checks of one sequence. Decoded token ids are natural numbers here. -/
def validateSequence (service : ValueRequestService Scalar) (index : Nat) (tokens : List Nat) :
    Except ServiceError Unit :=
  if tokens.isEmpty || decide (service.seqLen < tokens.length) then
    .error (.invalid s!"value sequence {index} length must be in [1, {service.seqLen}]")
  else if tokens.any (fun token => decide (service.vocabSize ≤ token)) then
    .error (.invalid s!"value sequence {index} contains a token outside the model vocabulary")
  else .ok ()

def validate (service : ValueRequestService Scalar) (request : ValueEvaluationRequest) :
    Except ServiceError Unit :=
  if request.tokenIds.isEmpty then
    .error (.invalid "value evaluation request must contain at least one sequence")
  else
    request.tokenIds.zipIdx.forM (fun indexed => service.validateSequence indexed.2 indexed.1)

/-- Admit a request that was built at `admittedAt`. The answer is its ticket. -/
def submit (service : ValueRequestService Scalar) (request : ValueEvaluationRequest)
    (admittedAt : Rat) : ValueRequestService Scalar × Except ServiceError Nat :=
  match service.validate request with
  | .error error => (service, .error error)
  | .ok _ =>
    let tokens := (request.tokenIds.map List.length).sum
    if service.config.maxPendingTokens < tokens then
      (service, .error (.tooLarge
        s!"value request has {tokens} tokens; maximum is {service.config.maxPendingTokens}"))
    else if service.closed || service.error.isSome || service.version.isNone then
      (service, .error (.unavailable "value evaluator is unavailable"))
    else if (service.config.maxPendingRequests : Int) ≤ service.pendingRequests ∨
        (service.config.maxPendingTokens : Int) < service.pendingTokens + tokens then
      ({ service with
          metrics := { service.metrics with rejectedFull := service.metrics.rejectedFull + 1 } },
        .error (.unavailable "value evaluator request queue is full"))
    else
      let ticket : RequestTicket Scalar :=
        { request := request
          tokens := tokens
          admittedAt := admittedAt
          deadline := admittedAt + service.config.requestTimeout }
      ({ service with
          tickets := service.tickets ++ [ticket]
          queue := service.queue ++ [service.tickets.length]
          pendingRequests := service.pendingRequests + 1
          pendingTokens := service.pendingTokens + tokens
          metrics := { service.metrics with admitted := service.metrics.admitted + 1 } },
        .ok service.tickets.length)

/-- Pop an expired head, leaving `rest` queued. -/
def expireTicket (service : ValueRequestService Scalar) (ticketId : Nat) (rest : List Nat) :
    ValueRequestService Scalar :=
  let released := { service with queue := rest }.release ticketId
  let counted :=
    { released with metrics := { released.metrics with expired := released.metrics.expired + 1 } }
  match counted.tickets[ticketId]? with
  | none => counted
  | some ticket =>
    if ticket.future.done then counted
    else
      match ticket.future.setException (.timeout "value evaluation request timed out") with
      | none => counted.fault "InvalidStateError"
      | some future => counted.settle ticketId ticket future

/-- The expiry loop, with the queue as its list. -/
def expireLoop (now : Rat) : List Nat → ValueRequestService Scalar → ValueRequestService Scalar
  | [], service => service
  | ticketId :: rest, service =>
    match service.tickets[ticketId]? with
    | none => service
    | some ticket =>
      if ticket.deadline ≤ now then expireLoop now rest (service.expireTicket ticketId rest)
      else service

def expireHead (service : ValueRequestService Scalar) (now : Rat) : ValueRequestService Scalar :=
  expireLoop now service.queue service

/-- Pop the head `ticketId`, leaving `rest` queued, and start it. -/
def takeHead (service : ValueRequestService Scalar) (ticketId : Nat) (rest : List Nat) :
    ValueRequestService Scalar × TakenHead :=
  let popped := { service with queue := rest }
  match (service.tickets[ticketId]?).bind (fun ticket =>
      ticket.future.setRunningOrNotifyCancel.map (fun started => (ticket, started))) with
  | none => (popped.fault "InvalidStateError", .invalidState)
  | some (ticket, true, future) =>
    (popped.setTicket ticketId { ticket with future := future }, .taken ticketId)
  | some (ticket, false, future) =>
    ((popped.setTicket ticketId { ticket with future := future }).release ticketId, .skipped)

/-- Cancel a queued ticket or abandon a running one. The answer is false once its
capacity was given back. -/
def cancel (service : ValueRequestService Scalar) (ticketId : Nat) :
    ValueRequestService Scalar × Bool :=
  match service.tickets[ticketId]? with
  | none => (service, false)
  | some ticket =>
    if ticket.released then (service, false)
    else if ticket.abandoned then (service, true)
    else
      match ticket.future.cancel with
      | (true, future) =>
        let cancelled := service.settle ticketId ticket future
        if ticketId ∈ cancelled.queue then
          let released := { cancelled with queue := cancelled.queue.erase ticketId }.release ticketId
          ({ released with
              metrics := { released.metrics with expired := released.metrics.expired + 1 } }, true)
        else (cancelled.fault "ValueError", true)
      | (false, _) =>
        ({ service.setTicket ticketId { ticket with abandoned := true } with
            metrics := { service.metrics with abandoned := service.metrics.abandoned + 1 } }, true)

/-- The locked section of one ticket when its batch completed. The answer is
whether it went through. -/
def completeTicket (service : ValueRequestService Scalar) (ticketId : Nat)
    (response : ValueEvaluationResponse Scalar) : ValueRequestService Scalar × Bool :=
  let released := service.release ticketId
  match released.tickets[ticketId]? with
  | none => (released, true)
  | some ticket =>
    if ticket.abandoned then (released, true)
    else
      match ticket.future.setResult response with
      | none => (released.fault "InvalidStateError", false)
      | some future =>
        let settled := released.settle ticketId ticket future
        ({ settled with
            metrics := { settled.metrics with completed := settled.metrics.completed + 1 } }, true)

/-- The locked section of one ticket when its batch failed. -/
def failTicket (service : ValueRequestService Scalar) (ticketId : Nat) (error : ServiceError) :
    ValueRequestService Scalar × Bool :=
  let released := service.release ticketId
  match released.tickets[ticketId]? with
  | none => (released, true)
  | some ticket =>
    if ticket.abandoned then (released, true)
    else
      match ticket.future.setException error with
      | none => (released.fault "InvalidStateError", false)
      | some future =>
        let settled := released.settle ticketId ticket future
        ({ settled with
            metrics := { settled.metrics with failed := settled.metrics.failed + 1 } }, true)

/-- The locked section of `close`: empty the queue and give its capacity back. -/
def closeQueue (service : ValueRequestService Scalar) : ValueRequestService Scalar × List Nat :=
  if service.closed then (service, [])
  else
    (service.queue.foldl release { service with closed := true, queue := [] }, service.queue)

/-- Finish a ticket that `close` found unfinished. -/
def resolveClosed (service : ValueRequestService Scalar) (ticketId : Nat) (error : ServiceError) :
    ValueRequestService Scalar × Bool :=
  match service.tickets[ticketId]? with
  | none => (service, true)
  | some ticket =>
    match ticket.future.setException error with
    | none => (service.fault "InvalidStateError", false)
    | some future => (service.settle ticketId ticket future, true)

end ValueRequestService

end PrimeRl.Value
