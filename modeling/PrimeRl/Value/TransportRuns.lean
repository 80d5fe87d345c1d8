import Mathlib.Algebra.Ring.Int.Defs
import Mathlib.Algebra.Ring.Nat
import PrimeRl.Value.Transport

/-!
# Runs of the rollout transport

Publishing may happen whenever the responder task is suspended: at its receive,
while it waits to be woken, while it polls, and while its send is under way. The
socket takes a message over or refuses it, and a message taken over may arrive
before the responder resumes. The receiver's calls are cut at their polls, whose
outcome is free except that a message can only be read when one is there.
-/

namespace PrimeRl.Value.Transport

universe u
variable {Scalar : Type u} {codec : RolloutCodec Scalar}

/-- Where the responder task is suspended. -/
inductive Responder (codec : RolloutCodec Scalar) where
  | receiving
  | awaitingItems (request : RolloutRequest)
  | polling (request : RolloutRequest)
  | sending (request : RolloutRequest) (items : List (EncodedRollout codec))
  | accepted (count : Nat)
  | failed

/-- Items popped for a message that the socket has not taken over. -/
def Responder.inHand : Responder codec → List (EncodedRollout codec)
  | .sending _ items => items
  | _ => []

/-- Where a call of `receive_available` is suspended. -/
inductive ReceiveCall where
  | idle
  | pollingOut (limit : Int)
  | pollingIn (limit : Int)
deriving DecidableEq, Repr

inductive PollOutcome where
  | timedOut
  | again
  | ready
deriving DecidableEq, Repr

structure TransportRun (codec : RolloutCodec Scalar) where
  publisher : ValueRolloutPublisher codec
  responder : Responder codec := .receiving
  requests : List RolloutRequest := []
  responses : List (RolloutResponse codec) := []
  receiver : ValueRolloutReceiver Scalar := {}
  call : ReceiveCall := .idle
  published : List (ValueTrainingRollout Scalar) := []
  returns : List (Int × List (ValueTrainingRollout Scalar)) := []
  errors : List String := []

inductive TransportAction (Scalar : Type u) where
  | publish (rollout : ValueTrainingRollout Scalar)
  | respond
  | takeOver
  | refuse
  | receiveAvailable (limit : Int)
  | poll (outcome : PollOutcome)

namespace TransportRun

/-- Look for items after a request or a wake-up, and wait without any. -/
def seekItems (run : TransportRun codec) (request : RolloutRequest) : TransportRun codec :=
  if run.publisher.queue.items = [] then
    { run with
      publisher := { run.publisher with wake := false }
      responder := .awaitingItems request }
  else { run with responder := .polling request }

/-- The responder runs to its next suspension. -/
def respond (run : TransportRun codec) : Option (TransportRun codec) :=
  match run.responder with
  | .receiving =>
    match run.requests with
    | [] => none
    | request :: rest =>
      let received := { run with requests := rest }
      if request.limit < 1 then
        some { received with
          responder := .failed
          errors := received.errors ++
            [s!"value rollout request limit must be positive, got {request.limit}"] }
      else some (received.seekItems request)
  | .awaitingItems request => if run.publisher.wake then some (run.seekItems request) else none
  | .polling request =>
    let count := (min request.limit run.publisher.queue.items.length).toNat
    let (items, queue) := run.publisher.queue.popSlice count
    some { run with
      publisher := { run.publisher with queue := queue }
      responder := .sending request items }
  | .accepted count =>
    some { run with
      publisher := { run.publisher with sent := run.publisher.sent + count }
      responder := .receiving }
  | _ => none

/-- The socket takes the message over, and it is in flight. -/
def takeOver (run : TransportRun codec) : Option (TransportRun codec) :=
  match run.responder with
  | .sending request items =>
    some { run with
      responder := .accepted items.length
      responses := run.responses ++ [⟨request.requestId, items.length, items⟩] }
  | _ => none

/-- The send raised, so the slice goes back and the responder polls again. -/
def refuse (run : TransportRun codec) : Option (TransportRun codec) :=
  match run.responder with
  | .sending request items =>
    let (queue, dropped) := run.publisher.queue.restoreOldest items
    some { run with
      publisher :=
        { run.publisher with
          queue := queue
          droppedOldest := run.publisher.droppedOldest + dropped }
      responder := .polling request }
  | _ => none

/-- End a call with what it returns. -/
def finish (run : TransportRun codec) (limit : Int)
    (returned : List (ValueTrainingRollout Scalar)) : TransportRun codec :=
  { run with call := .idle, returns := run.returns ++ [(limit, returned)] }

/-- Start a call. A negative limit is rejected and changes nothing. -/
def receiveAvailable (run : TransportRun codec) (limit : Int) : TransportRun codec :=
  if limit < 0 then run
  else if limit = 0 then run.finish limit []
  else if run.receiver.bufferedRollouts ≠ [] then
    let (returned, receiver) := run.receiver.takeBuffered limit
    { run with receiver := receiver }.finish limit returned
  else if run.receiver.pendingRequest = none then { run with call := .pollingOut limit }
  else { run with call := .pollingIn limit }

/-- Send the request of a call that found the socket ready. -/
def sendRequest (run : TransportRun codec) (limit : Int) : TransportRun codec :=
  let request : RolloutRequest := ⟨run.receiver.nextRequestId, limit⟩
  { run with
    requests := run.requests ++ [request]
    receiver :=
      { run.receiver with
        pendingRequest := some request
        nextRequestId := run.receiver.nextRequestId + 1 }
    call := .pollingIn limit }

/-- Continue a call with the outcome of its poll. -/
def poll (run : TransportRun codec) : PollOutcome → Option (TransportRun codec)
  | .ready =>
    match run.call with
    | .pollingOut limit => some (run.sendRequest limit)
    | .pollingIn limit =>
      match run.responses with
      | [] => none
      | response :: rest =>
        match run.receiver.acceptResponse response limit with
        | .error message =>
          some { run with responses := rest, call := .idle, errors := run.errors ++ [message] }
        | .ok (returned, receiver) =>
          some ({ run with responses := rest, receiver := receiver }.finish limit returned)
    | .idle => none
  | _ =>
    match run.call with
    | .pollingOut limit => some (run.finish limit [])
    | .pollingIn limit => some (run.finish limit [])
    | .idle => none

def step (run : TransportRun codec) : TransportAction Scalar → Option (TransportRun codec)
  | .publish rollout =>
    (run.publisher.publish rollout).map (fun publisher =>
      { run with publisher := publisher, published := run.published ++ [rollout] })
  | .respond => run.respond
  | .takeOver => run.takeOver
  | .refuse => run.refuse
  | .receiveAvailable limit =>
    if run.call = .idle then some (run.receiveAvailable limit) else none
  | .poll outcome => run.poll outcome

/-- What the calls returned so far. -/
def delivered (run : TransportRun codec) : List (ValueTrainingRollout Scalar) :=
  run.returns.flatMap Prod.snd

/-- Items of the responses in flight. -/
def inFlight (run : TransportRun codec) : List (EncodedRollout codec) :=
  run.responses.flatMap RolloutResponse.items

/-- All that was not dropped, from the rollout returned first to the one
published last. -/
def pipeline (run : TransportRun codec) : List (ValueTrainingRollout Scalar) :=
  (run.delivered ++ run.receiver.bufferedRollouts) ++ (run.inFlight.map EncodedRollout.rollout ++
    (run.responder.inHand.map EncodedRollout.rollout ++
      run.publisher.queue.items.map EncodedRollout.rollout))

/-- The part of the pipeline in front of the queue. -/
def ahead (run : TransportRun codec) : List (ValueTrainingRollout Scalar) :=
  (run.delivered ++ run.receiver.bufferedRollouts) ++ (run.inFlight.map EncodedRollout.rollout ++
    run.responder.inHand.map EncodedRollout.rollout)

theorem pipeline_eq (run : TransportRun codec) :
    run.pipeline = run.ahead ++ run.publisher.queue.items.map EncodedRollout.rollout := by
  simp only [pipeline, ahead, List.append_assoc]

/-- The responder has nothing to answer. -/
def Resting (responder : Responder codec) : Prop :=
  responder = .receiving ∨ ∃ count, responder = .accepted count

/-- The responder works on a request, with a slice within its limit. -/
def Serving (responder : Responder codec) (request : RolloutRequest) : Prop :=
  responder = .awaitingItems request ∨ responder = .polling request ∨
    ∃ items : List (EncodedRollout codec),
      responder = .sending request items ∧ (items.length : Int) ≤ request.limit

/-- Where the one outstanding request of the connection is. -/
inductive Exchange : List RolloutRequest → List (RolloutResponse codec) → Responder codec →
    Option RolloutRequest → Prop where
  | quiet {responder} (resting : Resting responder) : Exchange [] [] responder none
  | asked {responder request} (resting : Resting responder) (positive : 1 ≤ request.limit) :
      Exchange [request] [] responder (some request)
  | served {responder request} (serving : Serving responder request)
      (positive : 1 ≤ request.limit) : Exchange [] [] responder (some request)
  | answered {responder request response} (resting : Resting responder)
      (same : response.requestId = request.requestId)
      (counted : response.count = response.items.length)
      (within : (response.count : Int) ≤ request.limit) :
      Exchange [] [response] responder (some request)

section Exchange

variable {requests : List RolloutRequest} {responses : List (RolloutResponse codec)}
  {responder : Responder codec} {pending : Option RolloutRequest}

/-- A request that arrives is the one outstanding. -/
theorem Exchange.arrives {request : RolloutRequest} {rest : List RolloutRequest}
    (exchange : Exchange (request :: rest) responses responder pending) :
    rest = [] ∧ responses = [] ∧ pending = some request ∧ 1 ≤ request.limit := by
  cases exchange with
  | asked resting positive => exact ⟨rfl, rfl, rfl, positive⟩

/-- A response that arrives answers the request outstanding. -/
theorem Exchange.returns {response : RolloutResponse codec} {rest : List (RolloutResponse codec)}
    (exchange : Exchange requests (response :: rest) responder pending) :
    requests = [] ∧ rest = [] ∧ Resting responder ∧
      ∃ request, pending = some request ∧ response.requestId = request.requestId ∧
        response.count = response.items.length ∧ (response.count : Int) ≤ request.limit := by
  cases exchange with
  | answered resting same counted within =>
    exact ⟨rfl, rfl, resting, _, rfl, same, counted, within⟩

/-- A busy responder holds the request outstanding. -/
theorem Exchange.busy (exchange : Exchange requests responses responder pending)
    (busy : ¬ Resting responder) :
    requests = [] ∧ responses = [] ∧
      ∃ request, pending = some request ∧ Serving responder request ∧ 1 ≤ request.limit := by
  cases exchange with
  | quiet resting => exact absurd resting busy
  | asked resting positive => exact absurd resting busy
  | served serving positive => exact ⟨rfl, rfl, _, rfl, serving, positive⟩
  | answered resting same counted within => exact absurd resting busy

/-- Without a request outstanding nothing is on its way. -/
theorem Exchange.idle (exchange : Exchange requests responses responder none) :
    requests = [] ∧ responses = [] ∧ Resting responder := by
  cases exchange with
  | quiet resting => exact ⟨rfl, rfl, resting⟩

/-- A resting responder may change how it rests. -/
theorem Exchange.rests {again : Responder codec}
    (exchange : Exchange requests responses responder pending) (before : Resting responder)
    (after : Resting again) : Exchange requests responses again pending := by
  cases exchange with
  | quiet resting => exact .quiet after
  | asked resting positive => exact .asked after positive
  | served serving positive =>
    rcases before with rfl | ⟨count, rfl⟩
    · rcases serving with impossible | impossible | ⟨items, impossible, -⟩ <;> cases impossible
    · rcases serving with impossible | impossible | ⟨items, impossible, -⟩ <;> cases impossible
  | answered resting same counted within => exact .answered after same counted within

end Exchange

/-- What a suspended call relies on. -/
def Suspended (call : ReceiveCall) (pending : Option RolloutRequest) : Prop :=
  match call with
  | .idle => True
  | .pollingOut limit => 1 ≤ limit ∧ pending = none
  | .pollingIn limit => 1 ≤ limit ∧ pending ≠ none

/-- The invariant of the transport. -/
structure Carried (capacity : Nat) (run : TransportRun codec) : Prop where
  sized : run.publisher.queue.capacity = capacity
  sound : run.publisher.queue.Sound
  kept : LossyFifo.Kept run.published run.pipeline run.publisher.droppedOldest
  counted : run.publisher.enqueued = run.published.length
  exchange : Exchange run.requests run.responses run.responder run.receiver.pendingRequest
  suspended : Suspended run.call run.receiver.pendingRequest
  errorless : run.errors = []
  limited : ∀ returned ∈ run.returns, (returned.2.length : Int) ≤ returned.1

/-- What one action dropped: these rollouts left the pipeline, and if there are
any, the queue is full of rollouts published after them. -/
structure Drops (capacity : Nat) (before after : TransportRun codec)
    (gone : List (ValueTrainingRollout Scalar)) : Prop where
  counted : after.publisher.droppedOldest = before.publisher.droppedOldest + gone.length
  moved : (before.pipeline ++ after.published.drop before.published.length).Perm
    (gone ++ after.pipeline)
  crowded : gone ≠ [] → after.publisher.queue.items.length = capacity ∧
    (gone ++ after.publisher.queue.items.map EncodedRollout.rollout).Sublist after.published

variable {capacity : Nat} {run next : TransportRun codec}

/-- An action that neither publishes nor moves anything out of order drops
nothing. -/
theorem drops_nothing (published : next.published = run.published)
    (pipeline : next.pipeline = run.pipeline)
    (dropped : next.publisher.droppedOldest = run.publisher.droppedOldest) :
    Drops capacity run next [] where
  counted := by rw [dropped, List.length_nil, Int.natCast_zero, Int.add_zero]
  moved := by rw [published, pipeline, List.drop_length, List.append_nil, List.nil_append]
  crowded := fun impossible => absurd rfl impossible

/-- What a run keeps, restated for a run with the same pipeline. -/
theorem Carried.same_kept (carried : Carried capacity run)
    (published : next.published = run.published) (pipeline : next.pipeline = run.pipeline)
    (dropped : next.publisher.droppedOldest = run.publisher.droppedOldest) :
    LossyFifo.Kept next.published next.pipeline next.publisher.droppedOldest := by
  rw [published, pipeline, dropped]
  exact carried.kept

/-- A publication goes to the end of the pipeline. A full queue drops its oldest
rollout, and is then full of newer ones. -/
theorem publish_carried {rollout : ValueTrainingRollout Scalar} (positive : 1 ≤ capacity)
    (carried : Carried capacity run) (accepted : run.step (.publish rollout) = some next) :
    Carried capacity next ∧ ∃ gone, Drops capacity run next gone := by
  simp only [step, Option.map_eq_some_iff] at accepted
  obtain ⟨publisher, published, rfl⟩ := accepted
  simp only [ValueRolloutPublisher.publish] at published
  split at published
  · cases published
  · rename_i payload encoded
    obtain rfl := Option.some.inj published
    obtain ⟨item, isItem⟩ : ∃ item : EncodedRollout codec, item =
        { payload := payload
          numTokens := (rollout.samples.map (fun sample => sample.tokenIds.length)).sum
          rollout := rollout
          encoded := encoded } := ⟨_, rfl⟩
    have sameRollout : item.rollout = rollout := by rw [isItem]
    rw [← isItem]
    clear isItem
    obtain ⟨sound, sameCapacity, rest, before, after, full⟩ :=
      run.publisher.queue.append_sound carried.sound (carried.sized.symm ▸ positive) item
    generalize run.publisher.queue.append item = appended at sound sameCapacity before after full ⊢
    obtain ⟨queue, dropped⟩ := appended
    simp only at sound sameCapacity before after full ⊢
    have kept := carried.kept
    rw [pipeline_eq, before, List.map_append, ← List.append_assoc] at kept
    have offered := kept.offer rollout
    have line : run.ahead ++ dropped.toList.map EncodedRollout.rollout ++
        rest.map EncodedRollout.rollout ++ [rollout] =
        run.ahead ++ dropped.toList.map EncodedRollout.rollout ++
          queue.items.map EncodedRollout.rollout := by
      rw [after, List.map_append, List.map_cons, List.map_nil, sameRollout, ← List.append_assoc]
    rw [line] at offered
    have shortened := offered.lose
    rw [List.length_map] at shortened
    constructor
    · refine
        { carried with
          sized := sameCapacity.trans carried.sized
          sound := sound
          kept := ?_
          counted := ?_ }
      · rw [pipeline_eq]
        exact shortened
      · rw [List.length_append, List.length_singleton, carried.counted]
    · refine ⟨dropped.toList.map EncodedRollout.rollout, ?_, ?_, ?_⟩
      · rw [List.length_map]
      · rw [List.drop_left, pipeline_eq, before, List.map_append, ← List.append_assoc, line,
          pipeline_eq, ← List.append_assoc]
        exact List.perm_append_comm.append_right _
      · intro lost
        have some : dropped ≠ none := by
          rintro rfl
          exact lost rfl
        refine ⟨(full some).trans carried.sized, ?_⟩
        refine List.Sublist.trans ?_ offered.ordered
        rw [List.append_assoc]
        exact List.sublist_append_right _ _

/-- Looking for items serves the request, whatever is found. -/
theorem seek_carried {request : RolloutRequest}
    (carried : Carried capacity { run with responder := .awaitingItems request }) :
    Carried capacity (run.seekItems request) := by
  simp only [seekItems]
  split
  · exact { carried with }
  · obtain ⟨requests, responses, held, pending, serving, positive⟩ :=
      carried.exchange.busy (by
        rintro (impossible | ⟨count, impossible⟩)
        · cases impossible
        · cases impossible)
    have same : held = request := by
      rcases serving with served | impossible | ⟨items, impossible, -⟩
      · exact (Responder.awaitingItems.inj served).symm
      · cases impossible
      · cases impossible
    subst same
    refine { carried with exchange := ?_ }
    rw [requests, responses, pending]
    exact .served (.inr (.inl rfl)) positive

/-- Looking for items moves none. -/
theorem seek_drops_nothing {before : TransportRun codec} {request : RolloutRequest}
    (published : run.published = before.published)
    (samePipeline : TransportRun.pipeline { run with responder := .awaitingItems request } =
      before.pipeline)
    (dropped : run.publisher.droppedOldest = before.publisher.droppedOldest) :
    Drops capacity before (run.seekItems request) [] := by
  simp only [seekItems]
  split
  · exact drops_nothing published samePipeline dropped
  · exact drops_nothing published samePipeline dropped

/-- A slice leaves the front of the queue for the responder's hand. -/
theorem slice_carried {request : RolloutRequest} (carried : Carried capacity run)
    (polling : run.responder = .polling request) (accepted : run.respond = some next) :
    Carried capacity next ∧ Drops capacity run next [] := by
  obtain ⟨requests, responses, held, pending, serving, positive⟩ :=
    carried.exchange.busy (by
      rw [polling]
      rintro (impossible | ⟨count, impossible⟩)
      · cases impossible
      · cases impossible)
  obtain rfl : held = request := by
    rw [polling] at serving
    rcases serving with impossible | served | ⟨items, impossible, -⟩
    · cases impossible
    · exact (Responder.polling.inj served).symm
    · cases impossible
  obtain ⟨sound, sameCapacity, split, size⟩ := run.publisher.queue.slice_sound
    (min held.limit run.publisher.queue.items.length).toNat carried.sound
  simp only [respond, polling] at accepted
  generalize run.publisher.queue.popSlice (min held.limit run.publisher.queue.items.length).toNat =
    sliced at sound sameCapacity split size accepted
  obtain ⟨items, queue⟩ := sliced
  simp only [Option.some.injEq] at accepted sound sameCapacity split size
  subst accepted
  have samePipeline : TransportRun.pipeline
      { run with
        publisher := { run.publisher with queue := queue }
        responder := .sending held items } = run.pipeline := by
    simp only [pipeline, delivered, inFlight, polling, Responder.inHand, split, List.map_append,
      List.map_nil, List.nil_append]
  constructor
  · refine
      { carried with
        sized := sameCapacity.trans carried.sized
        sound := sound
        kept := carried.same_kept rfl samePipeline rfl
        exchange := ?_ }
    rw [requests, responses, pending]
    refine .served (.inr (.inr ⟨items, rfl, ?_⟩)) positive
    omega
  · exact drops_nothing rfl samePipeline rfl

/-- Whatever the responder does, it drops nothing. -/
theorem respond_carried (carried : Carried capacity run) (accepted : run.respond = some next) :
    Carried capacity next ∧ Drops capacity run next [] := by
  cases responder : run.responder with
  | receiving =>
    have exchange := carried.exchange
    cases requests : run.requests with
    | nil =>
      simp only [respond, responder, requests] at accepted
      cases accepted
    | cons request rest =>
      rw [requests] at exchange
      obtain ⟨rfl, responses, pending, positive⟩ := exchange.arrives
      have served : ¬ request.limit < 1 := by omega
      simp only [respond, responder, requests, served, if_false, Option.some.injEq] at accepted
      subst accepted
      have samePipeline : TransportRun.pipeline
          { run with requests := [], responder := .awaitingItems request } = run.pipeline := by
        simp only [pipeline, delivered, inFlight, responder, Responder.inHand]
      constructor
      · refine seek_carried
          { carried with kept := carried.same_kept rfl samePipeline rfl, exchange := ?_ }
        rw [responses, pending]
        exact .served (.inl rfl) positive
      · exact seek_drops_nothing rfl samePipeline rfl
  | awaitingItems request =>
    simp only [respond, responder] at accepted
    obtain ⟨-, ⟨rfl⟩⟩ := Option.ite_none_right_eq_some.mp accepted
    have same : { run with responder := .awaitingItems request } = run := by rw [← responder]
    constructor
    · refine seek_carried ?_
      rw [same]
      exact carried
    · refine seek_drops_nothing rfl ?_ rfl
      rw [same]
  | polling request => exact slice_carried carried responder accepted
  | accepted count =>
    simp only [respond, responder, Option.some.injEq] at accepted
    subst accepted
    have samePipeline : TransportRun.pipeline
        { run with
          publisher := { run.publisher with sent := run.publisher.sent + count }
          responder := .receiving } = run.pipeline := by
      simp only [pipeline, delivered, inFlight, responder, Responder.inHand]
    constructor
    · exact
        { carried with
          kept := carried.same_kept rfl samePipeline rfl
          exchange := carried.exchange.rests (.inr ⟨count, responder⟩) (.inl rfl) }
    · exact drops_nothing rfl samePipeline rfl
  | sending request items =>
    simp only [respond, responder] at accepted
    cases accepted
  | failed =>
    simp only [respond, responder] at accepted
    cases accepted

/-- A slice in hand answers the request outstanding. -/
theorem Carried.sending {request : RolloutRequest} {items : List (EncodedRollout codec)}
    (carried : Carried capacity run) (sending : run.responder = .sending request items) :
    run.requests = [] ∧ run.responses = [] ∧ run.receiver.pendingRequest = some request ∧
      (items.length : Int) ≤ request.limit ∧ 1 ≤ request.limit := by
  obtain ⟨requests, responses, held, pending, serving, positive⟩ :=
    carried.exchange.busy (by
      rw [sending]
      rintro (impossible | ⟨count, impossible⟩)
      · cases impossible
      · cases impossible)
  rw [sending] at serving
  rcases serving with impossible | impossible | ⟨slice, same, within⟩
  · cases impossible
  · cases impossible
  · obtain ⟨rfl, rfl⟩ := Responder.sending.inj same
    exact ⟨requests, responses, pending, within, positive⟩

/-- A message taken over carries the slice in hand. -/
theorem takeOver_carried (carried : Carried capacity run)
    (accepted : run.takeOver = some next) :
    Carried capacity next ∧ Drops capacity run next [] := by
  simp only [takeOver] at accepted
  split at accepted
  · rename_i request items responder
    obtain ⟨requests, responses, pending, within, positive⟩ := carried.sending responder
    obtain rfl := Option.some.inj accepted
    have samePipeline : TransportRun.pipeline
        { run with
          responder := .accepted items.length
          responses := run.responses ++ [⟨request.requestId, items.length, items⟩] } =
        run.pipeline := by
      simp only [pipeline, delivered, inFlight, responder, Responder.inHand, List.flatMap_append,
        List.flatMap_cons, List.flatMap_nil, List.append_nil, List.map_append, List.map_nil,
        List.nil_append, List.append_assoc]
    constructor
    · refine { carried with kept := carried.same_kept rfl samePipeline rfl, exchange := ?_ }
      rw [requests, responses, pending]
      exact .answered (.inr ⟨_, rfl⟩) rfl rfl within
    · exact drops_nothing rfl samePipeline rfl
  · cases accepted

/-- A refused slice goes back in front of what was published meanwhile, and what
has no room is older than all of that. -/
theorem refuse_carried (carried : Carried capacity run) (accepted : run.refuse = some next) :
    Carried capacity next ∧ ∃ gone, Drops capacity run next gone := by
  simp only [refuse] at accepted
  split at accepted
  · rename_i request items responder
    obtain ⟨requests, responses, pending, within, positive⟩ := carried.sending responder
    have restores := run.publisher.queue.restore_sound carried.sound items
    generalize run.publisher.queue.restoreOldest items = restoring at accepted restores
    obtain ⟨queue, count⟩ := restoring
    obtain ⟨sound, sameCapacity, lost, back, split, restored, dropped, full⟩ := restores
    simp only at sound sameCapacity restored dropped full
    obtain rfl := Option.some.inj accepted
    obtain ⟨front, isFront⟩ : ∃ front, front =
        (run.delivered ++ run.receiver.bufferedRollouts) ++
          run.inFlight.map EncodedRollout.rollout := ⟨_, rfl⟩
    have before : run.pipeline = front ++ lost.map EncodedRollout.rollout ++
        queue.items.map EncodedRollout.rollout := by
      rw [isFront]
      simp only [pipeline, responder, Responder.inHand, split, restored, List.map_append,
        List.append_assoc]
    have after : TransportRun.pipeline
        { run with
          publisher :=
            { run.publisher with
              queue := queue
              droppedOldest := run.publisher.droppedOldest + count }
          responder := .polling request } =
        front ++ queue.items.map EncodedRollout.rollout := by
      rw [isFront]
      simp only [pipeline, delivered, inFlight, Responder.inHand, List.map_nil, List.nil_append,
        List.append_assoc]
    have kept := carried.kept
    rw [before] at kept
    constructor
    · refine
        { carried with
          sized := sameCapacity.trans carried.sized
          sound := sound
          kept := ?_
          exchange := ?_ }
      · have shortened := kept.lose
        rw [List.length_map, ← dropped] at shortened
        rw [after]
        exact shortened
      · rw [requests, responses, pending]
        exact .served (.inr (.inl rfl)) positive
    · refine ⟨lost.map EncodedRollout.rollout, ?_, ?_, ?_⟩
      · rw [List.length_map, ← dropped]
      · rw [List.drop_length, List.append_nil, before, after, ← List.append_assoc]
        exact List.perm_append_comm.append_right _
      · intro some
        refine ⟨?_, ?_⟩
        · refine (full ?_).trans carried.sized
          rintro rfl
          exact some rfl
        · refine List.Sublist.trans ?_ kept.ordered
          rw [List.append_assoc]
          exact List.sublist_append_right _ _
  · cases accepted

/-- Rollouts that a call returns were next in the pipeline. -/
theorem finish_pipeline (limit : Int) {returned : List (ValueTrainingRollout Scalar)}
    {receiver : ValueRolloutReceiver Scalar}
    (taken : returned ++ receiver.bufferedRollouts = run.receiver.bufferedRollouts) :
    ({ run with receiver := receiver }.finish limit returned).pipeline = run.pipeline := by
  simp only [pipeline, delivered, inFlight, finish, List.flatMap_append, List.flatMap_cons,
    List.flatMap_nil, List.append_nil, List.append_assoc, ← taken]

/-- Rollouts that a call returns leave the front of the buffer. -/
theorem finish_carried {limit : Int} {returned : List (ValueTrainingRollout Scalar)}
    (receiver : ValueRolloutReceiver Scalar) (carried : Carried capacity run)
    (taken : returned ++ receiver.bufferedRollouts = run.receiver.bufferedRollouts)
    (within : (returned.length : Int) ≤ limit)
    (pending : receiver.pendingRequest = run.receiver.pendingRequest) :
    Carried capacity ({ run with receiver := receiver }.finish limit returned) ∧
      Drops capacity run ({ run with receiver := receiver }.finish limit returned) [] := by
  have samePipeline := finish_pipeline limit taken
  constructor
  · refine
      { carried with
        kept := carried.same_kept rfl samePipeline rfl
        exchange := ?_
        suspended := trivial
        limited := ?_ }
    · simp only [finish, pending]
      exact carried.exchange
    · rintro call called
      rcases List.mem_append.mp called with earlier | latest
      · exact carried.limited call earlier
      · obtain rfl := List.mem_singleton.mp latest
        exact within
  · exact drops_nothing rfl samePipeline rfl

/-- A suspension moves nothing. -/
theorem suspend_carried {call : ReceiveCall} (carried : Carried capacity run)
    (suspended : Suspended call run.receiver.pendingRequest) :
    Carried capacity { run with call := call } ∧ Drops capacity run { run with call := call } [] :=
  ⟨{ carried with kept := carried.same_kept rfl rfl rfl, suspended := suspended },
    drops_nothing rfl rfl rfl⟩

/-- A call starts by handing out what is buffered, or it waits for its socket. -/
theorem receive_carried {limit : Int} (carried : Carried capacity run) :
    Carried capacity (run.receiveAvailable limit) ∧
      Drops capacity run (run.receiveAvailable limit) [] := by
  by_cases negative : limit < 0
  · simp only [receiveAvailable, negative, if_true]
    exact ⟨carried, drops_nothing rfl rfl rfl⟩
  by_cases zero : limit = 0
  · subst zero
    exact finish_carried run.receiver carried rfl (Int.le_refl 0) rfl
  have positive : 1 ≤ limit := by omega
  by_cases buffered : run.receiver.bufferedRollouts = []
  · by_cases pending : run.receiver.pendingRequest = none
    · simp only [receiveAvailable, negative, zero, buffered, pending, ne_eq, not_true, if_true,
        if_false]
      exact suspend_carried carried ⟨positive, pending⟩
    · simp only [receiveAvailable, negative, zero, buffered, pending, ne_eq, not_true, if_false]
      exact suspend_carried carried ⟨positive, pending⟩
  · obtain ⟨taken, within, pending⟩ := run.receiver.take_sound limit (by omega)
    simp only [receiveAvailable, negative, zero, buffered, ne_eq, not_false_iff, if_true, if_false]
    exact finish_carried _ carried taken within pending

/-- A call whose socket is ready leaves one request outstanding. -/
theorem send_carried {limit : Int} (carried : Carried capacity run)
    (calling : run.call = .pollingOut limit) :
    Carried capacity (run.sendRequest limit) ∧ Drops capacity run (run.sendRequest limit) [] := by
  have suspended := carried.suspended
  rw [calling] at suspended
  obtain ⟨positive, pending⟩ := suspended
  have exchange := carried.exchange
  rw [pending] at exchange
  obtain ⟨requests, responses, resting⟩ := exchange.idle
  constructor
  · refine
      { carried with
        kept := carried.same_kept rfl rfl rfl
        exchange := ?_
        suspended := ⟨positive, Option.some_ne_none _⟩ }
    simp only [sendRequest, requests, responses, List.nil_append]
    exact .asked resting positive
  · exact drops_nothing rfl rfl rfl

/-- A response moves to the buffer, and the call takes its share. -/
theorem accept_carried {limit : Int} {response : RolloutResponse codec}
    {rest : List (RolloutResponse codec)} (carried : Carried capacity run)
    (calling : run.call = .pollingIn limit) (responses : run.responses = response :: rest) :
    ∃ returned receiver, run.receiver.acceptResponse response limit = .ok (returned, receiver) ∧
      Carried capacity ({ run with responses := rest, receiver := receiver }.finish limit returned) ∧
      Drops capacity run
        ({ run with responses := rest, receiver := receiver }.finish limit returned) [] := by
  have suspended := carried.suspended
  rw [calling] at suspended
  obtain ⟨positive, -⟩ := suspended
  have exchange := carried.exchange
  rw [responses] at exchange
  obtain ⟨requests, rfl, resting, request, pending, same, counted, within⟩ := exchange.returns
  obtain ⟨buffering, isBuffering⟩ : ∃ receiver : ValueRolloutReceiver Scalar, receiver =
      { run.receiver with
        bufferedRollouts :=
          run.receiver.bufferedRollouts ++ response.items.map EncodedRollout.rollout
        pendingRequest := none } := ⟨_, rfl⟩
  obtain ⟨taken, limited, unasked⟩ := buffering.take_sound limit (by omega)
  have samePipeline : TransportRun.pipeline
      { run with responses := [], receiver := buffering, call := .idle } = run.pipeline := by
    simp only [pipeline, delivered, inFlight, responses, isBuffering, List.flatMap_cons,
      List.flatMap_nil, List.map_nil, List.append_nil, List.nil_append, List.append_assoc]
  have arrived : Carried capacity
      { run with responses := [], receiver := buffering, call := .idle } := by
    refine
      { carried with
        kept := carried.same_kept rfl samePipeline rfl
        exchange := ?_
        suspended := trivial }
    simp only [requests, isBuffering]
    exact .quiet resting
  refine ⟨_, _, ValueRolloutReceiver.accepts pending same counted within limit, ?_⟩
  rw [← isBuffering]
  constructor
  · exact (finish_carried _ arrived taken limited unasked).1
  · exact drops_nothing rfl ((finish_pipeline limit taken).trans samePipeline) rfl

/-- A poll that came to nothing ends its call with nothing. -/
theorem give_up_carried {limit : Int} (carried : Carried capacity run)
    (positive : 1 ≤ limit) :
    Carried capacity (run.finish limit []) ∧ Drops capacity run (run.finish limit []) [] := by
  refine finish_carried run.receiver carried rfl ?_ rfl
  rw [List.length_nil]
  omega

/-- However a poll ends, it drops nothing. -/
theorem poll_carried {outcome : PollOutcome} (carried : Carried capacity run)
    (accepted : run.poll outcome = some next) :
    Carried capacity next ∧ Drops capacity run next [] := by
  have suspended := carried.suspended
  cases calling : run.call with
  | idle => cases outcome <;> simp only [poll, calling] at accepted <;> cases accepted
  | pollingOut limit =>
    rw [calling] at suspended
    cases outcome with
    | timedOut =>
      simp only [poll, calling, Option.some.injEq] at accepted
      exact accepted ▸ give_up_carried carried suspended.1
    | again =>
      simp only [poll, calling, Option.some.injEq] at accepted
      exact accepted ▸ give_up_carried carried suspended.1
    | ready =>
      simp only [poll, calling, Option.some.injEq] at accepted
      exact accepted ▸ send_carried carried calling
  | pollingIn limit =>
    rw [calling] at suspended
    cases outcome with
    | timedOut =>
      simp only [poll, calling, Option.some.injEq] at accepted
      exact accepted ▸ give_up_carried carried suspended.1
    | again =>
      simp only [poll, calling, Option.some.injEq] at accepted
      exact accepted ▸ give_up_carried carried suspended.1
    | ready =>
      cases responses : run.responses with
      | nil =>
        simp only [poll, calling, responses] at accepted
        cases accepted
      | cons response rest =>
        obtain ⟨returned, receiver, taken, after, nothing⟩ :=
          accept_carried carried calling responses
        simp only [poll, calling, responses, taken, Option.some.injEq] at accepted
        exact accepted ▸ ⟨after, nothing⟩

/-- Every action keeps the invariant, and says what it dropped. -/
theorem step_carried {action : TransportAction Scalar} (positive : 1 ≤ capacity)
    (carried : Carried capacity run) (accepted : run.step action = some next) :
    Carried capacity next ∧ ∃ gone, Drops capacity run next gone := by
  cases action with
  | publish rollout => exact publish_carried positive carried accepted
  | respond => exact (respond_carried carried accepted).imp_right (fun nothing => ⟨_, nothing⟩)
  | takeOver => exact (takeOver_carried carried accepted).imp_right (fun nothing => ⟨_, nothing⟩)
  | refuse => exact refuse_carried carried accepted
  | receiveAvailable limit =>
    simp only [step] at accepted
    obtain ⟨-, ⟨rfl⟩⟩ := Option.ite_none_right_eq_some.mp accepted
    exact (receive_carried carried).imp_right (fun nothing => ⟨_, nothing⟩)
  | poll outcome => exact (poll_carried carried accepted).imp_right (fun nothing => ⟨_, nothing⟩)

/-- The start of a connection with its configured capacity. -/
def start (codec : RolloutCodec Scalar) (maxPendingRollouts : Nat) : TransportRun codec :=
  { publisher := { queue := { capacity := maxPendingRollouts } } }

theorem start_carried (codec : RolloutCodec Scalar) (maxPendingRollouts : Nat) :
    Carried maxPendingRollouts (start codec maxPendingRollouts) where
  sized := rfl
  sound := ⟨Nat.zero_le _, rfl, rfl⟩
  kept := LossyFifo.kept_nil
  counted := rfl
  exchange := .quiet (.inl rfl)
  suspended := trivial
  errorless := rfl
  limited := fun _ none => nomatch none

/-- Every run of the transport keeps the invariant. -/
theorem run_carried {maxPendingRollouts : Nat} {actions : List (TransportAction Scalar)}
    (positive : 1 ≤ maxPendingRollouts)
    (ran : Machine.run step (start codec maxPendingRollouts) actions = some run) :
    Carried maxPendingRollouts run :=
  Machine.run_invariant (Carried maxPendingRollouts)
    (fun _ _ _ carried accepted => (step_carried positive carried accepted).1)
    (start_carried codec maxPendingRollouts) ran

/-- The transport is first in first out, delivers at most once and accounts for
its losses. A rollout is dropped only where newer ones fill the queue, and no
call returns more than it asked for. -/
theorem transport_fifo {maxPendingRollouts : Nat} {actions : List (TransportAction Scalar)}
    (positive : 1 ≤ maxPendingRollouts)
    (ran : Machine.run step (start codec maxPendingRollouts) actions = some run) :
    (run.delivered ++ run.receiver.bufferedRollouts ++
        (run.inFlight ++ run.responder.inHand ++ run.publisher.queue.items).map
          EncodedRollout.rollout).Sublist run.published ∧
      (run.published.Nodup →
        (run.delivered ++ run.receiver.bufferedRollouts ++
          (run.inFlight ++ run.responder.inHand ++ run.publisher.queue.items).map
            EncodedRollout.rollout).Nodup) ∧
      (run.publisher.enqueued : Int) =
        run.delivered.length + run.receiver.bufferedRollouts.length + run.inFlight.length +
          run.responder.inHand.length + run.publisher.queue.items.length +
          run.publisher.droppedOldest ∧
      run.publisher.queue.items.length ≤ maxPendingRollouts ∧
      run.publisher.queue.numBytes =
        (run.publisher.queue.items.map (fun item => (item.payload.length : Int))).sum ∧
      run.publisher.queue.numTokens =
        (run.publisher.queue.items.map (fun item => (item.numTokens : Int))).sum ∧
      (∀ action next, run.step action = some next → ∃ gone, Drops maxPendingRollouts run next gone) ∧
      run.errors = [] ∧
      ∀ returned ∈ run.returns, (returned.2.length : Int) ≤ returned.1 := by
  have carried := run_carried positive ran
  have line : run.delivered ++ run.receiver.bufferedRollouts ++
      (run.inFlight ++ run.responder.inHand ++ run.publisher.queue.items).map
        EncodedRollout.rollout = run.pipeline := by
    simp only [pipeline, List.map_append, List.append_assoc]
  rw [line]
  refine ⟨carried.kept.ordered, carried.kept.nodup, ?_, ?_, carried.sound.bytes,
    carried.sound.tokens, ?_, carried.errorless, carried.limited⟩
  · have counted := carried.kept.counted
    simp only [pipeline, List.length_append, List.length_map] at counted
    have enqueued := carried.counted
    omega
  · have bounded := carried.sound.bounded
    rw [carried.sized] at bounded
    exact bounded
  · rintro action next accepted
    exact (step_carried positive carried accepted).2

/-- Rollouts without samples whose numbers fit one byte, as the encoder writes
them. -/
def smallCodec : RolloutCodec Rat where
  encode rollout :=
    if rollout.samples = [] ∧ (0 ≤ rollout.rolloutId ∧ rollout.rolloutId < 128) ∧
        (0 ≤ rollout.policyVersion ∧ rollout.policyVersion < 128) ∧
        0 ≤ rollout.valueVersion ∧ rollout.valueVersion < 128 then
      some [0x94, 0x90, UInt8.ofNat rollout.rolloutId.toNat,
        UInt8.ofNat rollout.policyVersion.toNat, UInt8.ofNat rollout.valueVersion.toNat]
    else none
  decode
    | [0x94, 0x90, rolloutId, policyVersion, valueVersion] =>
      some ⟨[], rolloutId.toNat, policyVersion.toNat, valueVersion.toNat⟩
    | _ => none
  round_trip := by
    rintro ⟨samples, rolloutId, policyVersion, valueVersion⟩ payload encoded
    obtain ⟨⟨noSamples, fits⟩, written⟩ := Option.ite_none_right_eq_some.mp encoded
    obtain rfl := Option.some.inj written
    simp only at noSamples fits ⊢
    subst noSamples
    simp only [UInt8.toNat_ofNat', Option.some.injEq, ValueTrainingRollout.mk.injEq, true_and]
    omega

/-- Two rollouts are in hand when a third arrives. The send fails, the oldest one
has no room, and the call returns the other two in order. -/
theorem transport_fifo_refused_slice :
    let rollout (rolloutId : Int) : ValueTrainingRollout Rat := ⟨[], rolloutId, 0, 0⟩
    ∃ run : TransportRun smallCodec,
      Machine.run step (start smallCodec 2)
          [.receiveAvailable 2, .poll .ready, .respond, .publish (rollout 1), .publish (rollout 2),
            .respond, .respond, .publish (rollout 3), .refuse, .respond, .takeOver, .poll .ready] =
        some run ∧
      run.delivered = [rollout 2, rollout 3] ∧ run.publisher.droppedOldest = 1 ∧
      (run.publisher.enqueued : Int) =
        run.delivered.length + run.receiver.bufferedRollouts.length + run.inFlight.length +
          run.responder.inHand.length + run.publisher.queue.items.length +
          run.publisher.droppedOldest := by
  intro rollout
  obtain ⟨run, ran, shown⟩ := Option.map_eq_some_iff.mp
    (show (Machine.run step (start smallCodec 2)
          [.receiveAvailable 2, .poll .ready, .respond, .publish (rollout 1), .publish (rollout 2),
            .respond, .respond, .publish (rollout 3), .refuse, .respond, .takeOver,
            .poll .ready]).map (fun run => (run.delivered, run.publisher.droppedOldest)) =
        some ([rollout 2, rollout 3], 1) by decide +kernel)
  obtain ⟨delivered, dropped⟩ := Prod.mk.inj shown
  exact ⟨run, ran, delivered, dropped, (transport_fifo (by decide) ran).2.2.1⟩

end TransportRun

end PrimeRl.Value.Transport
