import Mathlib.Algebra.BigOperators.Group.List.Basic
import Mathlib.Algebra.Ring.Int.Defs
import Mathlib.Algebra.Ring.Nat
import PrimeRl.Support.LossyFifo
import PrimeRl.Support.Machine
import PrimeRl.Value.Types

/-!
# Value rollout transport

A publisher keeps encoded rollouts in a bounded queue that drops its oldest item
when a new one finds it full. A responder task answers each pull request with a
slice of the queue and puts the slice back when sending fails. A receiver keeps
at most one request outstanding and hands out what it has buffered.
-/

namespace PrimeRl.Value.Transport

universe u
variable {Scalar : Type u}

/-- The codec of rollouts. Encoding may raise, and what was encoded decodes to the
rollout it came from. -/
structure RolloutCodec (Scalar : Type u) where
  encode : ValueTrainingRollout Scalar → Option (List UInt8)
  decode : List UInt8 → Option (ValueTrainingRollout Scalar)
  round_trip : ∀ rollout payload, encode rollout = some payload → decode payload = some rollout

variable {codec : RolloutCodec Scalar}

/-- An encoded rollout, with the rollout it was encoded from. -/
structure EncodedRollout (codec : RolloutCodec Scalar) where
  payload : List UInt8
  numTokens : Nat
  rollout : ValueTrainingRollout Scalar
  encoded : codec.encode rollout = some payload

structure RolloutRequest where
  requestId : Nat
  limit : Int
deriving DecidableEq, Repr

/-- A response with its header frame and one payload frame for each item. -/
structure RolloutResponse (codec : RolloutCodec Scalar) where
  requestId : Nat
  count : Nat
  items : List (EncodedRollout codec)

/-! ## The bounded queue -/

structure DropOldestRolloutQueue (codec : RolloutCodec Scalar) where
  capacity : Nat
  items : List (EncodedRollout codec) := []
  numBytes : Int := 0
  numTokens : Int := 0

namespace DropOldestRolloutQueue

def popleft (queue : DropOldestRolloutQueue codec) :
    Option (EncodedRollout codec × DropOldestRolloutQueue codec) :=
  match queue.items with
  | [] => none
  | item :: rest =>
    some (item,
      { queue with
        items := rest
        numBytes := queue.numBytes - item.payload.length
        numTokens := queue.numTokens - item.numTokens })

/-- Append an item. A full queue drops its oldest item first. -/
def append (queue : DropOldestRolloutQueue codec) (item : EncodedRollout codec) :
    DropOldestRolloutQueue codec × Option (EncodedRollout codec) :=
  let popped := if queue.items.length = queue.capacity then queue.popleft else none
  let room := popped.elim queue Prod.snd
  ({ room with
      items := room.items ++ [item]
      numBytes := room.numBytes + item.payload.length
      numTokens := room.numTokens + item.numTokens },
    popped.map Prod.fst)

def appendleft (queue : DropOldestRolloutQueue codec) (item : EncodedRollout codec) :
    DropOldestRolloutQueue codec :=
  { queue with
    items := item :: queue.items
    numBytes := queue.numBytes + item.payload.length
    numTokens := queue.numTokens + item.numTokens }

/-- The last `keep` items, as the slice from `-keep` on reads them. -/
def lastItems (items : List (EncodedRollout codec)) (keep : Int) : List (EncodedRollout codec) :=
  if 0 < keep then items.drop (items.length - keep.toNat) else items.drop (-keep).toNat

/-- Restore a failed reply, dropping its oldest items if newer arrivals filled the
queue. The answer is how many were dropped. -/
def restoreOldest (queue : DropOldestRolloutQueue codec) (items : List (EncodedRollout codec)) :
    DropOldestRolloutQueue codec × Int :=
  let keep : Int := min items.length ((queue.capacity : Int) - queue.items.length)
  let kept := if keep = 0 then [] else lastItems items keep
  (kept.reverse.foldl appendleft queue, items.length - keep)

/-- Pop `count` items. -/
def popSlice : Nat → DropOldestRolloutQueue codec →
    List (EncodedRollout codec) × DropOldestRolloutQueue codec
  | 0, queue => ([], queue)
  | count + 1, queue =>
    match queue.popleft with
    | none => ([], queue)
    | some (item, rest) => (item :: (popSlice count rest).1, (popSlice count rest).2)

/-- The queue is within its capacity and its totals are sums over its items. -/
structure Sound (queue : DropOldestRolloutQueue codec) : Prop where
  bounded : queue.items.length ≤ queue.capacity
  bytes : queue.numBytes = (queue.items.map (fun item => (item.payload.length : Int))).sum
  tokens : queue.numTokens = (queue.items.map (fun item => (item.numTokens : Int))).sum

variable {queue : DropOldestRolloutQueue codec}

/-- A full queue loses exactly its oldest item to an arrival, and only then. -/
theorem append_sound (sound : Sound queue) (positive : 1 ≤ queue.capacity)
    (item : EncodedRollout codec) :
    Sound (queue.append item).1 ∧ (queue.append item).1.capacity = queue.capacity ∧
      ∃ kept, queue.items = (queue.append item).2.toList ++ kept ∧
        (queue.append item).1.items = kept ++ [item] ∧
        ((queue.append item).2 ≠ none → (queue.append item).1.items.length = queue.capacity) := by
  obtain ⟨bounded, bytes, tokens⟩ := sound
  obtain ⟨capacity, items, numBytes, numTokens⟩ := queue
  simp only at bounded bytes tokens positive
  by_cases full : items.length = capacity
  · cases items with
    | nil =>
      simp only [List.length_nil] at full
      omega
    | cons oldest rest =>
      simp only [List.length_cons] at full bounded
      simp only [List.map_cons, List.sum_cons] at bytes tokens
      have same : append ⟨capacity, oldest :: rest, numBytes, numTokens⟩ item =
          (⟨capacity, rest ++ [item], numBytes - oldest.payload.length + item.payload.length,
            numTokens - oldest.numTokens + item.numTokens⟩, some oldest) := by
        simp only [append, popleft, List.length_cons, full, if_true, Option.elim_some,
          Option.map_some]
      rw [same]
      refine ⟨⟨?_, ?_, ?_⟩, rfl, rest, rfl, rfl, ?_⟩
      · simp only [List.length_append, List.length_singleton]
        omega
      · simp only [List.map_append, List.sum_append, List.map_cons, List.map_nil,
          List.sum_singleton]
        omega
      · simp only [List.map_append, List.sum_append, List.map_cons, List.map_nil,
          List.sum_singleton]
        omega
      · intro _
        simp only [List.length_append, List.length_singleton]
        omega
  · have same : append ⟨capacity, items, numBytes, numTokens⟩ item =
        (⟨capacity, items ++ [item], numBytes + item.payload.length,
          numTokens + item.numTokens⟩, none) := by
      simp only [append, full, if_false, Option.elim_none, Option.map_none]
    rw [same]
    refine ⟨⟨?_, ?_, ?_⟩, rfl, items, rfl, rfl, fun impossible => absurd rfl impossible⟩
    · simp only [List.length_append, List.length_singleton]
      omega
    · simp only [List.map_append, List.sum_append, List.map_cons, List.map_nil, List.sum_singleton]
      omega
    · simp only [List.map_append, List.sum_append, List.map_cons, List.map_nil, List.sum_singleton]
      omega

/-- Putting items back in front, last one first, restores their order. -/
theorem put_back (items : List (EncodedRollout codec)) (queue : DropOldestRolloutQueue codec) :
    items.reverse.foldl appendleft queue =
      { queue with
        items := items ++ queue.items
        numBytes := queue.numBytes + (items.map (fun item => (item.payload.length : Int))).sum
        numTokens := queue.numTokens + (items.map (fun item => (item.numTokens : Int))).sum } := by
  rw [List.foldl_reverse]
  induction items with
  | nil => simp
  | cons item rest inductionHypothesis =>
    rw [List.foldr_cons, inductionHypothesis]
    simp only [appendleft, List.cons_append, List.map_cons, List.sum_cons,
      DropOldestRolloutQueue.mk.injEq, true_and]
    constructor
    · omega
    · omega

/-- With the queue within its capacity, the restored items are the last ones for
which there is room. -/
theorem restore_eq (bounded : queue.items.length ≤ queue.capacity)
    (items : List (EncodedRollout codec)) (keep : Nat)
    (room : keep = min items.length (queue.capacity - queue.items.length)) :
    queue.restoreOldest items =
      ((items.drop (items.length - keep)).reverse.foldl appendleft queue,
        ((items.length - keep : Nat) : Int)) := by
  have sameKeep : (min items.length ((queue.capacity : Int) - queue.items.length) : Int) = keep := by
    omega
  have sameItems : (if (keep : Int) = 0 then [] else lastItems items keep) =
      items.drop (items.length - keep) := by
    by_cases nothing : keep = 0
    · simp only [nothing, Int.natCast_zero, if_true, Nat.sub_zero, List.drop_length]
    · have some : (0 : Int) < keep := by omega
      have notZero : ¬ (keep : Int) = 0 := by omega
      simp only [notZero, if_false, lastItems, some, if_true, Int.toNat_natCast]
  simp only [restoreOldest, sameKeep, sameItems, Prod.mk.injEq, true_and]
  omega

/-- A failed reply goes back in front of what arrived meanwhile, without its
oldest items where newer ones fill the queue. -/
theorem restore_sound (sound : Sound queue) (items : List (EncodedRollout codec)) :
    Sound (queue.restoreOldest items).1 ∧
      (queue.restoreOldest items).1.capacity = queue.capacity ∧
      ∃ gone kept, items = gone ++ kept ∧ (queue.restoreOldest items).1.items = kept ++ queue.items ∧
        (queue.restoreOldest items).2 = gone.length ∧
        (gone ≠ [] → (queue.restoreOldest items).1.items.length = queue.capacity) := by
  obtain ⟨bounded, bytes, tokens⟩ := sound
  obtain ⟨keep, room⟩ : ∃ keep, keep = min items.length (queue.capacity - queue.items.length) :=
    ⟨_, rfl⟩
  rw [restore_eq bounded items keep room, put_back]
  refine ⟨⟨?_, ?_, ?_⟩, rfl, items.take (items.length - keep), items.drop (items.length - keep),
    (List.take_append_drop _ _).symm, rfl, ?_, ?_⟩
  · simp only [List.length_append, List.length_drop]
    omega
  · simp only [List.map_append, List.sum_append]
    omega
  · simp only [List.map_append, List.sum_append]
    omega
  · rw [List.length_take]
    omega
  · intro lost
    have some : items.length - keep ≠ 0 := by
      intro none
      rw [none, List.take_zero] at lost
      exact lost rfl
    simp only [List.length_append, List.length_drop]
    omega

/-- A slice is a prefix of the queue, and the rest stays. -/
theorem slice_sound (count : Nat) (sound : Sound queue) :
    Sound (popSlice count queue).2 ∧ (popSlice count queue).2.capacity = queue.capacity ∧
      queue.items = (popSlice count queue).1 ++ (popSlice count queue).2.items ∧
      (popSlice count queue).1.length ≤ count := by
  induction count generalizing queue with
  | zero => exact ⟨sound, rfl, rfl, Nat.le_refl _⟩
  | succ count inductionHypothesis =>
    obtain ⟨bounded, bytes, tokens⟩ := sound
    obtain ⟨capacity, items, numBytes, numTokens⟩ := queue
    cases items with
    | nil =>
      simp only [popSlice, popleft]
      exact ⟨⟨bounded, bytes, tokens⟩, trivial, rfl, Nat.zero_le _⟩
    | cons item rest =>
      simp only [List.length_cons] at bounded
      simp only [List.map_cons, List.sum_cons] at bytes tokens
      have shorter : Sound (⟨capacity, rest, numBytes - item.payload.length,
          numTokens - item.numTokens⟩ : DropOldestRolloutQueue codec) := by
        refine ⟨?_, ?_, ?_⟩
        · simp only
          omega
        · simp only
          omega
        · simp only
          omega
      obtain ⟨remaining, sameCapacity, split, size⟩ := inductionHypothesis shorter
      simp only [popSlice, popleft]
      refine ⟨remaining, sameCapacity, ?_, ?_⟩
      · rw [List.cons_append, ← split]
      · rw [List.length_cons]
        omega

end DropOldestRolloutQueue

/-! ## Publisher and receiver -/

structure ValueRolloutPublisher (codec : RolloutCodec Scalar) where
  queue : DropOldestRolloutQueue codec
  wake : Bool := false
  enqueued : Nat := 0
  sent : Nat := 0
  droppedOldest : Int := 0

/-- Encode and enqueue one rollout, and wake the responder. -/
def ValueRolloutPublisher.publish (publisher : ValueRolloutPublisher codec)
    (rollout : ValueTrainingRollout Scalar) : Option (ValueRolloutPublisher codec) :=
  match encoded : codec.encode rollout with
  | none => none
  | some payload =>
    let item : EncodedRollout codec :=
      { payload := payload
        numTokens := (rollout.samples.map (fun sample => sample.tokenIds.length)).sum
        rollout := rollout
        encoded := encoded }
    let (queue, dropped) := publisher.queue.append item
    some { publisher with
      queue := queue
      enqueued := publisher.enqueued + 1
      droppedOldest := publisher.droppedOldest + dropped.toList.length
      wake := true }

structure ValueRolloutReceiver (Scalar : Type u) where
  nextRequestId : Nat := 0
  pendingRequest : Option RolloutRequest := none
  bufferedRollouts : List (ValueTrainingRollout Scalar) := []

namespace ValueRolloutReceiver

def takeBuffered (receiver : ValueRolloutReceiver Scalar) (limit : Int) :
    List (ValueTrainingRollout Scalar) × ValueRolloutReceiver Scalar :=
  let count := (min limit receiver.bufferedRollouts.length).toNat
  (receiver.bufferedRollouts.take count,
    { receiver with bufferedRollouts := receiver.bufferedRollouts.drop count })

/-- Check a response against the outstanding request and buffer its rollouts. The
header frame is part of every response here, and only payloads are read. -/
def acceptResponse (receiver : ValueRolloutReceiver Scalar) (response : RolloutResponse codec)
    (limit : Int) :
    Except String (List (ValueTrainingRollout Scalar) × ValueRolloutReceiver Scalar) :=
  match receiver.pendingRequest with
  | none => .error "AssertionError"
  | some request =>
    if response.requestId ≠ request.requestId then
      .error s!"value rollout response id {response.requestId} does not match request {request.requestId}"
    else if response.count ≠ response.items.length then
      .error s!"value rollout response declared {response.count} rollout(s), got {response.items.length}"
    else if request.limit < response.count then
      .error s!"value rollout response exceeded request limit {response.count}>{request.limit}"
    else
      match response.items.mapM (fun item => codec.decode item.payload) with
      | none => .error "DecodeError"
      | some rollouts =>
        .ok (takeBuffered
          { receiver with
            bufferedRollouts := receiver.bufferedRollouts ++ rollouts
            pendingRequest := none } limit)

/-- What a call takes is the front of the buffer, within its limit. -/
theorem take_sound (receiver : ValueRolloutReceiver Scalar) (limit : Int) (positive : 0 ≤ limit) :
    (receiver.takeBuffered limit).1 ++ (receiver.takeBuffered limit).2.bufferedRollouts =
        receiver.bufferedRollouts ∧
      ((receiver.takeBuffered limit).1.length : Int) ≤ limit ∧
      (receiver.takeBuffered limit).2.pendingRequest = receiver.pendingRequest := by
  refine ⟨?_, ?_, rfl⟩
  · simp only [takeBuffered, List.take_append_drop]
  · simp only [takeBuffered, List.length_take]
    omega

/-- Payloads decode to the rollouts they were encoded from. -/
theorem decode_items (items : List (EncodedRollout codec)) :
    items.mapM (fun item => codec.decode item.payload) =
      some (items.map EncodedRollout.rollout) := by
  induction items with
  | nil => rfl
  | cons item rest inductionHypothesis =>
    rw [List.mapM_cons, codec.round_trip _ _ item.encoded, inductionHypothesis]
    rfl

/-- A matching response within the request's limit passes every check. -/
theorem accepts {receiver : ValueRolloutReceiver Scalar} {request : RolloutRequest}
    {response : RolloutResponse codec} (pending : receiver.pendingRequest = some request)
    (same : response.requestId = request.requestId)
    (counted : response.count = response.items.length)
    (within : (response.count : Int) ≤ request.limit) (limit : Int) :
    receiver.acceptResponse response limit =
      .ok (takeBuffered
        { receiver with
          bufferedRollouts :=
            receiver.bufferedRollouts ++ response.items.map EncodedRollout.rollout
          pendingRequest := none } limit) := by
  have inLimit : ¬ request.limit < response.count := by omega
  simp only [acceptResponse, pending, same, counted, ne_eq, not_true, if_false, decode_items]
  rw [counted] at inLimit
  simp only [inLimit, if_false]

end ValueRolloutReceiver

end PrimeRl.Value.Transport
