import PrimeRl.Transport.ReceiverRuns
import PrimeRl.Transport.SocketReceiver

/-!
# Runs over a socket

Every producer has a queue of its own to the socket, which keeps its order, and a
call drains everything that has arrived. What a producer has sent is what has been
returned of it, what waits under its run identifier and what is still on its way,
in this order.
-/

namespace PrimeRl.Transport.Receivers

open PrimeRl.Trainer PrimeRl.Trainer.Runs PrimeRl.Trainer.Packer

variable {Scalar : Type}

structure ZmqLink (Scalar : Type) where
  transit : Nat → List (String × Sent Scalar)
  socket : List (String × Sent Scalar)
  pending : Pending Scalar

def ZmqLink.init : ZmqLink Scalar where
  transit := fun _ => []
  socket := []
  pending := .empty

def ZmqLink.send (link : ZmqLink Scalar) (runId : String) (batch : Sent Scalar) : ZmqLink Scalar :=
  { link with
    transit := Function.update link.transit batch.sender
      (link.transit batch.sender ++ [(runId, batch)]) }

/-- The first message on its way from a producer reaches the socket. -/
def ZmqLink.arrive (link : ZmqLink Scalar) (incarnation : Nat) : ZmqLink Scalar :=
  match link.transit incarnation with
  | [] => link
  | message :: rest =>
      { link with
        transit := Function.update link.transit incarnation rest
        socket := link.socket ++ [message] }

def ZmqLink.receive (manager : MultiRunManager) (link : ZmqLink Scalar) :
    Except String (List (Sent Scalar) × ZmqLink Scalar) :=
  match zmqReceive manager link.pending link.socket with
  | .error message => .error message
  | .ok (batches, pending) => .ok (batches, { link with socket := [], pending := pending })

/-- Resetting a run is left to the base class, which does nothing. -/
def zmqChannel : Channel Scalar (ZmqLink Scalar) where
  launch := fun link _ => link
  send := ZmqLink.send
  arrive := ZmqLink.arrive
  resetRun := fun link _ => link
  receive := ZmqLink.receive

/-- The batches that wait under a run identifier, buffered or arrived. -/
def ZmqLink.held (link : ZmqLink Scalar) (runId : String) : List (Sent Scalar) :=
  buffered link.pending runId ++ Gather.itemsOf link.socket runId

/-- At a call the batches waiting under one run identifier come from one producer,
and from the current one when a run index holds the identifier. -/
def Unmixed (world : World Scalar (ZmqLink Scalar)) (event : Event Scalar) : Prop :=
  match event with
  | .receive => ∀ runId,
      (∀ batch ∈ world.link.held runId, ∀ other ∈ world.link.held runId,
        batch.sender = other.sender) ∧
      ∀ idx, world.manager.idx2Id.lookup idx = some runId →
        ∀ batch ∈ world.link.held runId, world.current runId = some batch.sender
  | _ => True

theorem held_of_absent {link : ZmqLink Scalar} {runId : String}
    (absent : runId ∉ link.pending.keys ++ link.socket.map Prod.fst) : link.held runId = [] := by
  rw [List.mem_append, not_or] at absent
  have unbuffered : buffered link.pending runId = [] := by
    rw [buffered]
    cases found : link.pending.get? runId with
    | none => rfl
    | some bucket =>
      have listed := (OrderedDict.get?_eq_some_iff link.pending runId bucket).mp found
      exact absurd (List.mem_map_of_mem listed) absent.1
  have noneArrived : Gather.itemsOf link.socket runId = [] := by
    apply List.eq_nil_iff_forall_not_mem.mpr
    intro batch listed
    exact absent.2 (List.mem_map_of_mem ((Gather.mem_items link.socket runId batch).mp listed))
  rw [ZmqLink.held, unbuffered, noneArrived]
  rfl

/-- Only identifiers with a batch have to be looked at. -/
instance Unmixed.decidable (world : World Scalar (ZmqLink Scalar)) (event : Event Scalar) :
    Decidable (Unmixed world event) :=
  match event with
  | .receive =>
      decidable_of_iff
        (∀ runId ∈ world.link.pending.keys ++ world.link.socket.map Prod.fst,
          (∀ batch ∈ world.link.held runId, ∀ other ∈ world.link.held runId,
            batch.sender = other.sender) ∧
          ∀ idx ∈ usedIdxs world.manager, world.manager.idx2Id.lookup idx = some runId →
            ∀ batch ∈ world.link.held runId, world.current runId = some batch.sender)
        (by
          constructor
          · intro listed runId
            by_cases present : runId ∈ world.link.pending.keys ++ world.link.socket.map Prod.fst
            · refine ⟨(listed runId present).1, fun idx named => (listed runId present).2 idx ?_ named⟩
              exact (Iteration.ascending.lists _ idx).mpr
                (Finmap.mem_keys.mpr (Finmap.mem_of_lookup_eq_some named))
            · rw [held_of_absent present]
              exact ⟨fun _ impossible => absurd impossible List.not_mem_nil,
                fun _ _ _ impossible => absurd impossible List.not_mem_nil⟩
          · intro unmixed runId _
            exact ⟨(unmixed runId).1, fun idx _ => (unmixed runId).2 idx⟩)
  | .launch .. | .create .. | .forget .. | .send .. | .arrive .. | .setReady .. | .advance .. =>
      isTrue trivial

/-- The steps of one producer's batches. -/
def stepsOf (incarnation : Nat) (batches : List (Sent Scalar)) : List Int :=
  (batches.filter (fun batch => decide (batch.sender = incarnation))).map (fun batch => batch.step)

@[simp] theorem stepsOf_append (incarnation : Nat) (batches others : List (Sent Scalar)) :
    stepsOf incarnation (batches ++ others) =
      stepsOf incarnation batches ++ stepsOf incarnation others := by
  rw [stepsOf, List.filter_append, List.map_append]
  rfl

theorem steps_of_own {incarnation : Nat} {batches : List (Sent Scalar)}
    (own : ∀ batch ∈ batches, batch.sender = incarnation) :
    stepsOf incarnation batches = batches.map (fun batch => batch.step) := by
  rw [stepsOf, List.filter_eq_self.mpr]
  intro batch listed
  exact decide_eq_true (own batch listed)

theorem steps_of_others {incarnation : Nat} {batches : List (Sent Scalar)}
    (others : ∀ batch ∈ batches, batch.sender ≠ incarnation) : stepsOf incarnation batches = [] := by
  rw [stepsOf, List.filter_eq_nil_iff.mpr]
  · rfl
  · intro batch listed
    simpa using others batch listed

theorem mem_steps {incarnation : Nat} {batches : List (Sent Scalar)} {batch : Sent Scalar}
    (listed : batch ∈ batches) (isSender : batch.sender = incarnation) :
    batch.step ∈ stepsOf incarnation batches :=
  List.mem_map_of_mem (List.mem_filter.mpr ⟨listed, decide_eq_true isSender⟩)

/-- What is held is addressed to its run, and every producer's batches are
returned, held or on their way in the order it sent them. -/
structure Carried (world : World Scalar (ZmqLink Scalar)) : Prop where
  housed : Housed world
  keyed : Keyed world.link.pending
  addressed : ∀ runId, ∀ batch ∈ world.link.held runId,
    SentUnder world.incarnations runId batch
  posted : ∀ incarnation, ∀ message ∈ world.link.transit incarnation,
    message.2.sender = incarnation ∧ SentUnder world.incarnations message.1 message.2
  known : ∀ batch ∈ world.returned, batch.sender < world.incarnations.length
  line : ∀ incarnation producer, world.incarnations[incarnation]? = some producer →
    stepsOf incarnation world.returned ++ stepsOf incarnation (world.link.held producer.runId) ++
      (world.link.transit incarnation).map (fun message => message.2.step) =
    producer.sent.map (fun batch => batch.step)

theorem carried_init (bf16 : Rat → Rat) (rank maxRuns : Nat) :
    Carried (World.init bf16 rank maxRuns ZmqLink.init : World Scalar (ZmqLink Scalar)) where
  housed := housed_init bf16 rank maxRuns _
  keyed := fun _ _ impossible => absurd impossible.symm (Option.some_ne_none _)
  addressed := fun _ _ impossible => absurd impossible List.not_mem_nil
  posted := fun _ _ impossible => absurd impossible List.not_mem_nil
  known := fun _ impossible => absurd impossible List.not_mem_nil
  line := fun _ _ impossible => absurd impossible.symm (Option.some_ne_none _)

/-- A step that touches neither producers nor batches. -/
theorem Carried.of_same {world next : World Scalar (ZmqLink Scalar)} (carried : Carried world)
    (housed : Housed next) (incarnations : next.incarnations = world.incarnations)
    (link : next.link = world.link) (returned : next.returned = world.returned) : Carried next where
  housed := housed
  keyed := link ▸ carried.keyed
  addressed := by
    rw [link, incarnations]
    exact carried.addressed
  posted := by
    rw [link, incarnations]
    exact carried.posted
  known := by
    rw [incarnations, returned]
    exact carried.known
  line := by
    rw [link, incarnations, returned]
    exact carried.line

/-! ## Producers -/

section Steps
variable {world next : World Scalar (ZmqLink Scalar)}

/-- A new producer has nothing returned, held or on its way. -/
theorem Carried.launch (carried : Carried world) {runId : String} {start : Int}
    (housed : Housed next) (launched : world.launch zmqChannel runId start = some next) :
    Carried next := by
  rw [World.launch] at launched
  split at launched
  · cases launched
  · obtain rfl := Option.some.inj launched
    have grown := grown_launch world.incarnations ⟨runId, start, []⟩
    have length : (world.incarnations ++ [(⟨runId, start, []⟩ : Incarnation Scalar)]).length =
        world.incarnations.length + 1 := List.length_append
    refine ⟨housed, carried.keyed, ?_, ?_, ?_, ?_⟩
    · intro other batch held
      exact (carried.addressed other batch held).grown grown
    · intro incarnation message onWay
      obtain ⟨isSender, sent⟩ := carried.posted incarnation message onWay
      exact ⟨isSender, sent.grown grown⟩
    · intro batch listed
      exact length ▸ Nat.lt_succ_of_lt (carried.known batch listed)
    · intro incarnation producer found
      change (world.incarnations ++ [⟨runId, start, []⟩])[incarnation]? = some producer at found
      change stepsOf incarnation world.returned ++
        stepsOf incarnation (world.link.held producer.runId) ++
        (world.link.transit incarnation).map (fun message => message.2.step) = _
      by_cases old : incarnation < world.incarnations.length
      · rw [List.getElem?_append_left old] at found
        exact carried.line incarnation producer found
      · have isNew : incarnation = world.incarnations.length := by
          have bound := (List.getElem?_eq_some_iff.mp found).1
          rw [length] at bound
          omega
        rw [isNew, List.getElem?_concat_length] at found
        obtain rfl := Option.some.inj found
        have noneReturned : stepsOf incarnation world.returned = [] :=
          steps_of_others (fun batch listed same => old (same ▸ carried.known batch listed))
        have noneHeld : stepsOf incarnation (world.link.held runId) = [] :=
          steps_of_others (fun batch listed same =>
            old (same ▸ (carried.addressed runId batch listed).known))
        have noneOnWay : world.link.transit incarnation = [] := by
          apply List.eq_nil_iff_forall_not_mem.mpr
          intro message onWay
          obtain ⟨isSender, sent⟩ := carried.posted incarnation message onWay
          exact old (isSender ▸ sent.known)
        rw [noneReturned, noneHeld, noneOnWay]
        rfl

/-- A batch that is sent is on its way after those of its producer. -/
theorem Carried.send (carried : Carried world) {incarnation : Nat} {batch : TrainingBatch Scalar}
    (housed : Housed next) (sends : world.send zmqChannel incarnation batch = some next) :
    Carried next := by
  rw [World.send] at sends
  split at sends
  · cases sends
  · rename_i producer found
    split at sends
    · obtain rfl := Option.some.inj sends
      have grown := grown_send found batch
      refine ⟨housed, carried.keyed, ?_, ?_, ?_, ?_⟩
      · intro other waiting held
        exact (carried.addressed other waiting held).grown grown
      · intro other message onWay
        change message ∈ Function.update world.link.transit incarnation
          (world.link.transit incarnation ++ [(producer.runId, { batch with sender := incarnation })])
          other at onWay
        have before (listed : message ∈ world.link.transit other) :
            message.2.sender = other ∧ SentUnder (world.incarnations.set incarnation
              { producer with sent := producer.sent ++ [batch] }) message.1 message.2 := by
          obtain ⟨isSender, sent⟩ := carried.posted other message listed
          exact ⟨isSender, sent.grown grown⟩
        by_cases same : other = incarnation
        · rw [same, Function.update_self] at onWay
          rcases List.mem_append.mp onWay with earlier | last
          · exact before (same ▸ earlier)
          · rw [List.mem_singleton.mp last]
            refine ⟨same.symm, { producer with sent := producer.sent ++ [batch] }, ?_, rfl, ?_⟩
            · exact List.getElem?_set_self (List.getElem?_eq_some_iff.mp found).1
            · exact List.mem_append_right _ (List.mem_singleton_self _)
        · rw [Function.update_of_ne same] at onWay
          exact before onWay
      · intro waiting listed
        change waiting.sender < (world.incarnations.set incarnation _).length
        rw [List.length_set]
        exact carried.known waiting listed
      · intro other current isCurrent
        change (world.incarnations.set incarnation _)[other]? = some current at isCurrent
        change stepsOf other world.returned ++ stepsOf other (world.link.held current.runId) ++
          (Function.update world.link.transit incarnation
            (world.link.transit incarnation ++ [(producer.runId, _)]) other).map _ = _
        by_cases same : other = incarnation
        · rw [same, List.getElem?_set_self (List.getElem?_eq_some_iff.mp found).1] at isCurrent
          obtain rfl := Option.some.inj isCurrent
          have line := carried.line incarnation producer found
          rw [same, Function.update_self]
          dsimp only
          rw [List.map_append, List.map_append, ← line, List.append_assoc, List.append_assoc,
            List.append_assoc]
          rfl
        · rw [List.getElem?_set_ne (Ne.symm same)] at isCurrent
          rw [Function.update_of_ne same]
          exact carried.line other current isCurrent
    · cases sends

/-- A message that arrives is held behind what its run already holds. -/
theorem held_arrive {link : ZmqLink Scalar} {incarnation : Nat} {message : String × Sent Scalar}
    {rest : List (String × Sent Scalar)} (isFirst : link.transit incarnation = message :: rest)
    (runId : String) : (link.arrive incarnation).held runId =
      link.held runId ++ if runId = message.1 then [message.2] else [] := by
  rw [ZmqLink.arrive, isFirst]
  change buffered link.pending runId ++ Gather.itemsOf (link.socket ++ [message]) runId = _
  rw [ZmqLink.held]
  split
  · rename_i same
    rw [same, Gather.items_append_same, List.append_assoc]
  · rename_i different
    rw [Gather.items_append_other _ _ _ _ different, List.append_nil]

theorem Carried.arrive (carried : Carried world) (incarnation : Nat) :
    Carried { world with link := world.link.arrive incarnation } := by
  cases isFirst : world.link.transit incarnation with
  | nil =>
    have same : world.link.arrive incarnation = world.link := by rw [ZmqLink.arrive, isFirst]
    rw [same]
    exact carried
  | cons message rest =>
    have held := held_arrive isFirst
    obtain ⟨isSender, sent⟩ := carried.posted incarnation message (isFirst ▸ List.mem_cons_self)
    have pending : (world.link.arrive incarnation).pending = world.link.pending := by
      rw [ZmqLink.arrive, isFirst]
    have transit : (world.link.arrive incarnation).transit =
        Function.update world.link.transit incarnation rest := by
      rw [ZmqLink.arrive, isFirst]
    have housed := carried.housed
    refine ⟨⟨housed.consistent, housed.launched, housed.ascending⟩, ?_, ?_, ?_, carried.known, ?_⟩
    · change Keyed (world.link.arrive incarnation).pending
      rw [pending]
      exact carried.keyed
    · intro runId batch listed
      change batch ∈ (world.link.arrive incarnation).held runId at listed
      rw [held] at listed
      rcases List.mem_append.mp listed with before | last
      · exact carried.addressed runId batch before
      · split at last
        · rename_i same
          rw [List.mem_singleton.mp last, same]
          exact sent
        · cases last
    · intro other waiting onWay
      change waiting ∈ (world.link.arrive incarnation).transit other at onWay
      rw [transit] at onWay
      apply carried.posted other waiting
      by_cases same : other = incarnation
      · rw [same, Function.update_self] at onWay
        rw [same, isFirst]
        exact List.mem_cons_of_mem _ onWay
      · rw [Function.update_of_ne same] at onWay
        exact onWay
    · intro other producer found
      change stepsOf other world.returned ++
        stepsOf other ((world.link.arrive incarnation).held producer.runId) ++
        ((world.link.arrive incarnation).transit other).map _ = _
      have line := carried.line other producer found
      rw [held, transit, stepsOf_append]
      by_cases same : other = incarnation
      · have isRun : producer.runId = message.1 := by
          obtain ⟨current, isCurrent, sameRun, -⟩ := sent
          rw [isSender, ← same, found] at isCurrent
          rw [Option.some.inj isCurrent]
          exact sameRun
        have own : stepsOf incarnation [message.2] = [message.2.step] :=
          steps_of_own (fun batch listed => List.mem_singleton.mp listed ▸ isSender)
        rw [same, Function.update_self, if_pos isRun, own, ← line, same, isFirst, List.append_assoc,
          List.append_assoc, List.append_assoc]
        rfl
      · have others : stepsOf other (if producer.runId = message.1 then [message.2] else []) = [] := by
          apply steps_of_others
          intro batch listed isOther
          split at listed
          · rw [List.mem_singleton.mp listed, isSender] at isOther
            exact same isOther.symm
          · cases listed
        rw [Function.update_of_ne same, others, List.append_nil]
        exact line

end Steps

/-! ## Calls -/

theorem taken_eq_some_iff (manager : MultiRunManager) (held : String → List (Sent Scalar)) (idx : Nat)
    (batch : Sent Scalar) : taken manager held idx = some batch ↔
      isReady manager idx = false ∧ ∃ runId waiting, manager.idx2Id.lookup idx = some runId ∧
        (held runId).head? = some waiting ∧ waiting.mark idx = batch := by
  rw [taken]
  split
  · rename_i ready
    simp [ready]
  · rename_i ready
    simp [ready, Option.bind_eq_some_iff]

theorem takes_iff (manager : MultiRunManager) (idxs : List Nat) (runId : String) :
    takes manager idxs runId = true ↔
      ∃ idx ∈ idxs, isReady manager idx = false ∧ manager.idx2Id.lookup idx = some runId := by
  simp [takes]

/-- The batches of one producer that a pass takes: the first one held under its run,
when an index with this run is passed. -/
theorem steps_taken {manager : MultiRunManager} (consistent : Consistent manager)
    {held : String → List (Sent Scalar)} {incarnation : Nat} {runId : String}
    (addressed : ∀ other, ∀ batch ∈ held other, batch.sender = incarnation → other = runId)
    {idxs : List Nat} (distinct : idxs.Nodup) :
    stepsOf incarnation (idxs.filterMap (taken manager held)) =
      if takes manager idxs runId then stepsOf incarnation ((held runId).take 1) else [] := by
  induction idxs with
  | nil => rfl
  | cons idx rest inductionHypothesis =>
    obtain ⟨fresh, restDistinct⟩ := List.nodup_cons.mp distinct
    have passes : (idx :: rest).filterMap (taken manager held) =
        (taken manager held idx).toList ++ rest.filterMap (taken manager held) := by
      cases isTaken : taken manager held idx <;> simp [isTaken]
    rw [passes, stepsOf_append, inductionHypothesis restDistinct]
    by_cases own : isReady manager idx = false ∧ manager.idx2Id.lookup idx = some runId
    · have restLeaves : takes manager rest runId = false := by
        rw [Bool.eq_false_iff]
        intro restTakes
        obtain ⟨other, listed, -, otherNamed⟩ := (takes_iff manager rest runId).mp restTakes
        exact fresh (named_once consistent own.2 otherNamed ▸ listed)
      have passTakes : takes manager (idx :: rest) runId = true :=
        (takes_iff manager _ runId).mpr ⟨idx, List.mem_cons_self, own⟩
      have isTaken : taken manager held idx =
          (held runId).head?.map (fun batch => batch.mark idx) := by
        rw [taken, own.1, own.2]
        rfl
      rw [restLeaves, passTakes, isTaken, if_neg Bool.false_ne_true, if_pos rfl, List.append_nil]
      cases held runId with
      | nil => rfl
      | cons batch later =>
        simp only [List.head?_cons, Option.map_some, Option.toList_some, List.take_succ_cons,
          List.take_zero, stepsOf, List.filter_cons, List.filter_nil]
        change (if decide (batch.sender = incarnation) then _ else _ : List _).map _ = _
        split <;> rfl
    · have noneTaken : stepsOf incarnation (taken manager held idx).toList = [] := by
        apply steps_of_others
        intro batch listed isSender
        obtain ⟨ready, other, waiting, named, isFirst, rfl⟩ :=
          (taken_eq_some_iff manager held idx batch).mp (Option.mem_toList.mp listed)
        have same := addressed other waiting (List.mem_of_head? isFirst) isSender
        exact own ⟨ready, same ▸ named⟩
      have sameTakes : takes manager (idx :: rest) runId = takes manager rest runId := by
        rw [Bool.eq_iff_iff, takes_iff, takes_iff]
        constructor
        · rintro ⟨other, listed, otherOwn⟩
          rcases List.mem_cons.mp listed with rfl | later
          · exact absurd otherOwn own
          · exact ⟨other, later, otherOwn⟩
        · rintro ⟨other, listed, otherOwn⟩
          exact ⟨other, List.mem_cons_of_mem _ listed, otherOwn⟩
      rw [noneTaken, sameTakes]
      rfl

section Calls
variable {world : World Scalar (ZmqLink Scalar)}

/-- What is returned, held and on its way of one producer, in this order, ascends. -/
theorem Carried.in_order (carried : Carried world) {incarnation : Nat} {producer : Incarnation Scalar}
    (found : world.incarnations[incarnation]? = some producer) :
    (stepsOf incarnation world.returned ++ stepsOf incarnation (world.link.held producer.runId) ++
      (world.link.transit incarnation).map (fun message => message.2.step)).Pairwise (· < ·) := by
  rw [carried.line incarnation producer found]
  exact carried.housed.ascending producer (List.mem_of_getElem? found)

/-- Batches of one producer are held in the order of their steps. -/
theorem Carried.held_ascending (carried : Carried world) (unmixed : Unmixed world .receive)
    (runId : String) : ((world.link.held runId).map (fun batch => batch.step)).Pairwise (· < ·) := by
  cases isHeld : world.link.held runId with
  | nil => exact List.Pairwise.nil
  | cons first rest =>
    have listed : first ∈ world.link.held runId := isHeld ▸ List.mem_cons_self
    obtain ⟨producer, found, rfl, -⟩ := carried.addressed runId first listed
    have own : ∀ batch ∈ world.link.held producer.runId, batch.sender = first.sender :=
      fun batch other => (unmixed producer.runId).1 batch other first listed
    rw [← isHeld, ← steps_of_own own]
    exact (List.pairwise_append.mp (List.pairwise_append.mp (carried.in_order found)).1).2.1

/-- What a call returns and leaves. -/
theorem Carried.receives (carried : Carried world) (unmixed : Unmixed world .receive) :
    ∃ pending, world.link.receive world.manager =
        .ok ((usedIdxs world.manager).filterMap (taken world.manager world.link.held),
          { world.link with socket := [], pending := pending }) ∧
      Keyed pending ∧
      ∀ runId, buffered pending runId =
        if takes world.manager (usedIdxs world.manager) runId then (world.link.held runId).tail
        else world.link.held runId := by
  obtain ⟨pending, received, keyed, isPending⟩ := zmq_receive_spec carried.keyed world.link.socket
    world.link.held (fun _ => rfl) (carried.held_ascending unmixed) (used_named world.manager)
    (fun idx _ other _ _ named otherNamed =>
      named_once carried.housed.consistent named otherNamed)
  refine ⟨pending, ?_, keyed, isPending⟩
  rw [ZmqLink.receive, received]

/-- A call moves the batches it returns from what is held to what has been returned. -/
theorem Carried.receive (carried : Carried world) (unmixed : Unmixed world .receive)
    {next : World Scalar (ZmqLink Scalar)} (housed : Housed next)
    (received : world.receive zmqChannel = some next) : Carried next := by
  obtain ⟨pending, receives, keyed, isPending⟩ := carried.receives unmixed
  have calls : zmqChannel.receive world.manager world.link = _ := receives
  rw [World.receive, calls] at received
  obtain rfl := Option.some.inj received
  have isHeld (runId : String) :
      ({ world.link with socket := [], pending := pending } : ZmqLink Scalar).held runId =
        if takes world.manager (usedIdxs world.manager) runId then (world.link.held runId).tail
        else world.link.held runId := by
    rw [ZmqLink.held, isPending]
    exact List.append_nil _
  have fewer (runId : String) : ∀ batch ∈
      ({ world.link with socket := [], pending := pending } : ZmqLink Scalar).held runId,
      batch ∈ world.link.held runId := by
    intro batch listed
    rw [isHeld] at listed
    split at listed
    · exact List.mem_of_mem_tail listed
    · exact listed
  refine ⟨housed, keyed, ?_, carried.posted, ?_, ?_⟩
  · intro runId batch listed
    exact carried.addressed runId batch (fewer runId batch listed)
  · intro batch listed
    rcases List.mem_append.mp listed with before | now
    · exact carried.known batch before
    · obtain ⟨idx, -, isTaken⟩ := List.mem_filterMap.mp now
      obtain ⟨-, runId, waiting, -, isFirst, rfl⟩ := (taken_eq_some_iff _ _ idx batch).mp isTaken
      exact (carried.addressed runId waiting (List.mem_of_head? isFirst)).known
  · intro incarnation producer found
    have addressed : ∀ other, ∀ batch ∈ world.link.held other,
        batch.sender = incarnation → other = producer.runId := by
      intro other batch listed isSender
      obtain ⟨current, isCurrent, sameRun, -⟩ := carried.addressed other batch listed
      rw [isSender, found] at isCurrent
      rw [Option.some.inj isCurrent]
      exact sameRun.symm
    have isTaken := steps_taken carried.housed.consistent addressed
      (Iteration.ascending.once world.manager.idx2Id.keys)
    have moved : stepsOf incarnation
          ((usedIdxs world.manager).filterMap (taken world.manager world.link.held)) ++
        stepsOf incarnation (({ world.link with socket := [], pending := pending } :
          ZmqLink Scalar).held producer.runId) =
        stepsOf incarnation (world.link.held producer.runId) := by
      rw [isHeld]
      refine (congrArg (· ++ _) isTaken).trans ?_
      change (if takes world.manager (usedIdxs world.manager) producer.runId then _ else _) ++ _ = _
      split
      · rw [← List.drop_one, ← stepsOf_append, List.take_append_drop]
      · rfl
    change stepsOf incarnation (world.returned ++ _) ++ _ ++
      (world.link.transit incarnation).map _ = _
    rw [stepsOf_append, List.append_assoc (stepsOf incarnation world.returned), moved]
    exact carried.line incarnation producer found

/-- A call returns rightful batches. -/
theorem Carried.upholds (carried : Carried world) (unmixed : Unmixed world .receive) :
    Upholds zmqChannel world .receive := by
  obtain ⟨pending, receives, -, -⟩ := carried.receives unmixed
  refine ⟨_, _, receives, ?_, ?_⟩
  · intro batch listed
    obtain ⟨idx, -, isTaken⟩ := List.mem_filterMap.mp listed
    obtain ⟨ready, runId, waiting, named, isFirst, rfl⟩ := (taken_eq_some_iff _ _ idx batch).mp isTaken
    have held := List.mem_of_head? isFirst
    obtain ⟨producer, found, rfl, sent⟩ := carried.addressed runId waiting held
    refine ⟨⟨idx, rfl, ?_, ready⟩, ⟨producer, waiting.toTrainingBatch, found, sent, rfl⟩, ?_⟩
    · rw [World.owner, named]
      exact (unmixed producer.runId).2 idx named waiting held
    · intro earlier returned isSender
      have before := (List.pairwise_append.mp (carried.in_order found)).1
      have waits : waiting.step ∈ stepsOf waiting.sender (world.link.held producer.runId) :=
        mem_steps held rfl
      exact (List.pairwise_append.mp before).2.2 _ (mem_steps returned isSender) _ waits
  · have isMapped : ((usedIdxs world.manager).filterMap
          (taken world.manager world.link.held)).map (fun batch => batch.sender) =
        (usedIdxs world.manager).filterMap
          (fun idx => (taken world.manager world.link.held idx).map (fun batch => batch.sender)) :=
      List.map_filterMap
    rw [isMapped]
    refine List.Nodup.filterMap ?_ (Iteration.ascending.once _)
    intro idx other sender isSender isOther
    obtain ⟨batch, isTaken, rfl⟩ := Option.map_eq_some_iff.mp isSender
    obtain ⟨another, otherTaken, sameSender⟩ := Option.map_eq_some_iff.mp isOther
    obtain ⟨-, runId, waiting, named, isFirst, rfl⟩ := (taken_eq_some_iff _ _ idx batch).mp isTaken
    obtain ⟨-, otherId, otherWaiting, otherNamed, otherFirst, rfl⟩ :=
      (taken_eq_some_iff _ _ other another).mp otherTaken
    have sameRun := (carried.addressed otherId otherWaiting (List.mem_of_head? otherFirst)).same_run
      (carried.addressed runId waiting (List.mem_of_head? isFirst)) sameSender
    exact named_once carried.housed.consistent named (sameRun ▸ otherNamed)

end Calls

/-! ## Runs -/

/-- A step that mixes no incarnations keeps the batches in order. -/
theorem Carried.step {bf16 : Rat → Rat} {world next : World Scalar (ZmqLink Scalar)}
    (carried : Carried world) (event : Event Scalar) (unmixed : Unmixed world event)
    (stepped : world.step bf16 zmqChannel event = some next) : Carried next := by
  have housed := carried.housed.step event stepped
  cases event with
  | launch runId start => exact carried.launch housed stepped
  | create runId idx ckptSteps config =>
    rw [World.step, World.create] at stepped
    split at stepped
    · cases stepped
    · split at stepped
      · cases stepped
      · obtain rfl := Option.some.inj stepped
        exact carried.of_same housed rfl rfl rfl
  | forget runId =>
    rw [World.step, World.forget] at stepped
    split at stepped
    · cases stepped
    · split at stepped
      · cases stepped
      · obtain rfl := Option.some.inj stepped
        exact carried.of_same housed rfl rfl rfl
  | send incarnation batch => exact carried.send housed stepped
  | arrive incarnation =>
    obtain rfl := Option.some.inj stepped
    exact carried.arrive incarnation
  | setReady idx ready =>
    obtain rfl := Option.some.inj stepped
    exact carried.of_same housed rfl rfl rfl
  | advance idx progress =>
    rw [World.step] at stepped
    split at stepped
    · obtain rfl := Option.some.inj stepped
      exact carried.of_same housed rfl rfl rfl
    · cases stepped
  | receive => exact carried.receive unmixed housed stepped

/-- Along every run that mixes no incarnations every call upholds the contract. -/
theorem socket_runs (bf16 : Rat → Rat) (rank maxRuns : Nat) (events : List (Event Scalar))
    (unmixed : Machine.Along (World.step bf16 zmqChannel) Unmixed
      (World.init bf16 rank maxRuns ZmqLink.init) events) :
    Machine.Along (World.step bf16 zmqChannel) (Upholds zmqChannel)
      (World.init bf16 rank maxRuns ZmqLink.init) events := by
  refine Machine.along_of_invariant Carried ?_ ?_ events (carried_init bf16 rank maxRuns) unmixed
  · intro world event carried separate
    cases event with
    | receive => exact carried.upholds separate
    | _ => trivial
  · intro world event next carried separate stepped
    exact carried.step event separate stepped

end PrimeRl.Transport.Receivers
