import Mathlib.Algebra.Ring.Int.Defs
import Mathlib.Algebra.Ring.Nat
import PrimeRl.Value.ServiceBatches

/-!
# Order and delivery of the request service

While calls of `take_batch` follow one another, tickets are returned in the order
of their admission. A completed batch hands each of its tickets the values of its
own sequences, whatever other threads do in between.
-/

namespace PrimeRl.Value

universe u
variable {Scalar : Type u}

deriving instance DecidableEq for Worker

namespace ServiceRun

open ValueRequestService RequestTicket

variable {run next : ServiceRun Scalar} {index : Nat} {worker moved : Worker Scalar}

/-- No call of `take_batch` starts while another one is under way. -/
def Successive (run : ServiceRun Scalar) : ServiceAction Scalar → Prop
  | .startTake _ _ => ∀ worker ∈ run.workers, worker.taking = false
  | _ => True

instance (run : ServiceRun Scalar) (action : ServiceAction Scalar) :
    Decidable (run.Successive action) := by
  cases action <;> simp only [Successive] <;> infer_instance

/-- How one worker moves on: by its own work, into a call, or by giving its batch
back. -/
inductive WorkerMove (index : Nat) (action : ServiceAction Scalar) (worker moved : Worker Scalar) :
    Prop
  | works (isWork : action = .work index) (stays : moved.taking = true → worker.taking = true)
  | starts (waitForFirst : Bool) (isStart : action = .startTake index waitForFirst)
      (idle : worker = .idle)
  | hands (tickets : List Nat) (holds : worker = .holding tickets) (done : moved.taking = false)

/-- At most one worker moves at a time. -/
structure Moved (run next : ServiceRun Scalar) (action : ServiceAction Scalar) (index : Nat)
    (worker moved : Worker Scalar) : Prop where
  found : run.workers[index]? = some worker
  workers : next.workers = run.workers.set index moved
  move : WorkerMove index action worker moved

theorem take_next_workers (run : ServiceRun Scalar) (index ticketId : Nat) (rest : List Nat)
    (taken skipped : Worker Scalar) :
    ∃ moved, (run.takeNext index ticketId rest taken skipped).workers =
      run.workers.set index moved := by
  simp only [takeNext]
  split
  · exact ⟨taken, rfl⟩
  · exact ⟨skipped, rfl⟩
  · exact ⟨.idle, rfl⟩

theorem seek_workers (run : ServiceRun Scalar) (index : Nat) (waitForFirst : Bool) :
    ∃ moved, (run.seek index waitForFirst).workers = run.workers.set index moved := by
  simp only [seek]
  split
  · split
    · exact ⟨.idle, rfl⟩
    · exact ⟨.waitingForFirst, rfl⟩
  · split
    · exact ⟨.idle, rfl⟩
    · exact take_next_workers _ index _ _ _ _

theorem collect_workers (run : ServiceRun Scalar) (index : Nat) (batch : Collected) :
    ∃ moved, (run.collect index batch).workers = run.workers.set index moved := by
  simp only [collect]
  split
  · split
    · exact ⟨.measuring batch, rfl⟩
    · split
      · exact ⟨.idle, rfl⟩
      · split
        · exact ⟨.finishing batch, rfl⟩
        · split
          · exact ⟨.finishing batch, rfl⟩
          · exact take_next_workers _ index _ _ _ _
  · exact ⟨.finishing batch, rfl⟩

/-- A worker that works moves itself only, and never into a call. -/
theorem work_workers (worked : run.workStep index worker = some next) :
    ∃ moved, next.workers = run.workers.set index moved ∧
      (moved.taking = true → worker.taking = true) := by
  cases worker with
  | idle => cases worked
  | holding tickets => cases worked
  | seeking waitForFirst =>
    obtain ⟨-, ⟨rfl⟩⟩ := Option.ite_none_right_eq_some.mp worked
    obtain ⟨moved, workers⟩ := seek_workers run index waitForFirst
    exact ⟨moved, workers, fun _ => rfl⟩
  | waitingForFirst =>
    obtain ⟨-, ⟨rfl⟩⟩ := Option.ite_none_right_eq_some.mp worked
    exact ⟨_, rfl, fun _ => rfl⟩
  | collecting batch =>
    obtain ⟨-, ⟨rfl⟩⟩ := Option.ite_none_right_eq_some.mp worked
    obtain ⟨moved, workers⟩ := collect_workers run index batch
    exact ⟨moved, workers, fun _ => rfl⟩
  | measuring batch =>
    obtain ⟨-, ⟨rfl⟩⟩ := Option.ite_none_right_eq_some.mp worked
    simp only [measure]
    split
    · exact ⟨_, rfl, fun _ => rfl⟩
    · exact ⟨_, rfl, fun _ => rfl⟩
  | waitingForMore batch =>
    obtain ⟨-, ⟨rfl⟩⟩ := Option.ite_none_right_eq_some.mp worked
    exact ⟨_, rfl, fun _ => rfl⟩
  | finishing batch =>
    obtain ⟨-, ⟨rfl⟩⟩ := Option.ite_none_right_eq_some.mp worked
    exact ⟨_, rfl, fun _ => rfl⟩
  | completing remaining =>
    cases remaining with
    | nil =>
      obtain rfl := Option.some.inj worked
      exact ⟨.idle, rfl, id⟩
    | cons slice rest =>
      obtain ⟨-, worked⟩ := Option.ite_none_right_eq_some.mp worked
      cases completed : run.service.completeTicket slice.1 slice.2 with
      | mk service passed =>
        rw [completed] at worked
        cases passed with
        | true =>
          obtain rfl := Option.some.inj worked
          exact ⟨.completing rest, rfl, id⟩
        | false =>
          obtain rfl := Option.some.inj worked
          exact ⟨.idle, rfl, id⟩
  | failing remaining error =>
    cases remaining with
    | nil =>
      obtain rfl := Option.some.inj worked
      exact ⟨.idle, rfl, id⟩
    | cons ticketId rest =>
      obtain ⟨-, worked⟩ := Option.ite_none_right_eq_some.mp worked
      cases failed : run.service.failTicket ticketId error with
      | mk service passed =>
        rw [failed] at worked
        cases passed with
        | true =>
          obtain rfl := Option.some.inj worked
          exact ⟨.failing rest error, rfl, id⟩
        | false =>
          obtain rfl := Option.some.inj worked
          exact ⟨.idle, rfl, id⟩

/-- Which worker an action moves. -/
theorem step_workers (action : ServiceAction Scalar) (accepted : run.step action = some next) :
    next.workers = run.workers ∨
      ∃ index worker moved, Moved run next action index worker moved := by
  cases action with
  | tick elapsed =>
    obtain ⟨-, ⟨rfl⟩⟩ := Option.ite_none_right_eq_some.mp accepted
    exact Or.inl rfl
  | setVersion version =>
    obtain ⟨-, ⟨rfl⟩⟩ := Option.ite_none_right_eq_some.mp accepted
    exact Or.inl rfl
  | setError error =>
    obtain ⟨-, ⟨rfl⟩⟩ := Option.ite_none_right_eq_some.mp accepted
    exact Or.inl rfl
  | submit request admittedAt =>
    obtain ⟨-, ⟨rfl⟩⟩ := Option.ite_none_right_eq_some.mp accepted
    exact Or.inl rfl
  | hasQueued =>
    obtain ⟨-, ⟨rfl⟩⟩ := Option.ite_none_right_eq_some.mp accepted
    exact Or.inl rfl
  | cancel ticketId =>
    obtain ⟨-, ⟨rfl⟩⟩ := Option.ite_none_right_eq_some.mp accepted
    exact Or.inl rfl
  | startTake index waitForFirst =>
    simp only [step] at accepted
    split at accepted
    · rename_i found
      obtain ⟨-, ⟨rfl⟩⟩ := Option.ite_none_right_eq_some.mp accepted
      exact Or.inr ⟨index, _, _, found, rfl, .starts waitForFirst rfl rfl⟩
    · cases accepted
  | complete index values version =>
    simp only [step] at accepted
    split at accepted
    · rename_i tickets found
      split at accepted
      · obtain rfl := Option.some.inj accepted
        exact Or.inr ⟨index, _, _, found, rfl, .hands tickets rfl rfl⟩
      · obtain rfl := Option.some.inj accepted
        exact Or.inl rfl
    · cases accepted
  | fail index error =>
    simp only [step] at accepted
    split at accepted
    · rename_i tickets found
      obtain rfl := Option.some.inj accepted
      exact Or.inr ⟨index, _, _, found, rfl, .hands tickets rfl rfl⟩
    · cases accepted
  | work index =>
    obtain ⟨worker, found, worked⟩ := Option.bind_eq_some_iff.mp accepted
    obtain ⟨moved, workers, stays⟩ := work_workers worked
    exact Or.inr ⟨index, worker, moved, found, workers, .works rfl stays⟩
  | close error =>
    simp only [step] at accepted
    obtain ⟨-, accepted⟩ := Option.ite_none_right_eq_some.mp accepted
    obtain rfl := Option.some.inj accepted
    exact Or.inl rfl
  | resolve index =>
    obtain ⟨closer, found, resolved⟩ := Option.bind_eq_some_iff.mp accepted
    apply Or.inl
    cases closer with
    | asking remaining error =>
      cases remaining with
      | nil => cases resolved
      | cons ticketId rest =>
        simp only [resolveStep] at resolved
        split at resolved
        · cases resolved
        · obtain rfl := Option.some.inj resolved
          rfl
    | finishing ticketId rest error =>
      simp only [resolveStep] at resolved
      split at resolved
      · obtain rfl := Option.some.inj resolved
        rfl
      · obtain rfl := Option.some.inj resolved
        rfl

/-- At most one call of `take_batch` is under way. -/
def Alone (run : ServiceRun Scalar) : Prop :=
  ∀ (first second : Nat) (one other : Worker Scalar), run.workers[first]? = some one →
    run.workers[second]? = some other → one.taking = true → other.taking = true → first = second

theorem step_alone (alone : Alone run) (action : ServiceAction Scalar)
    (successive : run.Successive action) (accepted : run.step action = some next) : Alone next := by
  rcases step_workers action accepted with same | ⟨index, worker, moved, found, workers, move⟩
  · intro first second one other
    rw [same]
    exact alone first second one other
  · -- a worker in a call was in it before, unless this action started the only one
    have before : ∀ (place : Nat) later, next.workers[place]? = some later →
        later.taking = true →
        (∃ earlier, run.workers[place]? = some earlier ∧ earlier.taking = true) ∨
          (place = index ∧ ∀ other ∈ run.workers, other.taking = false) := by
      intro place later present isTaking
      rw [workers] at present
      by_cases same : place = index
      · subst same
        rw [List.getElem?_set_self (List.getElem?_eq_some_iff.mp found).1] at present
        obtain rfl := Option.some.inj present
        cases move with
        | works isWork stays => exact Or.inl ⟨worker, found, stays isTaking⟩
        | starts waitForFirst isStart idle =>
          subst isStart
          exact Or.inr ⟨rfl, successive⟩
        | hands tickets holds done =>
          rw [done] at isTaking
          cases isTaking
      · rw [List.getElem?_set_ne (Ne.symm same)] at present
        exact Or.inl ⟨later, present, isTaking⟩
    have quiet : ∀ (place : Nat) earlier, run.workers[place]? = some earlier →
        earlier.taking = true → ¬ ∀ other ∈ run.workers, other.taking = false := by
      intro place earlier present isTaking nobody
      have idle := nobody earlier (List.mem_of_getElem? present)
      rw [isTaking] at idle
      cases idle
    intro first second one other isFirst isSecond oneTakes otherTakes
    rcases before first one isFirst oneTakes with ⟨oneBefore, found1, takes1⟩ | ⟨rfl, nobody⟩
    · rcases before second other isSecond otherTakes with
        ⟨otherBefore, found2, takes2⟩ | ⟨-, nobody⟩
      · exact alone first second oneBefore otherBefore found1 found2 takes1 takes2
      · exact absurd nobody (quiet first oneBefore found1 takes1)
    · rcases before second other isSecond otherTakes with
        ⟨otherBefore, found2, takes2⟩ | ⟨rfl, -⟩
      · exact absurd nobody (quiet second otherBefore found2 takes2)
      · rfl

/-- While one call is under way, no other worker has a share. -/
theorem Alone.others_idle (alone : Alone run) (found : run.workers[index]? = some worker)
    (taking : worker.taking = true) (place : Nat) (share : List Nat × Nat)
    (present : run.shares[place]? = some share) (different : place ≠ index) : share.1 = [] := by
  rw [shares, List.getElem?_map, Option.map_eq_some_iff] at present
  obtain ⟨other, isOther, rfl⟩ := present
  cases otherTakes : other.taking with
  | true => exact absurd (alone place index other worker isOther found otherTakes taking) different
  | false => rw [Worker.share_of_idle other otherTakes]

/-- The tickets taken so far, with the taken ticket behind them. -/
theorem BatchStep.taken_eq {tickets : List Nat} (batched : BatchStep run next tickets)
    (alone : Alone run) : next.taken = run.taken ++ tickets := by
  have shared : ∀ (index : Nat) (worker : Worker Scalar), run.workers[index]? = some worker →
      worker.taking = true → ∀ share : List Nat × Nat,
      run.shares.flatMap Prod.fst = worker.share.1 ∧
        (run.shares.set index share).flatMap Prod.fst = share.1 := by
    intro index worker found taking share
    have own : run.shares[index]? = some worker.share := by
      rw [shares, List.getElem?_map, found, Option.map_some]
    have others := alone.others_idle found taking
    constructor
    · exact Pool.flatMap_alone Prod.fst run.shares index worker.share own others
    · have inside := (List.getElem?_eq_some_iff.mp own).1
      apply Pool.flatMap_alone Prod.fst _ index share (List.getElem?_set_self inside)
      intro place other present different
      rw [List.getElem?_set_ne (Ne.symm different)] at present
      exact others place other present different
  cases batched with
  | quiet returned shares => rw [taken, taken, returned, shares, List.append_nil]
  | took index worker ticketId ticket found taking present ahead room returned shares =>
    obtain ⟨before, after⟩ :=
      shared index worker found taking (worker.share.1 ++ [ticketId], worker.share.2 + ticket.tokens)
    rw [taken, taken, returned, shares, before, after, List.append_assoc]
  | finished index worker found taking returned shares =>
    obtain ⟨before, after⟩ := shared index worker found taking ([], 0)
    rw [taken, taken, returned, shares, before, after, List.flatten_append, List.flatten_singleton,
      List.append_nil]

/-- Whether a ticket is known to have missed its turn. -/
def MissedTurn (service : ValueRequestService Scalar) (ticketId : Nat) : Prop :=
  ∃ ticket, service.tickets[ticketId]? = some ticket ∧ Missed ticket ∧ Over ticket

/-- While calls follow one another, tickets are taken in the order of the queue. -/
structure Ordered (run : ServiceRun Scalar) : Prop where
  accounted : Accounted run
  alone : Alone run
  inOrder : NumberedQueue.InOrder run.service.tickets.length run.taken run.service.queue
    (MissedTurn run.service) (run.service.closed = true)

theorem step_ordered (run : ServiceRun Scalar) (action : ServiceAction Scalar)
    (next : ServiceRun Scalar) (ordered : Ordered run) (successive : run.Successive action)
    (accepted : run.step action = some next) : Ordered next := by
  obtain ⟨kept, tickets, queued, batched⟩ := step_stepped ordered.accounted action accepted
  have taken := batched.taken_eq ordered.alone
  have stillMissed : ∀ ticketId, MissedTurn run.service ticketId →
      MissedTurn next.service ticketId := by
    rintro ticketId ⟨ticket, found, missed, isOver⟩
    obtain ⟨after, present, remains⟩ := kept.remains ticketId ticket found
    rw [remains.settled isOver] at present
    exact ⟨ticket, present, missed, isOver⟩
  refine ⟨step_accounted run action next ordered.accounted accepted,
    step_alone ordered.alone action successive accepted, ?_⟩
  rw [taken]
  cases queued with
  | served _ sublist missed admitted closed =>
    rw [admitted]
    exact ordered.inOrder.serve sublist missed stillMissed (fun isShut => closed.trans isShut)
  | arrived queue admitted measured wasOpen =>
    rw [admitted, queue, List.append_nil]
    exact ordered.inOrder.issue (fun isShut => Bool.noConfusion (isShut.symm.trans wasOpen))
      stillMissed
  | shut queue admitted closed =>
    rw [admitted, queue, List.append_nil]
    exact ordered.inOrder.close stillMissed closed

/-- What a completed batch gives each of its tickets: while its worker has not
come to a ticket, the response is still in its hands, and afterwards it is the
ticket's result unless its client left. -/
structure Delivered (index : Nat) (replies : List (Nat × ValueEvaluationResponse Scalar))
    (run : ServiceRun Scalar) : Prop where
  accounted : Accounted run
  delivered : ∀ reply ∈ replies,
    (∃ remaining, run.workers[index]? = some (.completing remaining) ∧ reply ∈ remaining) ∨
      ∃ ticket, run.service.tickets[reply.1]? = some ticket ∧ Over ticket ∧
        (ticket.abandoned = true ∨ ticket.future = .resolved reply.2)

/-- Completing the first remaining ticket goes through and leaves the others to do. -/
theorem completing_step {reply : Nat × ValueEvaluationResponse Scalar}
    {remaining : List (Nat × ValueEvaluationResponse Scalar)} (accounted : Accounted run)
    (found : run.workers[index]? = some (.completing (reply :: remaining)))
    (unlocked : run.lock = none) :
    ∃ next, run.step (.work index) = some next ∧
      next.workers = run.workers.set index (.completing remaining) ∧
      ∃ ticket, next.service.tickets[reply.1]? = some ticket ∧ Over ticket ∧
        (ticket.abandoned = true ∨ ticket.future = .resolved reply.2) := by
  obtain ⟨others, front⟩ := accounted.front found
  have passes := (complete_ticket_balanced front reply.2).1
  obtain ⟨-, -, outcome⟩ := complete_ticket_step front reply.2
  cases completed : run.service.completeTicket reply.1 reply.2 with
  | mk service passed =>
    rw [completed] at passes outcome
    obtain rfl : passed = true := passes
    refine ⟨{ run with service := service }.setWorker index (.completing remaining), ?_, rfl,
      outcome⟩
    simp only [step, found, Option.bind_some, workStep, unlocked, if_true, completed]

theorem step_delivered (replies : List (Nat × ValueEvaluationResponse Scalar))
    (run : ServiceRun Scalar) (action : ServiceAction Scalar) (next : ServiceRun Scalar)
    (delivered : Delivered index replies run) (accepted : run.step action = some next) :
    Delivered index replies next := by
  refine ⟨step_accounted run action next delivered.accounted accepted, ?_⟩
  intro reply member
  rcases delivered.delivered reply member with ⟨remaining, found, waits⟩ | ⟨ticket, found, isOver, outcome⟩
  · rcases step_workers action accepted with same | ⟨place, worker, moved, isPlace, workers, move⟩
    · exact Or.inl ⟨remaining, same ▸ found, waits⟩
    · by_cases same : place = index
      · subst same
        obtain rfl : worker = .completing remaining := Option.some.inj (isPlace.symm.trans found)
        cases move with
        | starts waitForFirst isStart idle => cases idle
        | hands tickets holds done => cases holds
        | works isWork stays =>
          subst isWork
          cases remaining with
          | nil => cases waits
          | cons first rest =>
            have unlocked : run.lock = none := by
              obtain ⟨other, isOther, worked⟩ := Option.bind_eq_some_iff.mp accepted
              obtain rfl := Option.some.inj (isOther.symm.trans found)
              exact (Option.ite_none_right_eq_some.mp worked).1
            obtain ⟨after, goes, moves, outcome⟩ :=
              completing_step delivered.accounted found unlocked
            obtain rfl : after = next := Option.some.inj (goes.symm.trans accepted)
            rcases List.mem_cons.mp waits with rfl | later
            · exact Or.inr outcome
            · refine Or.inl ⟨rest, ?_, later⟩
              rw [moves]
              exact List.getElem?_set_self (List.getElem?_eq_some_iff.mp found).1
      · refine Or.inl ⟨remaining, ?_, waits⟩
        rw [workers, List.getElem?_set_ne same]
        exact found
  · obtain ⟨kept, -⟩ := step_stepped delivered.accounted action accepted
    obtain ⟨after, present, remains⟩ := kept.remains reply.1 ticket found
    rw [remains.settled isOver] at present
    exact Or.inr ⟨ticket, present, isOver, outcome⟩

/-- The values of a batch, cut into the shares of its tickets. -/
theorem responses_slices (service : ValueRequestService Scalar) (values : List (List Scalar))
    (version : Int) (offset : Nat) (tickets : List Nat)
    (known : ∀ ticketId ∈ tickets, ticketId < service.tickets.length)
    (enough : values.length = offset + (batchTokenIds service tickets).length) :
    ∃ slices : List (List (List Scalar)),
      responses service values version offset tickets =
          tickets.zip (slices.map (fun slice => ⟨slice, version⟩)) ∧
        slices.flatten = values.drop offset ∧
        List.Forall₂ (fun ticketId slice => ∃ ticket, service.tickets[ticketId]? = some ticket ∧
          slice.length = ticket.request.tokenIds.length) tickets slices := by
  induction tickets generalizing offset with
  | nil =>
    refine ⟨[], rfl, ?_, List.Forall₂.nil⟩
    rw [List.flatten_nil, List.drop_of_length_le]
    rw [enough]
    exact le_refl _
  | cons ticketId rest inductionHypothesis =>
    obtain ⟨ticket, found⟩ : ∃ ticket, service.tickets[ticketId]? = some ticket :=
      ⟨_, List.getElem?_eq_getElem (known ticketId List.mem_cons_self)⟩
    simp only [batchTokenIds, List.flatMap_cons, found, Option.elim_some, List.length_append] at enough
    obtain ⟨slices, replies, joined, sizes⟩ :=
      inductionHypothesis (offset + ticket.request.tokenIds.length)
        (fun other member => known other (List.mem_cons_of_mem _ member))
        (by rw [enough, batchTokenIds]; omega)
    refine ⟨(values.drop offset).take ticket.request.tokenIds.length :: slices, ?_, ?_, ?_⟩
    · simp only [responses, found, Option.elim_some, replies, List.map_cons, List.zip_cons_cons]
    · rw [List.flatten_cons, joined, ← List.drop_drop, List.take_append_drop]
    · refine List.Forall₂.cons ⟨ticket, found, ?_⟩ sizes
      rw [List.length_take, List.length_drop]
      omega

/-- Idle workers have no shares. -/
theorem start_taken (config : ValueEvaluatorConfig) (seqLen vocabSize : Nat) (version : Option Int)
    (workers : Nat) : (start config seqLen vocabSize version workers : ServiceRun Scalar).taken = [] := by
  simp only [taken, start, List.flatten_nil, List.nil_append, List.flatMap_eq_nil_iff, shares]
  intro share member
  obtain ⟨worker, isWorker, rfl⟩ := List.mem_map.mp member
  rw [List.eq_of_mem_replicate isWorker]
  rfl

theorem start_distinct (config : ValueEvaluatorConfig) (seqLen vocabSize : Nat)
    (version : Option Int) (workers : Nat) :
    Distinct (start config seqLen vocabSize version workers : ServiceRun Scalar) := by
  refine ⟨start_accounted config seqLen vocabSize version workers, ?_, ?_⟩
  · rw [start_taken]
    exact List.nodup_nil
  · rw [start_taken]
    exact fun _ impossible => absurd impossible List.not_mem_nil

theorem start_bounded (config : ValueEvaluatorConfig) (seqLen vocabSize : Nat)
    (version : Option Int) (workers : Nat) :
    Bounded (start config seqLen vocabSize version workers : ServiceRun Scalar) := by
  refine ⟨start_accounted config seqLen vocabSize version workers,
    (fun _ _ impossible => nomatch impossible), ?_, (fun _ impossible => nomatch impossible)⟩
  intro share member
  obtain ⟨worker, isWorker, rfl⟩ := List.mem_map.mp member
  rw [List.eq_of_mem_replicate isWorker]
  exact fitting_nil _

theorem start_ordered (config : ValueEvaluatorConfig) (seqLen vocabSize : Nat)
    (version : Option Int) (workers : Nat) :
    Ordered (start config seqLen vocabSize version workers : ServiceRun Scalar) := by
  refine ⟨start_accounted config seqLen vocabSize version workers, ?_, ?_⟩
  · intro first second one other isFirst _ oneTakes _
    rw [List.eq_of_mem_replicate (List.mem_of_getElem? isFirst)] at oneTakes
    cases oneTakes
  · rw [start_taken]
    exact NumberedQueue.inOrder_nil _ _

/-- A batch exceeds the token ceiling only when it is a single ticket. -/
theorem batch_bounded {config : ValueEvaluatorConfig} {seqLen vocabSize : Nat}
    {version : Option Int} {workers : Nat} {actions : List (ServiceAction Scalar)}
    (ran : Machine.run step (start config seqLen vocabSize version workers) actions = some run)
    (tickets : List Nat) (returned : tickets ∈ run.returned) (several : 1 < tickets.length) :
    batchTokens run.service tickets ≤ config.maxBatchTokens := by
  obtain ⟨bounded, same⟩ : Bounded run ∧ run.service.config = config := by
    apply Machine.run_invariant
      (fun state : ServiceRun Scalar => Bounded state ∧ state.service.config = config) _ _ ran
    · rintro state action next ⟨bounded, same⟩ accepted
      have kept := (step_stepped bounded.accounted action accepted).kept
      exact ⟨step_bounded state action next bounded accepted, kept.config.trans same⟩
    · exact ⟨start_bounded config seqLen vocabSize version workers, rfl⟩
  obtain ⟨tokens, fitting⟩ := bounded.returned tickets returned
  rw [fitting.counted, ← same]
  exact fitting.bounded several

/-- A ticket is taken ahead of its deadline. -/
theorem taken_ahead (accounted : Accounted run) (action : ServiceAction Scalar)
    (accepted : run.step action = some next) (ticketId : Nat) (isTaken : ticketId ∈ next.taken)
    (fresh : ticketId ∉ run.taken) :
    ∃ ticket, next.service.tickets[ticketId]? = some ticket ∧ run.now < ticket.deadline := by
  obtain ⟨-, tickets, -, batched⟩ := step_stepped accounted action accepted
  have joined := (batched.taken_perm.mem_iff.mp isTaken)
  rw [List.mem_append] at joined
  have new := joined.resolve_left fresh
  cases batched with
  | quiet returned shares => cases new
  | finished index worker found taking returned shares => cases new
  | took index worker other ticket found taking present ahead room returned shares =>
    rw [List.mem_singleton] at new
    exact ⟨ticket, new ▸ present, ahead⟩

/-- Completing a batch gives every ticket the values of its own sequences, or still
has them in hand, whatever happens in between. -/
theorem complete_delivers (accounted : Accounted run) {tickets : List Nat}
    {values : List (List Scalar)} {version : Int} {middle : ServiceRun Scalar}
    (holds : run.workers[index]? = some (.holding tickets))
    (enough : values.length = (batchTokenIds run.service tickets).length)
    (completed : run.step (.complete index values version) = some middle) :
    ∃ slices : List (List (List Scalar)), slices.flatten = values ∧
      List.Forall₂ (fun ticketId slice => ∃ ticket, run.service.tickets[ticketId]? = some ticket ∧
        slice.length = ticket.request.tokenIds.length) tickets slices ∧
      ∀ later final, Machine.run step middle later = some final →
        Delivered index (tickets.zip (slices.map (fun slice => ⟨slice, version⟩))) final := by
  have known : ∀ ticketId ∈ tickets, ticketId < run.service.tickets.length := by
    intro ticketId member
    obtain ⟨others, front⟩ := accounted.front holds
    obtain ⟨ticket, found, -⟩ := front.placed.staged ticketId .running (by
      simp only [places, List.map_append, List.mem_append, List.mem_map]
      exact Or.inr (Or.inl (Or.inl ⟨ticketId, member, rfl⟩)))
    exact (List.getElem?_eq_some_iff.mp found).1
  obtain ⟨slices, replies, joined, sizes⟩ :=
    responses_slices run.service values version 0 tickets known (by rw [enough, Nat.zero_add])
  have asked : values.length = requested run.service tickets := by
    rw [enough, batchTokenIds, List.length_flatMap, requested]
    congr 1
    apply List.map_congr_left
    intro ticketId member
    rw [List.getElem?_eq_getElem (known ticketId member)]
    rfl
  have atFirst : middle =
      run.setWorker index (.completing (responses run.service values version 0 tickets)) := by
    simp only [step, holds, asked, if_true, Option.some.injEq] at completed
    exact completed.symm
  refine ⟨slices, joined, sizes, ?_⟩
  intro later final ran
  apply Machine.run_invariant (Delivered index _) (step_delivered _) _ ran
  refine ⟨step_accounted run _ middle accounted completed, ?_⟩
  intro reply member
  rw [← replies] at member
  refine Or.inl ⟨_, ?_, member⟩
  rw [atFirst]
  exact List.getElem?_set_self (List.getElem?_eq_some_iff.mp holds).1

/-- In every reachable state no ticket was returned twice, a batch of several
tickets keeps below the token ceiling, and a ticket is taken before its deadline.
While calls of `take_batch` follow one another, tickets are returned in queue
order, and whoever was overtaken expired or was cancelled. A completed batch
gives each ticket that was not abandoned the values of its own sequences under
the one version, as soon as its worker has come to it, and the worker is never
stopped. -/
theorem batches_in_order (config : ValueEvaluatorConfig) (seqLen vocabSize : Nat)
    (version : Option Int) (workers : Nat) (actions : List (ServiceAction Scalar))
    (run : ServiceRun Scalar)
    (ran : Machine.run step (start config seqLen vocabSize version workers) actions = some run) :
    run.returned.flatten.Nodup ∧
      (Machine.Along step Successive (start config seqLen vocabSize version workers) actions →
        run.returned.flatten.Sublist (List.range run.service.tickets.length) ∧
          ∀ overtaken later, overtaken ∉ run.returned.flatten → later ∈ run.returned.flatten →
            overtaken < later →
            ∃ ticket, run.service.tickets[overtaken]? = some ticket ∧ Missed ticket) ∧
      (∀ tickets ∈ run.returned, 1 < tickets.length →
        batchTokens run.service tickets ≤ config.maxBatchTokens) ∧
      (∀ action next, run.step action = some next → ∀ ticketId ∈ next.taken,
        ticketId ∉ run.taken →
        ∃ ticket, next.service.tickets[ticketId]? = some ticket ∧ run.now < ticket.deadline) ∧
      ∀ index tickets (values : List (List Scalar)) (valueVersion : Int) middle,
        run.workers[index]? = some (.holding tickets) →
        values.length = (batchTokenIds run.service tickets).length →
        run.step (.complete index values valueVersion) = some middle →
        ∃ slices : List (List (List Scalar)), slices.flatten = values ∧
          List.Forall₂ (fun ticketId slice => ∃ ticket,
            run.service.tickets[ticketId]? = some ticket ∧
              slice.length = ticket.request.tokenIds.length) tickets slices ∧
          ∀ later final, Machine.run step middle later = some final →
            (∀ reply ∈ tickets.zip (slices.map (fun slice => ValueEvaluationResponse.mk slice valueVersion)),
              (∃ remaining, final.workers[index]? = some (.completing remaining) ∧
                reply ∈ remaining) ∨
              ∃ ticket, final.service.tickets[reply.1]? = some ticket ∧
                (ticket.abandoned = true ∨ ticket.future = .resolved reply.2)) ∧
            ∀ reply remaining, final.workers[index]? = some (.completing (reply :: remaining)) →
              final.lock = none →
              ∃ next, final.step (.work index) = some next ∧
                next.workers[index]? = some (.completing remaining) := by
  have distinct : Distinct run :=
    Machine.run_invariant Distinct step_distinct
      (start_distinct config seqLen vocabSize version workers) ran
  refine ⟨?_, ?_, ?_, ?_, ?_⟩
  · have parts := distinct.nodup
    rw [taken, List.append_assoc] at parts
    exact parts.sublist (List.sublist_append_left _ _)
  · intro successive
    have ordered : Ordered run :=
      Machine.run_invariant_along Ordered step_ordered
        (start_ordered config seqLen vocabSize version workers) successive ran
    constructor
    · exact (List.sublist_append_left _ _).trans ordered.inOrder.served_sublist
    · intro overtaken later unreturned returned earlier
      obtain ⟨ticket, found, missed, -⟩ :=
        ordered.inOrder.overtaken_gone unreturned returned earlier
      exact ⟨ticket, found, missed⟩
  · exact batch_bounded ran
  · exact fun action next accepted => taken_ahead distinct.accounted action accepted
  · intro index tickets values valueVersion middle holds enough completed
    obtain ⟨slices, joined, sizes, delivers⟩ :=
      complete_delivers distinct.accounted holds enough completed
    refine ⟨slices, joined, sizes, ?_⟩
    intro later final ranLater
    have delivered := delivers later final ranLater
    constructor
    · intro reply member
      rcases delivered.delivered reply member with waits | ⟨ticket, found, -, outcome⟩
      · exact Or.inl waits
      · exact Or.inr ⟨ticket, found, outcome⟩
    · intro reply remaining found unlocked
      obtain ⟨next, goes, moves, -⟩ := completing_step delivered.accounted found unlocked
      refine ⟨next, goes, ?_⟩
      rw [moves]
      exact List.getElem?_set_self (List.getElem?_eq_some_iff.mp found).1

theorem two_nonnegative : 0 ≤ (2 : Rat) := by decide +kernel

theorem ten_positive : 0 < (10 : Rat) := by decide +kernel

/-- Four tickets, of which the third is cancelled in the queue: two share the first
batch, and the last one is returned alone and completed. -/
theorem batches_in_order_four_tickets :
    let config : ValueEvaluatorConfig :=
      ⟨8, 2, 8, 100, 10, by decide, two_nonnegative, by decide, by decide, ten_positive⟩
    let request : ValueEvaluationRequest := ⟨[[1, 2], [3]]⟩
    let actions : List (ServiceAction Int) :=
      [.submit request 0, .submit request 0, .submit request 0, .startTake 0 true, .work 0, .work 0,
        .work 0, .work 0, .complete 0 [[1, 2], [3], [4, 5], [6]] 0, .work 0, .work 0, .work 0,
        .cancel 2, .submit request 0, .startTake 0 true, .work 0, .work 0, .tick 1, .work 0, .work 0]
    ∃ run : ServiceRun Int,
      Machine.run step (start config 16 100 (some 0) 1) actions = some run ∧
      run.returned = [[0, 1], [3]] ∧
      run.returned.flatten.Sublist (List.range run.service.tickets.length) ∧
      (∃ ticket, run.service.tickets[2]? = some ticket ∧ Missed ticket) ∧
      batchTokens run.service [0, 1] ≤ 8 ∧
      ∃ (middle : ServiceRun Int) (slices : List (List (List Int))),
        run.step (.complete 0 [[7, 8], [9]] 1) = some middle ∧
        slices.flatten = [[7, 8], [9]] ∧ slices.length = 1 := by
  intro config request actions
  obtain ⟨run, ran, shown⟩ := Option.map_eq_some_iff.mp
    (show (Machine.run step (start config 16 100 (some 0) 1 : ServiceRun Int) actions).map
        (fun run => (run.returned, run.workers[0]?, (batchTokenIds run.service [3]).length,
          requested run.service [3])) =
          some ([[0, 1], [3]], some (.holding [3]), 2, 2) by decide +kernel)
  obtain ⟨returned, rest⟩ := Prod.mk.inj shown
  obtain ⟨holds, sizes⟩ := Prod.mk.inj rest
  obtain ⟨enough, asked⟩ := Prod.mk.inj sizes
  have completed : run.step (.complete 0 [[7, 8], [9]] 1) =
      some (run.setWorker 0 (.completing (responses run.service [[7, 8], [9]] 1 0 [3]))) := by
    simp only [step, holds, asked, List.length_cons, List.length_nil, if_true]
  obtain ⟨-, inOrder, bounded, -, delivers⟩ :=
    batches_in_order config 16 100 (some 0) 1 actions run ran
  obtain ⟨sublist, overtaken⟩ := inOrder (by decide +kernel)
  obtain ⟨slices, joined, matched, -⟩ :=
    delivers 0 [3] [[7, 8], [9]] 1 _ holds (by rw [enough]; decide) completed
  refine ⟨run, ran, returned, sublist, overtaken 2 3 ?_ ?_ (by decide), bounded [0, 1] ?_ (by decide),
    _, slices, completed, joined, matched.length_eq.symm⟩
  · rw [returned]
    decide
  · rw [returned]
    decide
  · rw [returned]
    decide

end ServiceRun

end PrimeRl.Value
