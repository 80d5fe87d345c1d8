import PrimeRl.Support.Machine
import PrimeRl.Trainer.RunSlots
import PrimeRl.Transport.Receivers

/-!
# Runs, their producers and a receiver

A run identifier is launched, discovered, forgotten and launched again. Each
launch is an incarnation with a producer of its own, which may go on sending after
its run has been forgotten. The trainer forgets a run by resetting its index in the
receiver and deleting its data.
-/

namespace PrimeRl.Transport.Receivers

open PrimeRl.Trainer PrimeRl.Trainer.Runs PrimeRl.Trainer.Packer

variable {Scalar Link : Type}

/-- One launch of a run identifier, and what its producer has sent. -/
structure Incarnation (Scalar : Type) where
  runId : String
  start : Int
  sent : List (TrainingBatch Scalar)

/-- What lies between producers and the trainer, with the receiver. -/
structure Channel (Scalar Link : Type) where
  launch : Link → String → Link
  send : Link → String → Sent Scalar → Link
  arrive : Link → Nat → Link
  resetRun : Link → Nat → Link
  receive : MultiRunManager → Link → Except String (List (Sent Scalar) × Link)

/-- `current` gives the incarnation of a run identifier that is not forgotten. -/
structure World (Scalar Link : Type) where
  manager : MultiRunManager
  incarnations : List (Incarnation Scalar)
  current : String → Option Nat
  link : Link
  returned : List (Sent Scalar)

inductive Event (Scalar : Type) where
  | launch (runId : String) (start : Int)
  | create (runId : String) (idx : Nat) (ckptSteps : List Int) (config : OrchestratorConfig)
  | forget (runId : String)
  | send (incarnation : Nat) (batch : TrainingBatch Scalar)
  | arrive (incarnation : Nat)
  | setReady (idx : Nat) (ready : Bool)
  | advance (idx : Nat) (progress : Progress)
  | receive

section World
variable (bf16 : Rat → Rat) (channel : Channel Scalar Link)

def World.init (rank maxRuns : Nat) (link : Link) : World Scalar Link where
  manager := .init bf16 rank maxRuns
  incarnations := []
  current := fun _ => none
  link := link
  returned := []

/-- A run identifier is launched again only when it has been forgotten. -/
def World.launch (world : World Scalar Link) (runId : String) (start : Int) :
    Option (World Scalar Link) :=
  if (world.current runId).isSome then none
  else
    some { world with
      incarnations := world.incarnations ++ [⟨runId, start, []⟩]
      current := Function.update world.current runId (some world.incarnations.length)
      link := channel.launch world.link runId }

def World.create (world : World Scalar Link) (runId : String) (idx : Nat) (ckptSteps : List Int)
    (config : OrchestratorConfig) : Option (World Scalar Link) :=
  if runId ∈ world.manager.id2Idx ∨ (world.current runId).isNone then none
  else
    match world.manager.createRunData ckptSteps runId idx config with
    | .error _ => none
    | .ok manager => some { world with manager := manager }

/-- The forgotten hook resets the receiver, then the run's data is deleted. -/
def World.forget (world : World Scalar Link) (runId : String) : Option (World Scalar Link) :=
  match world.manager.id2Idx.lookup runId with
  | none => none
  | some idx =>
      match world.manager.deleteRunData bf16 runId idx with
      | .error _ => none
      | .ok manager =>
          some { world with
            manager := manager
            current := Function.update world.current runId none
            link := channel.resetRun world.link idx }

/-- A producer sends each step at most once, in increasing order. -/
def World.send (world : World Scalar Link) (incarnation : Nat) (batch : TrainingBatch Scalar) :
    Option (World Scalar Link) :=
  match world.incarnations[incarnation]? with
  | none => none
  | some producer =>
      if producer.start ≤ batch.step ∧ ∀ earlier ∈ producer.sent, earlier.step < batch.step then
        some { world with
          incarnations := world.incarnations.set incarnation
            { producer with sent := producer.sent ++ [batch] }
          link := channel.send world.link producer.runId { batch with sender := incarnation } }
      else none

def World.receive (world : World Scalar Link) : Option (World Scalar Link) :=
  match channel.receive world.manager world.link with
  | .error _ => none
  | .ok (batches, link) => some { world with link := link, returned := world.returned ++ batches }

def World.step (world : World Scalar Link) : Event Scalar → Option (World Scalar Link)
  | .launch runId start => world.launch channel runId start
  | .create runId idx ckptSteps config => world.create runId idx ckptSteps config
  | .forget runId => world.forget bf16 channel runId
  | .send incarnation batch => world.send channel incarnation batch
  | .arrive incarnation => some { world with link := channel.arrive world.link incarnation }
  | .setReady idx ready =>
      some { world with manager := { world.manager with
        readyToUpdate := world.manager.readyToUpdate.set idx ready } }
  | .advance idx progress =>
      if idx ∈ world.manager.progress then
        some { world with manager := { world.manager with
          progress := world.manager.progress.insert idx progress } }
      else none
  | .receive => world.receive channel

/-- The incarnation that owns a run index. -/
def World.owner (world : World Scalar Link) (idx : Nat) : Option Nat :=
  (world.manager.idx2Id.lookup idx).bind world.current

/-- A batch is one that the owner of its run index has sent, that index takes
batches, and everything returned of its sender before is of an earlier step. -/
structure Rightful (world : World Scalar Link) (batch : Sent Scalar) : Prop where
  owned : ∃ idx, batch.runIdx = some idx ∧ world.owner idx = some batch.sender ∧
    isReady world.manager idx = false
  sent : ∃ producer original, world.incarnations[batch.sender]? = some producer ∧
    original ∈ producer.sent ∧
    batch.toTrainingBatch = { original with runIdx := batch.runIdx }
  later : ∀ earlier ∈ world.returned, earlier.sender = batch.sender → earlier.step < batch.step

/-- A call of the receiver raises nothing and returns rightful batches, one at most
of each incarnation. -/
def Upholds (world : World Scalar Link) (event : Event Scalar) : Prop :=
  match event with
  | .receive => ∃ batches link, channel.receive world.manager world.link = .ok (batches, link) ∧
      (∀ batch ∈ batches, Rightful world batch) ∧ (batches.map (fun batch => batch.sender)).Nodup
  | _ => True

end World

/-! ## Slots and incarnations -/

/-- The manager's tables agree, and the current incarnation of a run identifier is
one of its launches. -/
structure Housed (world : World Scalar Link) : Prop where
  consistent : Consistent world.manager
  launched : ∀ runId incarnation, world.current runId = some incarnation →
    ∃ producer, world.incarnations[incarnation]? = some producer ∧ producer.runId = runId
  ascending : ∀ producer ∈ world.incarnations,
    (producer.sent.map (fun batch => batch.step)).Pairwise (· < ·)

theorem Housed.same_run {world : World Scalar Link} (housed : Housed world) {runId other : String}
    {incarnation : Nat} (isCurrent : world.current runId = some incarnation)
    (otherCurrent : world.current other = some incarnation) : runId = other := by
  obtain ⟨producer, isProducer, rfl⟩ := housed.launched runId incarnation isCurrent
  obtain ⟨another, isAnother, rfl⟩ := housed.launched other incarnation otherCurrent
  rw [isProducer] at isAnother
  rw [Option.some.inj isAnother]

theorem used_named (manager : MultiRunManager) :
    ∀ idx ∈ usedIdxs manager, ∃ runId, manager.idx2Id.lookup idx = some runId := by
  intro idx listed
  have isKey := (Iteration.ascending.lists _ idx).mp listed
  exact Option.isSome_iff_exists.mp (Finmap.lookup_isSome.mpr (Finmap.mem_keys.mp isKey))

theorem named_once {manager : MultiRunManager} (consistent : Consistent manager) {idx other : Nat}
    {runId : String} (named : manager.idx2Id.lookup idx = some runId)
    (otherNamed : manager.idx2Id.lookup other = some runId) : idx = other := by
  have first := (consistent.slots.inverse runId idx).mpr named
  have second := (consistent.slots.inverse runId other).mpr otherNamed
  exact Option.some.inj (first.symm.trans second)

theorem housed_init (bf16 : Rat → Rat) (rank maxRuns : Nat) (link : Link) :
    Housed (World.init bf16 rank maxRuns link : World Scalar Link) where
  consistent := consistent_init bf16 rank maxRuns
  launched := fun _ _ impossible => absurd impossible.symm (Option.some_ne_none _)
  ascending := fun _ impossible => absurd impossible List.not_mem_nil

/-- Every step keeps the tables in agreement. -/
theorem Housed.step {bf16 : Rat → Rat} {channel : Channel Scalar Link} {world next : World Scalar Link}
    (housed : Housed world) (event : Event Scalar)
    (stepped : world.step bf16 channel event = some next) : Housed next := by
  cases event with
  | launch runId start =>
    rw [World.step, World.launch] at stepped
    split at stepped
    · cases stepped
    · obtain rfl := Option.some.inj stepped
      refine ⟨housed.consistent, ?_, ?_⟩
      · intro other incarnation isCurrent
        change Function.update world.current runId (some world.incarnations.length) other =
          some incarnation at isCurrent
        change ∃ producer, (world.incarnations ++ [⟨runId, start, []⟩])[incarnation]? = some producer ∧ _
        by_cases same : other = runId
        · rw [same, Function.update_self] at isCurrent
          obtain rfl := Option.some.inj isCurrent
          exact ⟨_, List.getElem?_concat_length, same.symm⟩
        · rw [Function.update_of_ne same] at isCurrent
          obtain ⟨producer, found, isRun⟩ := housed.launched other incarnation isCurrent
          refine ⟨producer, ?_, isRun⟩
          rw [List.getElem?_append_left (List.getElem?_eq_some_iff.mp found).1]
          exact found
      · intro producer listed
        rcases List.mem_append.mp listed with before | last
        · exact housed.ascending producer before
        · rw [List.mem_singleton.mp last]
          exact List.Pairwise.nil
  | create runId idx ckptSteps config =>
    rw [World.step, World.create] at stepped
    split at stepped
    · cases stepped
    · rename_i fresh
      rw [not_or] at fresh
      split at stepped
      · cases stepped
      · rename_i manager created
        obtain rfl := Option.some.inj stepped
        have free : idx ∈ world.manager.unusedIdxs := by
          rw [MultiRunManager.createRunData] at created
          split at created
          · assumption
          · cases created
        obtain ⟨after, isAfter, consistent, -⟩ :=
          create_run_data_spec housed.consistent ckptSteps config fresh.1 free
        rw [created] at isAfter
        obtain rfl := Except.ok.inj isAfter
        exact ⟨consistent, housed.launched, housed.ascending⟩
  | forget runId =>
    rw [World.step, World.forget] at stepped
    split at stepped
    · cases stepped
    · rename_i idx held
      obtain ⟨after, isAfter, consistent, -⟩ := delete_run_data_spec bf16 housed.consistent held
      rw [isAfter] at stepped
      obtain rfl := Option.some.inj stepped
      refine ⟨consistent, ?_, housed.ascending⟩
      intro other incarnation isCurrent
      change Function.update world.current runId none other = some incarnation at isCurrent
      by_cases same : other = runId
      · rw [same, Function.update_self] at isCurrent
        cases isCurrent
      · rw [Function.update_of_ne same] at isCurrent
        exact housed.launched other incarnation isCurrent
  | send incarnation batch =>
    rw [World.step, World.send] at stepped
    split at stepped
    · cases stepped
    · rename_i producer found
      split at stepped
      · rename_i inOrder
        obtain rfl := Option.some.inj stepped
        refine ⟨housed.consistent, ?_, ?_⟩
        · intro runId other isCurrent
          obtain ⟨current, isProducer, isRun⟩ := housed.launched runId other isCurrent
          change ∃ producer', (world.incarnations.set incarnation
            { producer with sent := producer.sent ++ [batch] })[other]? = some producer' ∧ _
          by_cases same : incarnation = other
          · rw [same] at found
            rw [found] at isProducer
            obtain rfl := Option.some.inj isProducer
            refine ⟨{ producer with sent := producer.sent ++ [batch] }, ?_, isRun⟩
            rw [same, List.getElem?_set_self (List.getElem?_eq_some_iff.mp found).1]
          · rw [List.getElem?_set_ne same]
            exact ⟨current, isProducer, isRun⟩
        · intro other listed
          rcases List.mem_or_eq_of_mem_set listed with before | rfl
          · exact housed.ascending other before
          · change ((producer.sent ++ [batch]).map (fun batch => batch.step)).Pairwise (· < ·)
            rw [List.map_append]
            refine List.pairwise_append.mpr
              ⟨housed.ascending producer (List.mem_of_getElem? found), List.pairwise_singleton _ _, ?_⟩
            intro step before last isLast
            obtain ⟨earlier, isEarlier, rfl⟩ := List.mem_map.mp before
            rw [List.mem_singleton.mp isLast]
            exact inOrder.2 earlier isEarlier
      · cases stepped
  | arrive incarnation =>
    obtain rfl := Option.some.inj stepped
    exact ⟨housed.consistent, housed.launched, housed.ascending⟩
  | setReady idx ready =>
    obtain rfl := Option.some.inj stepped
    have consistent := housed.consistent
    exact ⟨⟨consistent.slots, consistent.progress_keys, consistent.config_keys,
      consistent.scaling_length⟩, housed.launched, housed.ascending⟩
  | advance idx progress =>
    rw [World.step] at stepped
    split at stepped
    · rename_i known
      obtain rfl := Option.some.inj stepped
      have consistent := housed.consistent
      refine ⟨⟨consistent.slots, ?_, consistent.config_keys, consistent.scaling_length⟩,
        housed.launched, housed.ascending⟩
      intro other
      change other ∈ world.manager.progress.insert idx progress ↔ _
      rw [Finmap.mem_insert, ← consistent.progress_keys other]
      constructor
      · rintro (rfl | member)
        · exact known
        · exact member
      · exact Or.inr
    · cases stepped
  | receive =>
    rw [World.step, World.receive] at stepped
    split at stepped
    · cases stepped
    · obtain rfl := Option.some.inj stepped
      exact ⟨housed.consistent, housed.launched, housed.ascending⟩

/-- A run that is created had no index, its index had no run, and it is launched. -/
theorem created_world {world next : World Scalar Link} (housed : Housed world) {runId : String}
    {idx : Nat} {ckptSteps : List Int} {config : OrchestratorConfig}
    (created : world.create runId idx ckptSteps config = some next) :
    runId ∉ world.manager.id2Idx ∧ idx ∉ world.manager.idx2Id ∧ (world.current runId).isSome ∧
      next = { world with manager := next.manager } ∧
      next.manager.idx2Id = world.manager.idx2Id.insert idx runId := by
  rw [World.create] at created
  split at created
  · cases created
  · rename_i accepted
    rw [not_or, Option.isNone_iff_eq_none, ← ne_eq, Option.ne_none_iff_isSome] at accepted
    split at created
    · cases created
    · rename_i manager made
      obtain rfl := Option.some.inj created
      rw [MultiRunManager.createRunData] at made
      split at made
      · rename_i free
        obtain rfl := Except.ok.inj made
        have vacant := ((housed.consistent.slots.free_iff idx).mp free).2
        exact ⟨accepted.1, vacant, accepted.2, rfl, rfl⟩
      · cases made

/-- Forgetting a run frees its index and resets it. -/
theorem forgotten_world {bf16 : Rat → Rat} {channel : Channel Scalar Link}
    {world next : World Scalar Link} (housed : Housed world) {runId : String}
    (forgotten : world.forget bf16 channel runId = some next) :
    ∃ idx, world.manager.idx2Id.lookup idx = some runId ∧
      next.manager.idx2Id = world.manager.idx2Id.erase idx ∧
      next = { world with
        manager := next.manager
        current := Function.update world.current runId none
        link := channel.resetRun world.link idx } := by
  rw [World.forget] at forgotten
  split at forgotten
  · cases forgotten
  · rename_i idx held
    split at forgotten
    · cases forgotten
    · rename_i manager deleted
      obtain rfl := Option.some.inj forgotten
      refine ⟨idx, (housed.consistent.slots.inverse runId idx).mp held, ?_, rfl⟩
      rw [MultiRunManager.deleteRunData] at deleted
      split at deleted
      · cases deleted
      · split at deleted
        · cases deleted
        · split at deleted
          · cases deleted
          · obtain rfl := Except.ok.inj deleted
            rfl

/-! ## What has been sent -/

/-- A producer of the run identifier has sent the batch. -/
def SentUnder (incarnations : List (Incarnation Scalar)) (runId : String) (batch : Sent Scalar) : Prop :=
  ∃ producer, incarnations[batch.sender]? = some producer ∧ producer.runId = runId ∧
    batch.toTrainingBatch ∈ producer.sent

/-- Launches and sends only add. -/
def Grown (before after : List (Incarnation Scalar)) : Prop :=
  ∀ (incarnation : Nat) (producer : Incarnation Scalar), before[incarnation]? = some producer →
    ∃ later, after[incarnation]? = some later ∧ later.runId = producer.runId ∧
      producer.sent <+: later.sent

theorem SentUnder.grown {before after : List (Incarnation Scalar)} {runId : String}
    {batch : Sent Scalar} (sent : SentUnder before runId batch) (grown : Grown before after) :
    SentUnder after runId batch := by
  obtain ⟨producer, isProducer, rfl, listed⟩ := sent
  obtain ⟨later, isLater, sameRun, more⟩ := grown batch.sender producer isProducer
  exact ⟨later, isLater, sameRun, more.subset listed⟩

theorem grown_launch (incarnations : List (Incarnation Scalar)) (launched : Incarnation Scalar) :
    Grown incarnations (incarnations ++ [launched]) := by
  intro incarnation producer found
  refine ⟨producer, ?_, rfl, List.prefix_rfl⟩
  rw [List.getElem?_append_left (List.getElem?_eq_some_iff.mp found).1]
  exact found

theorem grown_send {incarnations : List (Incarnation Scalar)} {incarnation : Nat}
    {producer : Incarnation Scalar} (found : incarnations[incarnation]? = some producer)
    (batch : TrainingBatch Scalar) :
    Grown incarnations
      (incarnations.set incarnation { producer with sent := producer.sent ++ [batch] }) := by
  intro other current isCurrent
  by_cases same : incarnation = other
  · rw [← same, found] at isCurrent
    obtain rfl := Option.some.inj isCurrent
    rw [← same]
    refine ⟨{ producer with sent := producer.sent ++ [batch] }, ?_, rfl, List.prefix_append _ _⟩
    exact List.getElem?_set_self (List.getElem?_eq_some_iff.mp found).1
  · refine ⟨current, ?_, rfl, List.prefix_rfl⟩
    rw [List.getElem?_set_ne same]
    exact isCurrent

theorem SentUnder.known {incarnations : List (Incarnation Scalar)} {runId : String}
    {batch : Sent Scalar} (sent : SentUnder incarnations runId batch) :
    batch.sender < incarnations.length := by
  obtain ⟨producer, isProducer, -⟩ := sent
  exact (List.getElem?_eq_some_iff.mp isProducer).1

theorem SentUnder.same_run {incarnations : List (Incarnation Scalar)} {runId other : String}
    {batch another : Sent Scalar} (sent : SentUnder incarnations runId batch)
    (otherSent : SentUnder incarnations other another) (same : batch.sender = another.sender) :
    runId = other := by
  obtain ⟨producer, isProducer, rfl, -⟩ := sent
  obtain ⟨current, isCurrent, rfl, -⟩ := otherSent
  rw [same, isCurrent] at isProducer
  rw [Option.some.inj isProducer]

end PrimeRl.Transport.Receivers
