import PrimeRl.Transport.FileReceiver
import PrimeRl.Transport.SocketRuns

/-!
# Runs over files

A batch is written under its run identifier and its step. As long as no producer
of a forgotten run writes into the directory of its successor, every file there is
of the current producer, and the step to read next is above everything returned.
-/

namespace PrimeRl.Transport.Receivers

open PrimeRl.Trainer PrimeRl.Trainer.Runs PrimeRl.Trainer.Packer

variable {Scalar : Type}

structure FileLink (Scalar : Type) where
  files : Files Scalar
  receivedSteps : ReceivedSteps

def FileLink.init : FileLink Scalar where
  files := fun _ _ => none
  receivedSteps := ∅

/-- A run directory that is created again starts empty. -/
def FileLink.launch (link : FileLink Scalar) (runId : String) : FileLink Scalar :=
  { link with files := Function.update link.files runId (fun _ => none) }

def FileLink.send (link : FileLink Scalar) (runId : String) (batch : Sent Scalar) : FileLink Scalar :=
  { link with
    files := Function.update link.files runId
      (Function.update (link.files runId) batch.step (some batch)) }

def FileLink.receive (manager : MultiRunManager) (link : FileLink Scalar) :
    Except String (List (Sent Scalar) × FileLink Scalar) :=
  match fileReceive manager link.receivedSteps link.files with
  | .error message => .error message
  | .ok (batches, receivedSteps) => .ok (batches, { link with receivedSteps := receivedSteps })

def fileChannel : Channel Scalar (FileLink Scalar) where
  launch := FileLink.launch
  send := FileLink.send
  arrive := fun link _ => link
  resetRun := fun link idx => { link with receivedSteps := fileResetRun link.receivedSteps idx }
  receive := FileLink.receive

/-- No producer writes when its run identifier has been launched again. -/
def Undisturbed (world : World Scalar (FileLink Scalar)) (event : Event Scalar) : Prop :=
  match event with
  | .send incarnation _ => ∀ producer, world.incarnations[incarnation]? = some producer →
      ∀ other, world.current producer.runId = some other → other = incarnation
  | _ => True

instance Undisturbed.decidable (world : World Scalar (FileLink Scalar)) (event : Event Scalar) :
    Decidable (Undisturbed world event) :=
  match event with
  | .send incarnation _ =>
      decidable_of_iff
        (∀ producer ∈ world.incarnations[incarnation]?,
          ∀ other ∈ world.current producer.runId, other = incarnation) Iff.rfl
  | .launch .. | .create .. | .forget .. | .arrive .. | .setReady .. | .advance .. | .receive =>
      isTrue trivial

/-- Files of a run identifier are its current producer's, and the next step of an
index is above everything returned of its owner. -/
structure Filed (world : World Scalar (FileLink Scalar)) : Prop where
  housed : Housed world
  named : ∀ idx ∈ world.link.receivedSteps, idx ∈ world.manager.idx2Id
  created : ∀ idx runId, world.manager.idx2Id.lookup idx = some runId → (world.current runId).isSome
  filed : ∀ runId incarnation, world.current runId = some incarnation →
    ∀ step batch, world.link.files runId step = some batch →
      batch.sender = incarnation ∧ batch.step = step ∧ SentUnder world.incarnations runId batch
  read : ∀ idx runId incarnation, world.manager.idx2Id.lookup idx = some runId →
    world.current runId = some incarnation →
    ∀ batch ∈ world.returned, batch.sender = incarnation →
      ∃ step, world.link.receivedSteps.lookup idx = some step ∧ batch.step < step
  unread : ∀ runId incarnation, world.current runId = some incarnation →
    (∀ idx, world.manager.idx2Id.lookup idx ≠ some runId) →
    ∀ batch ∈ world.returned, batch.sender ≠ incarnation
  known : ∀ batch ∈ world.returned, batch.sender < world.incarnations.length

theorem filed_init (bf16 : Rat → Rat) (rank maxRuns : Nat) :
    Filed (World.init bf16 rank maxRuns FileLink.init : World Scalar (FileLink Scalar)) where
  housed := housed_init bf16 rank maxRuns _
  named := fun _ impossible => absurd impossible Finmap.notMem_empty
  created := fun _ _ impossible => absurd impossible.symm (Option.some_ne_none _)
  filed := fun _ _ impossible => absurd impossible.symm (Option.some_ne_none _)
  read := fun _ _ _ impossible => absurd impossible.symm (Option.some_ne_none _)
  unread := fun _ _ impossible => absurd impossible.symm (Option.some_ne_none _)
  known := fun _ impossible => absurd impossible List.not_mem_nil

section Steps
variable {world next : World Scalar (FileLink Scalar)}

/-- A launch empties the directory of an identifier that no index holds. -/
theorem Filed.launch (filed : Filed world) {runId : String} {start : Int} (housed : Housed next)
    (launched : world.launch fileChannel runId start = some next) : Filed next := by
  rw [World.launch] at launched
  split at launched
  · cases launched
  · rename_i forgotten
    obtain rfl := Option.some.inj launched
    have grown := grown_launch world.incarnations ⟨runId, start, []⟩
    have others {other : String} {incarnation : Nat} (different : other ≠ runId)
        (isCurrent : Function.update world.current runId (some world.incarnations.length) other =
          some incarnation) : world.current other = some incarnation := by
      rw [Function.update_of_ne different] at isCurrent
      exact isCurrent
    refine ⟨housed, filed.named, ?_, ?_, ?_, ?_, ?_⟩
    · intro idx other isNamed
      change (Function.update world.current runId (some world.incarnations.length) other).isSome
      by_cases same : other = runId
      · rw [same, Function.update_self]
        rfl
      · rw [Function.update_of_ne same]
        exact filed.created idx other isNamed
    · intro other incarnation isCurrent step batch stored
      change Function.update world.link.files runId (fun _ => none) other step = some batch at stored
      by_cases same : other = runId
      · rw [same, Function.update_self] at stored
        cases stored
      · rw [Function.update_of_ne same] at stored
        obtain ⟨isSender, isStep, sent⟩ :=
          filed.filed other incarnation (others same isCurrent) step batch stored
        exact ⟨isSender, isStep, sent.grown grown⟩
    · intro idx other incarnation isNamed isCurrent
      have different : other ≠ runId := by
        rintro rfl
        exact forgotten (filed.created idx other isNamed)
      exact filed.read idx other incarnation isNamed (others different isCurrent)
    · intro other incarnation isCurrent unheld batch listed
      by_cases same : other = runId
      · change Function.update world.current runId (some world.incarnations.length) other = _ at isCurrent
        rw [same, Function.update_self] at isCurrent
        rw [← Option.some.inj isCurrent]
        exact Nat.ne_of_lt (filed.known batch listed)
      · exact filed.unread other incarnation (others same isCurrent) unheld batch listed
    · intro batch listed
      have length : (world.incarnations ++ [(⟨runId, start, []⟩ : Incarnation Scalar)]).length =
          world.incarnations.length + 1 := List.length_append
      exact length ▸ Nat.lt_succ_of_lt (filed.known batch listed)

/-- A run that is created has no step to read yet, and nothing has been returned of
its producer. -/
theorem Filed.create (filed : Filed world) {runId : String} {idx : Nat} {ckptSteps : List Int}
    {config : OrchestratorConfig} (housed : Housed next)
    (isCreated : world.create runId idx ckptSteps config = some next) : Filed next := by
  obtain ⟨fresh, vacant, launched, isNext, names⟩ := created_world filed.housed isCreated
  have unheld (other : Nat) : world.manager.idx2Id.lookup other ≠ some runId := by
    intro isNamed
    exact fresh (Finmap.mem_of_lookup_eq_some
      ((filed.housed.consistent.slots.inverse runId other).mpr isNamed))
  rw [isNext] at housed ⊢
  constructor
  · exact housed
  · intro other listed
    change other ∈ next.manager.idx2Id
    rw [names]
    exact Finmap.mem_insert.mpr (.inr (filed.named other listed))
  · intro other otherId isNamed
    change next.manager.idx2Id.lookup other = some otherId at isNamed
    rw [names] at isNamed
    by_cases same : other = idx
    · rw [same, Finmap.lookup_insert] at isNamed
      rw [← Option.some.inj isNamed]
      exact launched
    · rw [Finmap.lookup_insert_of_ne _ same] at isNamed
      exact filed.created other otherId isNamed
  · exact filed.filed
  · intro other otherId incarnation isNamed isCurrent batch listed isSender
    change next.manager.idx2Id.lookup other = some otherId at isNamed
    rw [names] at isNamed
    by_cases same : other = idx
    · rw [same, Finmap.lookup_insert] at isNamed
      obtain rfl := Option.some.inj isNamed
      exact absurd isSender (filed.unread runId incarnation isCurrent unheld batch listed)
    · rw [Finmap.lookup_insert_of_ne _ same] at isNamed
      exact filed.read other otherId incarnation isNamed isCurrent batch listed isSender
  · intro otherId incarnation isCurrent stillUnheld
    apply filed.unread otherId incarnation isCurrent
    intro other isNamed
    apply stillUnheld other
    change next.manager.idx2Id.lookup other = some otherId
    have different : other ≠ idx := by
      rintro rfl
      exact vacant (Finmap.mem_of_lookup_eq_some isNamed)
    rw [names, Finmap.lookup_insert_of_ne _ different]
    exact isNamed
  · exact filed.known

/-- Forgetting a run forgets the step of its index. -/
theorem Filed.forget {bf16 : Rat → Rat} (filed : Filed world) {runId : String} (housed : Housed next)
    (forgotten : world.forget bf16 fileChannel runId = some next) : Filed next := by
  obtain ⟨idx, wasNamed, names, isNext⟩ := forgotten_world filed.housed forgotten
  rw [isNext] at housed ⊢
  have others {other : String} {incarnation : Nat}
      (isCurrent : Function.update world.current runId none other = some incarnation) :
      other ≠ runId ∧ world.current other = some incarnation := by
    by_cases same : other = runId
    · rw [same, Function.update_self] at isCurrent
      cases isCurrent
    · rw [Function.update_of_ne same] at isCurrent
      exact ⟨same, isCurrent⟩
  have remaining {other : Nat} {otherId : String}
      (isNamed : next.manager.idx2Id.lookup other = some otherId) :
      other ≠ idx ∧ world.manager.idx2Id.lookup other = some otherId := by
    rw [names] at isNamed
    by_cases same : other = idx
    · rw [same, Finmap.lookup_erase] at isNamed
      cases isNamed
    · rw [Finmap.lookup_erase_ne same] at isNamed
      exact ⟨same, isNamed⟩
  constructor
  · exact housed
  · intro other listed
    change other ∈ world.link.receivedSteps.erase idx at listed
    change other ∈ next.manager.idx2Id
    rw [names]
    obtain ⟨different, before⟩ := Finmap.mem_erase.mp listed
    exact Finmap.mem_erase.mpr ⟨different, filed.named other before⟩
  · intro other otherId isNamed
    obtain ⟨different, before⟩ := remaining isNamed
    have otherRun : otherId ≠ runId := by
      rintro rfl
      exact different (named_once filed.housed.consistent before wasNamed)
    change (Function.update world.current runId none otherId).isSome
    rw [Function.update_of_ne otherRun]
    exact filed.created other otherId before
  · intro other incarnation isCurrent
    exact filed.filed other incarnation (others isCurrent).2
  · intro other otherId incarnation isNamed isCurrent batch listed isSender
    obtain ⟨different, before⟩ := remaining isNamed
    obtain ⟨step, isStep, below⟩ :=
      filed.read other otherId incarnation before (others isCurrent).2 batch listed isSender
    refine ⟨step, ?_, below⟩
    change (world.link.receivedSteps.erase idx).lookup other = some step
    rw [Finmap.lookup_erase_ne different]
    exact isStep
  · intro other incarnation isCurrent unheld
    obtain ⟨otherRun, before⟩ := others isCurrent
    apply filed.unread other incarnation before
    intro slot isNamed
    apply unheld slot
    change next.manager.idx2Id.lookup slot = some other
    have different : slot ≠ idx := by
      rintro rfl
      rw [wasNamed] at isNamed
      exact otherRun (Option.some.inj isNamed).symm
    rw [names, Finmap.lookup_erase_ne different]
    exact isNamed
  · exact filed.known

/-- The current producer writes a file of its own. -/
theorem Filed.send (filed : Filed world) {incarnation : Nat} {batch : TrainingBatch Scalar}
    (undisturbed : Undisturbed world (.send incarnation batch)) (housed : Housed next)
    (sends : world.send fileChannel incarnation batch = some next) : Filed next := by
  rw [World.send] at sends
  split at sends
  · cases sends
  · rename_i producer found
    split at sends
    · obtain rfl := Option.some.inj sends
      have grown := grown_send found batch
      refine ⟨housed, filed.named, filed.created, ?_, filed.read, filed.unread, ?_⟩
      · intro runId other isCurrent step stored isStored
        change Function.update world.link.files producer.runId
          (Function.update (world.link.files producer.runId) batch.step
            (some { batch with sender := incarnation })) runId step = some stored at isStored
        have before (old : world.link.files runId step = some stored) :
            stored.sender = other ∧ stored.step = step ∧ SentUnder (world.incarnations.set incarnation
              { producer with sent := producer.sent ++ [batch] }) runId stored := by
          obtain ⟨isSender, isStep, sent⟩ := filed.filed runId other isCurrent step stored old
          exact ⟨isSender, isStep, sent.grown grown⟩
        by_cases same : runId = producer.runId
        · rw [same, Function.update_self] at isStored
          by_cases sameStep : step = batch.step
          · rw [sameStep, Function.update_self] at isStored
            obtain rfl := Option.some.inj isStored
            have isOwner := undisturbed producer found other (same ▸ isCurrent)
            refine ⟨isOwner.symm, sameStep.symm,
              { producer with sent := producer.sent ++ [batch] }, ?_, same.symm, ?_⟩
            · exact List.getElem?_set_self (List.getElem?_eq_some_iff.mp found).1
            · exact List.mem_append_right _ (List.mem_singleton_self _)
          · rw [Function.update_of_ne sameStep] at isStored
            exact before (same ▸ isStored)
        · rw [Function.update_of_ne same] at isStored
          exact before isStored
      · intro earlier listed
        change earlier.sender < (world.incarnations.set incarnation _).length
        rw [List.length_set]
        exact filed.known earlier listed
    · cases sends

/-- A change of the manager that moves no run. -/
theorem Filed.of_same (filed : Filed world) (manager : MultiRunManager)
    (housed : Housed { world with manager := manager })
    (names : manager.idx2Id = world.manager.idx2Id) : Filed { world with manager := manager } where
  housed := housed
  named := fun idx listed => names ▸ filed.named idx listed
  created := fun idx runId isNamed => filed.created idx runId (names ▸ isNamed)
  filed := filed.filed
  read := fun idx runId incarnation isNamed => filed.read idx runId incarnation (names ▸ isNamed)
  unread := fun runId incarnation isCurrent unheld =>
    filed.unread runId incarnation isCurrent (fun idx isNamed => unheld idx (names ▸ isNamed))
  known := filed.known

/-- What a call returns and leaves. -/
theorem Filed.receives (filed : Filed world) :
    ∃ looked receivedSteps, world.link.receive world.manager =
        .ok ((usedIdxs world.manager).filterMap
            (readBatch world.manager world.link.files looked),
          { world.link with receivedSteps := receivedSteps }) ∧
      Settled world.link.receivedSteps looked (usedIdxs world.manager) ∧
      ∀ idx, receivedSteps.lookup idx =
        nextStep world.manager world.link.files looked (usedIdxs world.manager) idx := by
  obtain ⟨looked, receivedSteps, received, settled, isNext⟩ :=
    file_receive_spec filed.housed.consistent world.link.receivedSteps world.link.files
  refine ⟨looked, receivedSteps, ?_, settled, isNext⟩
  rw [FileLink.receive, received]

/-- A batch that is read is of the current producer of its run. -/
theorem Filed.reads (filed : Filed world) {looked : ReceivedSteps} {idx : Nat} {batch : Sent Scalar}
    (isRead : readBatch world.manager world.link.files looked idx = some batch) :
    isReady world.manager idx = false ∧ looked.lookup idx = some batch.step ∧
      ∃ runId stored, world.manager.idx2Id.lookup idx = some runId ∧
        world.current runId = some batch.sender ∧ SentUnder world.incarnations runId stored ∧
        stored.mark idx = batch := by
  obtain ⟨ready, runId, step, stored, isNamed, isStep, isStored, rfl⟩ :=
    (readBatch_eq_some_iff _ _ _ idx batch).mp isRead
  obtain ⟨incarnation, isCurrent⟩ := Option.isSome_iff_exists.mp (filed.created idx runId isNamed)
  obtain ⟨rfl, rfl, sent⟩ := filed.filed runId incarnation isCurrent step stored isStored
  exact ⟨ready, isStep, runId, stored, isNamed, isCurrent, sent, rfl⟩

/-- A call returns rightful batches. -/
theorem Filed.upholds (filed : Filed world) : Upholds fileChannel world .receive := by
  obtain ⟨looked, receivedSteps, receives, settled, -⟩ := filed.receives
  refine ⟨_, _, receives, ?_, ?_⟩
  · intro batch listed
    obtain ⟨idx, -, isRead⟩ := List.mem_filterMap.mp listed
    obtain ⟨ready, isStep, runId, stored, isNamed, isCurrent, ⟨producer, found, -, sent⟩, rfl⟩ :=
      filed.reads isRead
    refine ⟨⟨idx, rfl, ?_, ready⟩, ⟨producer, stored.toTrainingBatch, found, sent, rfl⟩, ?_⟩
    · rw [World.owner, isNamed]
      exact isCurrent
    · intro earlier returned isSender
      obtain ⟨step, isNext, below⟩ :=
        filed.read idx runId _ isNamed isCurrent earlier returned isSender
      have same := settled.kept idx step isNext
      rw [isStep] at same
      exact Option.some.inj same ▸ below
  · have isMapped : ((usedIdxs world.manager).filterMap
          (readBatch world.manager world.link.files looked)).map (fun batch => batch.sender) =
        (usedIdxs world.manager).filterMap (fun idx =>
          (readBatch world.manager world.link.files looked idx).map (fun batch => batch.sender)) :=
      List.map_filterMap
    rw [isMapped]
    refine List.Nodup.filterMap ?_ (Iteration.ascending.once _)
    intro idx other sender isSender isOther
    obtain ⟨batch, isRead, rfl⟩ := Option.map_eq_some_iff.mp isSender
    obtain ⟨another, otherRead, sameSender⟩ := Option.map_eq_some_iff.mp isOther
    obtain ⟨-, -, runId, stored, isNamed, isCurrent, -⟩ := filed.reads isRead
    obtain ⟨-, -, otherId, otherStored, otherNamed, otherCurrent, -⟩ := filed.reads otherRead
    rw [sameSender] at otherCurrent
    have sameRun := filed.housed.same_run isCurrent otherCurrent
    exact named_once filed.housed.consistent isNamed (sameRun ▸ otherNamed)

/-- A call moves the step of an index above the batch that it returns. -/
theorem Filed.receive (filed : Filed world) (housed : Housed next)
    (received : world.receive fileChannel = some next) : Filed next := by
  obtain ⟨looked, receivedSteps, receives, settled, isNext⟩ := filed.receives
  have calls : fileChannel.receive world.manager world.link = _ := receives
  rw [World.receive, calls] at received
  obtain rfl := Option.some.inj received
  refine ⟨housed, ?_, filed.created, filed.filed, ?_, ?_, ?_⟩
  · intro idx listed
    change idx ∈ receivedSteps at listed
    rw [← Finmap.lookup_isSome, isNext, nextStep] at listed
    have inLooked : idx ∈ looked := by
      rw [← Finmap.lookup_isSome]
      split at listed
      · rw [Option.isSome_map] at listed
        exact listed
      · exact listed
    rcases settled.only idx inLooked with before | isUsed
    · exact filed.named idx before
    · exact Finmap.mem_keys.mp ((Iteration.ascending.lists _ idx).mp isUsed)
  · intro idx runId incarnation isNamed isCurrent batch listed isSender
    change ∃ step, receivedSteps.lookup idx = some step ∧ _
    rw [isNext, nextStep]
    rcases List.mem_append.mp listed with before | now
    · obtain ⟨step, isStep, below⟩ :=
        filed.read idx runId incarnation isNamed isCurrent batch before isSender
      rw [settled.kept idx step isStep]
      split
      · exact ⟨step + 1, rfl, by omega⟩
      · exact ⟨step, rfl, below⟩
    · obtain ⟨other, isUsed, isRead⟩ := List.mem_filterMap.mp now
      obtain ⟨-, isStep, otherId, stored, otherNamed, otherCurrent, -, -⟩ := filed.reads isRead
      rw [isSender] at otherCurrent
      have sameRun := filed.housed.same_run otherCurrent isCurrent
      obtain rfl := named_once filed.housed.consistent isNamed (sameRun ▸ otherNamed)
      rw [if_pos ⟨isUsed, by rw [isRead]; rfl⟩, isStep]
      exact ⟨batch.step + 1, rfl, by omega⟩
  · intro runId incarnation isCurrent unheld batch listed isSender
    rcases List.mem_append.mp listed with before | now
    · exact filed.unread runId incarnation isCurrent unheld batch before isSender
    · obtain ⟨idx, -, isRead⟩ := List.mem_filterMap.mp now
      obtain ⟨-, -, other, stored, isNamed, otherCurrent, -, -⟩ := filed.reads isRead
      rw [isSender] at otherCurrent
      exact unheld idx (filed.housed.same_run otherCurrent isCurrent ▸ isNamed)
  · intro batch listed
    rcases List.mem_append.mp listed with before | now
    · exact filed.known batch before
    · obtain ⟨idx, -, isRead⟩ := List.mem_filterMap.mp now
      obtain ⟨-, -, runId, stored, -, -, sent, rfl⟩ := filed.reads isRead
      exact sent.known

/-- A step that writes into no successor's directory keeps the files apart. -/
theorem Filed.step {bf16 : Rat → Rat} (filed : Filed world) (event : Event Scalar)
    (undisturbed : Undisturbed world event)
    (stepped : world.step bf16 fileChannel event = some next) : Filed next := by
  have housed := filed.housed.step event stepped
  cases event with
  | launch runId start => exact filed.launch housed stepped
  | create runId idx ckptSteps config => exact filed.create housed stepped
  | forget runId => exact filed.forget housed stepped
  | send incarnation batch => exact filed.send undisturbed housed stepped
  | arrive incarnation =>
    obtain rfl := Option.some.inj stepped
    exact filed
  | setReady idx ready =>
    obtain rfl := Option.some.inj stepped
    exact filed.of_same _ housed rfl
  | advance idx progress =>
    rw [World.step] at stepped
    split at stepped
    · obtain rfl := Option.some.inj stepped
      exact filed.of_same _ housed rfl
    · cases stepped
  | receive => exact filed.receive housed stepped

end Steps

/-- Along every run whose producers write into no successor's directory every call
upholds the contract. -/
theorem file_runs (bf16 : Rat → Rat) (rank maxRuns : Nat) (events : List (Event Scalar))
    (undisturbed : Machine.Along (World.step bf16 fileChannel) Undisturbed
      (World.init bf16 rank maxRuns FileLink.init) events) :
    Machine.Along (World.step bf16 fileChannel) (Upholds fileChannel)
      (World.init bf16 rank maxRuns FileLink.init) events := by
  refine Machine.along_of_invariant Filed ?_ ?_ events (filed_init bf16 rank maxRuns) undisturbed
  · intro world event filed separate
    cases event with
    | receive => exact filed.upholds
    | _ => trivial
  · intro world event next filed separate stepped
    exact filed.step event separate stepped

/-! ## Incarnations -/

/-- Both receivers return every batch to the incarnation that sent it, once and in
the order of the steps, along every run in which no batch of an incarnation waits
under, and no file of it is written into, the run identifier of its successor. -/
theorem receivers_keep_incarnations (bf16 : Rat → Rat) (rank maxRuns : Nat)
    (events : List (Event Scalar)) :
    (Machine.Along (World.step bf16 zmqChannel) Unmixed
        (World.init bf16 rank maxRuns ZmqLink.init) events →
      Machine.Along (World.step bf16 zmqChannel) (Upholds zmqChannel)
        (World.init bf16 rank maxRuns ZmqLink.init) events) ∧
    (Machine.Along (World.step bf16 fileChannel) Undisturbed
        (World.init bf16 rank maxRuns FileLink.init) events →
      Machine.Along (World.step bf16 fileChannel) (Upholds fileChannel)
        (World.init bf16 rank maxRuns FileLink.init) events) :=
  ⟨socket_runs bf16 rank maxRuns events, file_runs bf16 rank maxRuns events⟩

def plainConfig : OrchestratorConfig where
  ckpt := none
  model := { lora := none }

/-- A run is launched and created, and sends its first step. -/
def begins (incarnation : Nat) : List (Event Rat) :=
  [.launch "run" 1, .create "run" 0 [] plainConfig, .send incarnation ⟨[], 1, none⟩, .arrive incarnation]

/-- The successor of a run whose batches have all been returned. -/
theorem receivers_keep_a_successor :
    Machine.Along (World.step id zmqChannel) (Upholds zmqChannel)
        (World.init id 0 1 ZmqLink.init) (begins 0 ++ [.receive, .forget "run"] ++ begins 1 ++ [.receive]) ∧
      Machine.Along (World.step id fileChannel) (Upholds fileChannel)
        (World.init id 0 1 FileLink.init) (begins 0 ++ [.receive, .forget "run"] ++ begins 1 ++ [.receive]) := by
  obtain ⟨sockets, files⟩ := receivers_keep_incarnations id 0 1
    (begins 0 ++ [.receive, .forget "run"] ++ begins 1 ++ [.receive])
  exact ⟨sockets (by decide +kernel), files (by decide +kernel)⟩

/-! ## A batch that outlives its run

A run sends two steps and is forgotten when one of them has been returned. Its
identifier is launched again and takes the same run index.
-/

def leftover : List (Event Rat) :=
  [.launch "run" 1, .create "run" 0 [] plainConfig, .send 0 ⟨[], 1, none⟩, .send 0 ⟨[], 2, none⟩,
    .arrive 0, .arrive 0, .receive, .forget "run", .launch "run" 1, .create "run" 0 [] plainConfig]

/-- The owner of the run index, and what the next call returns. -/
def nextReturned (world : World Rat (ZmqLink Rat)) :
    Option Nat × Option (List (Option Nat × Nat × Int)) :=
  (world.owner 0, (zmqChannel.receive world.manager world.link).toOption.map
    (fun received => received.1.map (fun batch => (batch.runIdx, batch.sender, batch.step))))

/-- The second step of the forgotten run is returned to its successor. -/
theorem leftover_batch_returned :
    (Machine.run (World.step id zmqChannel) (World.init id 0 1 ZmqLink.init) leftover).map
        nextReturned = some (some 1, some [(some 0, 0, 2)]) ∧
      ¬Machine.Along (World.step id zmqChannel) (Upholds zmqChannel)
        (World.init id 0 1 ZmqLink.init) (leftover ++ [.receive]) := by
  have returns : (Machine.run (World.step id zmqChannel) (World.init id 0 1 ZmqLink.init) leftover).map
      nextReturned = some (some 1, some [(some 0, 0, 2)]) := by decide +kernel
  refine ⟨returns, fun along => ?_⟩
  obtain ⟨world, ran, isNext⟩ := Option.map_eq_some_iff.mp returns
  obtain ⟨batches, link, received, rightful, -⟩ := along.reached leftover [] .receive ran
  rw [nextReturned, received] at isNext
  obtain ⟨isOwner, isReturned⟩ := Prod.mk.inj isNext
  have listed : batches.map (fun batch => (batch.runIdx, batch.sender, batch.step)) =
      [(some 0, 0, 2)] := Option.some.inj isReturned
  obtain ⟨batch, member, isBatch⟩ := List.mem_map.mp (listed ▸ List.mem_singleton_self _)
  obtain ⟨idx, isIdx, owned, -⟩ := (rightful batch member).owned
  obtain ⟨runIdx, sender⟩ := Prod.mk.inj isBatch
  rw [runIdx] at isIdx
  rw [← Option.some.inj isIdx, isOwner, (Prod.mk.inj sender).1] at owned
  cases owned

end PrimeRl.Transport.Receivers
