import Mathlib.Data.String.Basic
import PrimeRl.Trainer.RunFleet

/-!
# Histories of discoveries and synchronizations

Run directories come and go between synchronizations in any order, and the
master may discover any number of times before the ranks meet again. The
difference exchanged at a meeting is one of names, so a run that was removed
and created again between two meetings goes unnoticed, and a slot that changed
hands is poisoned behind the copy of its scaling.
-/

namespace PrimeRl.Trainer.Runs

/-- A run the ranks knew at the last synchronization has been created anew. -/
def Reborn (fleet : Fleet) : Prop :=
  ∃ run ∈ fleet.created, run ∈ fleet.master.lastSyncedId2Idx

instance (fleet : Fleet) : Decidable (Reborn fleet) :=
  inferInstanceAs (Decidable (∃ run ∈ fleet.created, run ∈ fleet.master.lastSyncedId2Idx))

/-- No name means two different runs on the two sides of a synchronization. -/
def Steady (fleet : Fleet) : Event → Prop
  | .discover _ => True
  | .synchronize _ => ¬Reborn fleet

instance (fleet : Fleet) : ∀ event, Decidable (Steady fleet event)
  | .discover _ => isTrue trivial
  | .synchronize _ => inferInstanceAs (Decidable (¬Reborn fleet))

/-- One rank's assignment is the master's. -/
structure Mirrors (master other : MultiRunManager) : Prop where
  id2Idx : other.id2Idx = master.id2Idx
  idx2Id : other.idx2Id = master.idx2Id
  unusedIdxs : other.unusedIdxs = master.unusedIdxs

/-- The hooks a rank calls for the runs created since the last synchronization. -/
def FiresCreations (fleet : Fleet) (before after : MultiRunManager) : Prop :=
  ∃ fired, after.calls = before.calls ++ fired ∧
    ∀ run ∈ fleet.created, ∃ idx, fleet.master.id2Idx.lookup run = some idx ∧
      HookCall.resetParameters idx ∈ fired ∧ HookCall.creation idx run ∈ fired

/-- What one synchronization leaves behind. -/
structure Synchronized (before after : Fleet) : Prop where
  mirrors : ∀ other ∈ after.others, Mirrors after.master other
  creations : List.Forall₂ (FiresCreations before) (before.master :: before.others)
    (after.master :: after.others)

section Fleet

variable (bf16 : Rat → Rat) (loraConfig : Option LoRAConfig)

/-- The master is consistent, the event raises nothing and leaves the master
consistent, and a synchronization brings every rank to the master's slots. -/
def Upheld (fleet : Fleet) (event : Event) : Prop :=
  Consistent fleet.master ∧ ∃ after, fleet.step bf16 loraConfig event = some after ∧
    Consistent after.master ∧ ∀ meeting, event = .synchronize meeting → Synchronized fleet after

/-- Relates the other ranks to what the master last showed them, and the
master's slots to that. -/
structure Good (fleet : Fleet) : Prop where
  master : Consistent fleet.master
  isMaster : fleet.master.rank = 0
  others : ∀ other ∈ fleet.others, Consistent other ∧
    other.maxRuns = fleet.master.maxRuns ∧ other.id2Idx = fleet.master.lastSyncedId2Idx
  survivors : ∀ run idx, fleet.master.id2Idx.lookup run = some idx → run ∉ fleet.created →
    fleet.master.lastSyncedId2Idx.lookup run = some idx
  created : ∀ run ∈ fleet.created, run ∈ fleet.master.id2Idx

theorem good_init (maxRuns otherRanks : Nat) : Good (.init bf16 maxRuns otherRanks) where
  master := consistent_init bf16 0 maxRuns
  isMaster := rfl
  others := by
    intro other member
    obtain ⟨rank, _, rfl⟩ := List.mem_map.mp member
    exact ⟨consistent_init bf16 (rank + 1) maxRuns, rfl, rfl⟩
  survivors := by
    intro run idx found
    cases found
  created := by
    intro run member
    cases member

/-- Without a reborn name, a run known to both sides has kept its slot. -/
theorem Good.keeps {fleet : Fleet} (good : Good fleet) (steady : ¬Reborn fleet) :
    KeepsSlots fleet.master.lastSyncedId2Idx fleet.master.id2Idx := by
  intro run idx found known
  refine good.survivors run idx found ?_
  intro anew
  exact steady ⟨run, anew, known⟩

/-- A discovery always succeeds and keeps the invariant. -/
theorem discover_good {fleet : Fleet} (good : Good fleet) (scan : Scan) :
    ∃ after, fleet.step bf16 loraConfig (.discover scan) = some after ∧ Good after ∧
      Discovered bf16 loraConfig fleet.master after.master := by
  obtain ⟨master, discovery, discovered⟩ :=
    discover_runs_spec bf16 good.master good.isMaster loraConfig scan
  refine ⟨⟨master, fleet.others, (fleet.created ∩ master.id2Idx.keys) ∪
    (master.id2Idx.keys \ fleet.master.id2Idx.keys)⟩, ?_, ?_, discovered⟩
  · rw [Fleet.step, Fleet.discoverRuns, discovery]
    rfl
  · constructor
    · exact discovered.consistent
    · exact discovered.sameRank.rank.trans good.isMaster
    · intro other member
      rw [discovered.sameRank.maxRuns, discovered.sameRank.lastSynced]
      exact good.others other member
    · intro run idx found old
      simp only [Finset.mem_union, Finset.mem_inter, Finset.mem_sdiff, Finmap.mem_keys,
        Finmap.mem_of_lookup_eq_some found, and_true, true_and, not_or, not_not] at old
      rw [discovered.sameRank.lastSynced]
      exact good.survivors run idx (discovered.keeps run idx found old.2) old.1
    · intro run anew
      rcases Finset.mem_union.mp anew with earlier | now
      · exact Finmap.mem_keys.mp (Finset.mem_inter.mp earlier).2
      · exact Finmap.mem_keys.mp (Finset.mem_sdiff.mp now).1

/-- What a synchronization without a reborn name does to another rank. -/
structure Replayed (master before after : MultiRunManager) (newRuns : List String) : Prop where
  consistent : Consistent after
  maxRuns : after.maxRuns = before.maxRuns
  id2Idx : after.id2Idx = master.id2Idx
  calls : ∃ deleted, after.calls = before.calls ++
    (deletionCalls deleted ++ creationCalls master.id2Idx newRuns)
  vacated : ∀ idx, Vacated master.lastSyncedId2Idx master.id2Idx idx →
    after.scalingFactors[idx]? = some (poison bf16)
  copied : ∀ idx, ¬Vacated master.lastSyncedId2Idx master.id2Idx idx →
    after.scalingFactors[idx]? = master.scalingFactors[idx]?

/-- A synchronization without a reborn name raises nothing. -/
theorem synchronize_spec {fleet : Fleet} (good : Good fleet) (steady : ¬Reborn fleet)
    (meeting : Meeting) :
    ∃ others deleted, fleet.synchronizeState bf16 meeting = .ok
        ⟨fleet.master.met deleted (newNames (meeting.order fleet.master.rank)
          fleet.master.lastSyncedId2Idx fleet.master.id2Idx), others, ∅⟩ ∧
      List.Forall₂ (fun before after => Replayed bf16 fleet.master before after
        (newNames (meeting.order before.rank) fleet.master.lastSyncedId2Idx fleet.master.id2Idx))
        fleet.others others := by
  obtain ⟨data, published, stored⟩ :=
    sync_data_spec good.master (meeting.order fleet.master.rank)
  obtain ⟨deleted, masterDone⟩ :=
    synchronize_master_spec fleet.master (meeting.order fleet.master.rank)
  obtain ⟨others, othersDone, replayed⟩ := Loop.collects
    (fun (manager : MultiRunManager) => manager.synchronizeOther bf16 data
      (meeting.order manager.rank) (meeting.ckptSteps manager.rank))
    (fun before after => Replayed bf16 fleet.master before after
      (newNames (meeting.order before.rank) fleet.master.lastSyncedId2Idx fleet.master.id2Idx))
    fleet.others (by
      intro other member
      obtain ⟨consistent, sameSize, synced⟩ := good.others other member
      obtain ⟨after, gone, succeeded, stays, -, size, slots, calls, vacated, copied⟩ :=
        synchronize_other_spec bf16 good.master stored consistent sameSize synced
          (good.keeps steady) (meeting.order other.rank) (meeting.ckptSteps other.rank)
      exact ⟨after, succeeded, stays, size, slots, ⟨gone, calls⟩, vacated, copied⟩)
  refine ⟨others, deleted, ?_, replayed⟩
  rw [Fleet.synchronizeState, published]
  simp only [bind, Except.bind, masterDone, othersDone]
  rfl

variable {bf16} in
/-- A rank that has replayed holds the master's assignment. -/
theorem Replayed.mirrors {master before after : MultiRunManager} {newRuns : List String}
    (replayed : Replayed bf16 master before after newRuns) (consistent : Consistent master)
    (sameSize : before.maxRuns = master.maxRuns) : Mirrors master after := by
  have slots := replayed.consistent.slots
  rw [replayed.id2Idx, replayed.maxRuns, sameSize] at slots
  obtain ⟨sameNames, sameFree⟩ := consistent.slots.determined slots
  exact ⟨replayed.id2Idx, sameNames, sameFree⟩

/-- Hooks called for the new names are called for every run created meanwhile. -/
theorem fires_creations {fleet : Fleet} (good : Good fleet) (steady : ¬Reborn fleet)
    {before after : MultiRunManager} {deleted : List (String × Nat)} (order : Iteration String)
    (calls : after.calls = before.calls ++ (deletionCalls deleted ++ creationCalls
      fleet.master.id2Idx (newNames order fleet.master.lastSyncedId2Idx fleet.master.id2Idx))) :
    FiresCreations fleet before after := by
  refine ⟨_, calls, fun run anew => ?_⟩
  obtain ⟨idx, found⟩ := Finmap.mem_iff.mp (good.created run anew)
  have new : run ∈ newNames order fleet.master.lastSyncedId2Idx fleet.master.id2Idx := by
    rw [mem_new_names]
    exact ⟨good.created run anew, fun known => steady ⟨run, anew, known⟩⟩
  refine ⟨idx, found, ?_, ?_⟩
  · exact List.mem_append_right _ (reset_mem _ new found)
  · exact List.mem_append_right _ ((creation_mem_iff _ _ run idx).mpr ⟨new, found⟩)

/-- A synchronization without a reborn name is a complete one. -/
theorem synchronize_good {fleet : Fleet} (good : Good fleet) (steady : ¬Reborn fleet)
    (meeting : Meeting) :
    ∃ after, fleet.step bf16 loraConfig (.synchronize meeting) = some after ∧ Good after ∧
      Synchronized fleet after ∧ after.master.config = fleet.master.config ∧
      after.master.scalingFactors = fleet.master.scalingFactors ∧
      List.Forall₂ (fun before after => Replayed bf16 fleet.master before after
        (newNames (meeting.order before.rank) fleet.master.lastSyncedId2Idx fleet.master.id2Idx))
        fleet.others after.others := by
  obtain ⟨others, deleted, succeeded, replayed⟩ := synchronize_spec bf16 good steady meeting
  have onEach : ∀ other ∈ others, Consistent other ∧
      other.maxRuns = fleet.master.maxRuns ∧ Mirrors fleet.master other := by
    intro other member
    obtain ⟨before, listed, onOther⟩ := Loop.made_from replayed member
    obtain ⟨-, sameSize, -⟩ := good.others before listed
    exact ⟨onOther.consistent, onOther.maxRuns.trans sameSize,
      onOther.mirrors good.master sameSize⟩
  refine ⟨⟨fleet.master.met deleted (newNames (meeting.order fleet.master.rank)
    fleet.master.lastSyncedId2Idx fleet.master.id2Idx), others, ∅⟩,
    by rw [Fleet.step, succeeded]; rfl, ?_, ?_, rfl, rfl, replayed⟩
  · constructor
    · exact ⟨good.master.slots, good.master.progress_keys, good.master.config_keys,
        good.master.scaling_length⟩
    · exact good.isMaster
    · intro other member
      obtain ⟨consistent, size, mirrors⟩ := onEach other member
      exact ⟨consistent, size, mirrors.id2Idx⟩
    · intro run idx found _
      exact found
    · intro run impossible
      cases impossible
  · constructor
    · intro other member
      obtain ⟨-, -, mirrors⟩ := onEach other member
      exact ⟨mirrors.id2Idx, mirrors.idx2Id, mirrors.unusedIdxs⟩
    · refine .cons (fires_creations good steady _ rfl) (replayed.imp ?_)
      intro before after onOther
      obtain ⟨gone, calls⟩ := onOther.calls
      exact fires_creations good steady _ calls

/-- Every event of a history without reborn names keeps the invariant. -/
theorem step_good {fleet after : Fleet} {event : Event} (good : Good fleet)
    (steady : Steady fleet event) (accepted : fleet.step bf16 loraConfig event = some after) :
    Good after := by
  cases event with
  | discover scan =>
    obtain ⟨next, succeeded, nextGood, -⟩ := discover_good bf16 loraConfig good scan
    exact Option.some.inj (succeeded.symm.trans accepted) ▸ nextGood
  | synchronize meeting =>
    obtain ⟨next, succeeded, nextGood, -⟩ := synchronize_good bf16 loraConfig good steady meeting
    exact Option.some.inj (succeeded.symm.trans accepted) ▸ nextGood

/-- A reborn run is not new by name, so the master does not call its hooks. -/
theorem reborn_unfired {fleet after : Fleet} (meeting : Meeting)
    (accepted : fleet.step bf16 loraConfig (.synchronize meeting) = some after)
    (fired : FiresCreations fleet fleet.master after.master) : ¬Reborn fleet := by
  rintro ⟨run, anew, known⟩
  obtain ⟨deleted, masterDone⟩ :=
    synchronize_master_spec fleet.master (meeting.order fleet.master.rank)
  have masterCalls : after.master.calls = fleet.master.calls ++ (deletionCalls deleted ++
      creationCalls fleet.master.id2Idx (newNames (meeting.order fleet.master.rank)
        fleet.master.lastSyncedId2Idx fleet.master.id2Idx)) := by
    rw [Fleet.step, Fleet.synchronizeState] at accepted
    cases published : fleet.master.syncData (meeting.order fleet.master.rank) with
    | error message => simp [published, bind, Except.bind, Except.toOption] at accepted
    | ok data =>
      simp only [published, bind, Except.bind, masterDone] at accepted
      split at accepted
      · cases accepted
      · obtain rfl := Option.some.inj accepted
        rfl
  obtain ⟨calls, appended, each⟩ := fired
  obtain ⟨idx, -, -, called⟩ := each run anew
  rw [List.append_cancel_left (appended.symm.trans masterCalls), List.mem_append] at called
  rcases called with deletion | creation
  · obtain ⟨entry, -, impossible⟩ := List.mem_map.mp deletion
    cases impossible
  · have new := ((creation_mem_iff _ _ run idx).mp creation).1
    exact ((mem_new_names _ _ _ run).mp new).2 known

/-- Slots are consistent on the master and, after each synchronization, on every
rank, and creations reach every rank, exactly in the histories in which no run
known at one synchronization is removed and created again before the next. -/
theorem slots_consistent_iff (maxRuns otherRanks : Nat) (history : List Event) :
    Machine.Along (Fleet.step bf16 loraConfig) (Upheld bf16 loraConfig)
        (.init bf16 maxRuns otherRanks) history ↔
      Machine.Along (Fleet.step bf16 loraConfig) Steady
        (.init bf16 maxRuns otherRanks) history := by
  refine Machine.along_iff Good ?_ (fun fleet event next good steady accepted =>
    step_good bf16 loraConfig good steady accepted) history (good_init bf16 maxRuns otherRanks)
  intro fleet event good
  constructor
  · rintro ⟨-, after, accepted, -, meets⟩
    cases event with
    | discover scan => trivial
    | synchronize meeting =>
      have synchronized := meets meeting rfl
      cases synchronized.creations with
      | cons onMaster _ => exact reborn_unfired bf16 loraConfig meeting accepted onMaster
  · intro steady
    refine ⟨good.master, ?_⟩
    cases event with
    | discover scan =>
      obtain ⟨after, accepted, afterGood, -⟩ := discover_good bf16 loraConfig good scan
      exact ⟨after, accepted, afterGood.master, fun meeting impossible => nomatch impossible⟩
    | synchronize meeting =>
      obtain ⟨after, accepted, afterGood, synchronized, -⟩ :=
        synchronize_good bf16 loraConfig good steady meeting
      exact ⟨after, accepted, afterGood.master, fun _ _ => synchronized⟩

/-- A scan of these directories, all with one configuration and none with checkpoints. -/
def scanOf (runDirs : Finset String) (config : OrchestratorConfig) : Event :=
  .discover {
    runDirs := runDirs
    evicted := ∅
    parsed := fun _ => some config
    ckptSteps := fun _ => []
    runOrder := .ascending
    idxOrder := .ascending }

/-- A synchronization of ranks that find no checkpoints. -/
def meetingOf : Event :=
  .synchronize { order := fun _ => .ascending, ckptSteps := fun _ _ => [] }

/-- Twice the adapter's output, in a format that cannot hold one million. -/
def doubling : OrchestratorConfig where
  ckpt := none
  model := { lora := some { rank := some 16, alpha := some 32 } }

def nearest (value : Rat) : Rat := if value = 1000000 then 999424 else value

/-- Run b takes the slot of a removed run a, and a returns in the other slot
before the ranks meet. The other rank still has a in the slot b asks for. -/
theorem reborn_run_raises :
    ¬Machine.Along (Fleet.step nearest none) (Upheld nearest none) (.init nearest 2 1)
      [scanOf {"run_a"} doubling, meetingOf, scanOf {"run_b"} doubling,
        scanOf {"run_a", "run_b"} doubling, meetingOf] := by
  intro upheld
  obtain ⟨before, isBefore⟩ : ∃ before, before = [scanOf {"run_a"} doubling, meetingOf,
    scanOf {"run_b"} doubling, scanOf {"run_a", "run_b"} doubling] := ⟨_, rfl⟩
  obtain ⟨fleet, ran⟩ : ∃ fleet,
      Machine.run (Fleet.step nearest none) (.init nearest 2 1) before = some fleet := by
    rw [isBefore]
    exact Option.isSome_iff_exists.mp (by decide +kernel)
  have raises : (Machine.run (Fleet.step nearest none) (.init nearest 2 1) before).bind
      (fun fleet => fleet.step nearest none meetingOf) = none := by
    rw [isBefore]
    decide +kernel
  rw [ran, Option.bind_some] at raises
  obtain ⟨-, after, accepted, -⟩ :=
    Machine.Along.reached before [] meetingOf (by rw [isBefore]; exact upheld) ran
  rw [raises] at accepted
  cases accepted

/-- Every rank holds, in each slot in use, the scaling of the run at that slot. -/
def OwnScaling (fleet : Fleet) : Prop :=
  ∀ manager ∈ fleet.master :: fleet.others,
    Scaled bf16 fleet.master.config manager.scalingFactors

/-- A synchronization succeeds and leaves every rank with the scalings of its runs. -/
def Scales (fleet : Fleet) (event : Event) : Prop :=
  ∀ meeting, event = .synchronize meeting →
    ∃ after, fleet.step bf16 loraConfig event = some after ∧ OwnScaling bf16 after

/-- No slot in use was vacated since the last synchronization by a run that the
ranks knew; a new owner whose own scaling is the poison value, and a master
without other ranks, do not show the difference. -/
def Undisturbed (fleet : Fleet) : Event → Prop
  | .discover _ => True
  | .synchronize _ => fleet.others = [] ∨ ∀ idx runConfig,
      Vacated fleet.master.lastSyncedId2Idx fleet.master.id2Idx idx →
      fleet.master.config.lookup idx = some runConfig →
      ∀ scaling, loraScaling runConfig = some scaling → bf16 scaling = poison bf16

/-- A rank that has replayed holds the scalings of its runs when none of their
slots was vacated. -/
theorem replayed_scaled_iff {master before after : MultiRunManager} {newRuns : List String}
    (replayed : Replayed bf16 master before after newRuns)
    (scaled : Scaled bf16 master.config master.scalingFactors) :
    Scaled bf16 master.config after.scalingFactors ↔ ∀ idx runConfig,
      Vacated master.lastSyncedId2Idx master.id2Idx idx →
      master.config.lookup idx = some runConfig →
      ∀ scaling, loraScaling runConfig = some scaling → bf16 scaling = poison bf16 := by
  constructor
  · intro afterScaled idx runConfig vacated configured scaling asked
    obtain ⟨other, otherAsked, factor⟩ := afterScaled idx runConfig configured
    rw [asked, Option.some.injEq] at otherAsked
    rw [replayed.vacated idx vacated, Option.some.injEq] at factor
    rw [otherAsked, factor]
  · intro harmless idx runConfig configured
    obtain ⟨scaling, asked, factor⟩ := scaled idx runConfig configured
    refine ⟨scaling, asked, ?_⟩
    by_cases vacated : Vacated master.lastSyncedId2Idx master.id2Idx idx
    · rw [replayed.vacated idx vacated, harmless idx runConfig vacated configured scaling asked]
    · rw [replayed.copied idx vacated, factor]

/-- The master's own table is always right. -/
structure GoodScaled (fleet : Fleet) : Prop where
  good : Good fleet
  scaled : Scaled bf16 fleet.master.config fleet.master.scalingFactors

/-- One synchronization hands out the right scalings exactly when no slot in use
was vacated meanwhile. -/
theorem synchronize_scales_iff {fleet : Fleet} (invariant : GoodScaled bf16 fleet)
    (steady : ¬Reborn fleet) (meeting : Meeting) :
    Scales bf16 loraConfig fleet (.synchronize meeting) ↔
      Undisturbed bf16 fleet (.synchronize meeting) := by
  obtain ⟨after, accepted, -, -, sameConfig, sameFactors, replayed⟩ :=
    synchronize_good bf16 loraConfig invariant.good steady meeting
  have scales : Scales bf16 loraConfig fleet (.synchronize meeting) ↔ OwnScaling bf16 after := by
    constructor
    · intro each
      obtain ⟨next, reached, own⟩ := each meeting rfl
      exact Option.some.inj (reached.symm.trans accepted) ▸ own
    · intro own _ _
      exact ⟨after, accepted, own⟩
  rw [scales, OwnScaling, List.forall_mem_cons, sameConfig, sameFactors, Undisturbed]
  simp only [invariant.scaled, true_and]
  have onEach : ∀ manager ∈ after.others,
      Scaled bf16 fleet.master.config manager.scalingFactors ↔ ∀ idx runConfig,
        Vacated fleet.master.lastSyncedId2Idx fleet.master.id2Idx idx →
        fleet.master.config.lookup idx = some runConfig →
        ∀ scaling, loraScaling runConfig = some scaling → bf16 scaling = poison bf16 := by
    intro manager member
    obtain ⟨before, -, onManager⟩ := Loop.made_from replayed member
    exact replayed_scaled_iff bf16 onManager invariant.scaled
  have sameNumber : fleet.others.length = after.others.length := replayed.length_eq
  constructor
  · intro own
    cases listed : after.others with
    | nil =>
      rw [listed] at sameNumber
      exact .inl (List.length_eq_zero_iff.mp sameNumber)
    | cons first rest =>
      have member : first ∈ after.others := listed ▸ List.mem_cons_self
      exact .inr ((onEach first member).mp (own first member))
  · rintro (alone | harmless) manager member
    · rw [alone] at sameNumber
      rw [List.length_eq_zero_iff.mp sameNumber.symm] at member
      cases member
    · exact (onEach manager member).mpr harmless

/-- After each synchronization every rank applies the scaling of the run that
owns the slot, exactly in the histories in which no slot vacated between two
synchronizations has an owner at the second. -/
theorem scaling_owned_iff (trainerLora : LoRAConfig) (maxRuns otherRanks : Nat)
    (history : List Event)
    (steady : Machine.Along (Fleet.step bf16 (some trainerLora)) Steady
      (.init bf16 maxRuns otherRanks) history) :
    Machine.Along (Fleet.step bf16 (some trainerLora)) (Scales bf16 (some trainerLora))
        (.init bf16 maxRuns otherRanks) history ↔
      Machine.Along (Fleet.step bf16 (some trainerLora)) (Undisturbed bf16)
        (.init bf16 maxRuns otherRanks) history := by
  have both : Machine.Along (Fleet.step bf16 (some trainerLora))
      (fun fleet event => Steady fleet event ∧ Scales bf16 (some trainerLora) fleet event)
      (.init bf16 maxRuns otherRanks) history ↔
      Machine.Along (Fleet.step bf16 (some trainerLora))
      (fun fleet event => Steady fleet event ∧ Undisturbed bf16 fleet event)
      (.init bf16 maxRuns otherRanks) history := by
    refine Machine.along_iff (GoodScaled bf16) ?_ ?_ history
      ⟨good_init bf16 maxRuns otherRanks, fun _ _ found => by cases found⟩
    · intro fleet event invariant
      refine and_congr_right (fun steadyStep => ?_)
      cases event with
      | discover scan => exact ⟨fun _ => trivial, fun _ meeting impossible => nomatch impossible⟩
      | synchronize meeting => exact synchronize_scales_iff bf16 _ invariant steadyStep meeting
    · rintro fleet event next ⟨good, scaled⟩ ⟨steadyStep, -⟩ accepted
      refine ⟨step_good bf16 _ good steadyStep accepted, ?_⟩
      cases event with
      | discover scan =>
        obtain ⟨after, succeeded, -, discovered⟩ :=
          discover_good bf16 (some trainerLora) good scan
        obtain rfl := Option.some.inj (succeeded.symm.trans accepted)
        exact discovered.scaled rfl scaled
      | synchronize meeting =>
        obtain ⟨after, succeeded, -, -, sameConfig, sameFactors, -⟩ :=
          synchronize_good bf16 (some trainerLora) good steadyStep meeting
        obtain rfl := Option.some.inj (succeeded.symm.trans accepted)
        rw [sameConfig, sameFactors]
        exact scaled
  rw [Machine.along_and, Machine.along_and] at both
  exact ⟨fun scales => (both.mp ⟨steady, scales⟩).2,
    fun undisturbed => (both.mpr ⟨steady, undisturbed⟩).2⟩

/-- A run removed and another created in a slot of its own between two meetings. -/
theorem scaling_owned_other_slot :
    Machine.Along (Fleet.step nearest (some ⟨16, 32⟩)) (Scales nearest (some ⟨16, 32⟩))
        (.init nearest 2 1) [scanOf {"run_a"} doubling, meetingOf,
          scanOf {"run_a", "run_b"} doubling, scanOf {"run_b"} doubling, meetingOf] ↔
      Machine.Along (Fleet.step nearest (some ⟨16, 32⟩)) (Undisturbed nearest)
        (.init nearest 2 1) [scanOf {"run_a"} doubling, meetingOf,
          scanOf {"run_a", "run_b"} doubling, scanOf {"run_b"} doubling, meetingOf] :=
  scaling_owned_iff nearest ⟨16, 32⟩ 2 1 _ (by decide +kernel)

/-- Run b takes the slot of a removed run a before the ranks meet. The other
rank copies the scaling of b and then poisons the slot for a. -/
theorem vacated_slot_poisoned :
    Machine.Along (Fleet.step nearest (some ⟨16, 32⟩)) Steady (.init nearest 2 1)
        [scanOf {"run_a"} doubling, meetingOf, scanOf {"run_b"} doubling, meetingOf] ∧
      ¬Machine.Along (Fleet.step nearest (some ⟨16, 32⟩)) (Scales nearest (some ⟨16, 32⟩))
        (.init nearest 2 1)
        [scanOf {"run_a"} doubling, meetingOf, scanOf {"run_b"} doubling, meetingOf] := by
  refine ⟨by decide +kernel, fun scales => ?_⟩
  obtain ⟨before, isBefore⟩ : ∃ before,
    before = [scanOf {"run_a"} doubling, meetingOf, scanOf {"run_b"} doubling] := ⟨_, rfl⟩
  obtain ⟨fleet, ran⟩ : ∃ fleet, Machine.run (Fleet.step nearest (some ⟨16, 32⟩))
      (.init nearest 2 1) before = some fleet := by
    rw [isBefore]
    exact Option.isSome_iff_exists.mp (by decide +kernel)
  have left : ((Machine.run (Fleet.step nearest (some ⟨16, 32⟩)) (.init nearest 2 1) before).bind
      (fun fleet => fleet.step nearest (some ⟨16, 32⟩) meetingOf)).map
      (fun fleet => (fleet.master.config.lookup 0,
        fleet.others.map (fun other => other.scalingFactors))) =
      some (some doubling, [[999424, 999424]]) := by
    rw [isBefore]
    decide +kernel
  have atMeeting : Scales nearest (some ⟨16, 32⟩) fleet meetingOf :=
    Machine.Along.reached before [] meetingOf (by rw [isBefore]; exact scales) ran
  obtain ⟨after, accepted, own⟩ := atMeeting _ rfl
  rw [ran, Option.bind_some, accepted, Option.map_some, Option.some.injEq, Prod.mk.injEq] at left
  obtain ⟨configured, factors⟩ := left
  obtain ⟨other, listed⟩ := List.map_eq_singleton_iff.mp factors
  obtain ⟨scaling, asked, stored⟩ :=
    own other (by rw [listed.1]; simp) 0 doubling configured
  rw [listed.2] at stored
  have two : loraScaling doubling = some 2 := by decide +kernel
  obtain rfl := Option.some.inj (two.symm.trans asked)
  exact absurd stored (by decide +kernel)

end Fleet

end PrimeRl.Trainer.Runs
