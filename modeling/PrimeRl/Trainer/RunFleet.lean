import PrimeRl.Support.Machine
import PrimeRl.Trainer.RunSlots

/-!
# Run slots across ranks

Between two synchronizations only the master's records change. The other ranks
replay the difference between the names they know and the names the master
knows. The replay reproduces the master's records as long as a name on both
sides means the same run on both sides.
-/

namespace PrimeRl.Trainer.Runs

/-! ## The parts of a synchronization -/

theorem deleted_run_idxs_spec (id2Idx : Finmap (fun _ : String => Nat)) (runs : List String)
    (held : ∀ run ∈ runs, run ∈ id2Idx) :
    ∃ deleted, deletedRunIdxs id2Idx runs = .ok deleted ∧ deleted.map Prod.fst = runs ∧
      ∀ entry ∈ deleted, id2Idx.lookup entry.1 = some entry.2 := by
  obtain ⟨deleted, collected, listed⟩ := Loop.collects
    (fun run => do return (run, ← subscript id2Idx run))
    (fun run entry => entry.1 = run ∧ id2Idx.lookup entry.1 = some entry.2) runs (by
      intro run member
      obtain ⟨idx, found⟩ := Finmap.mem_iff.mp (held run member)
      exact ⟨(run, idx), by rw [subscript_ok found]; rfl, rfl, found⟩)
  refine ⟨deleted, collected, ?_, ?_⟩
  · clear collected held
    induction listed with
    | nil => rfl
    | cons one _ inductionHypothesis => rw [List.map_cons, one.1, inductionHypothesis]
  · intro entry member
    obtain ⟨run, _, _, found⟩ := Loop.made_from listed member
    exact found

/-- A key that a comprehension went through is found in the dictionary it made. -/
theorem lookup_made {Value : Type} {runs : List String} {dict : List (String × Value)}
    (listed : List.Forall₂ (fun run entry => entry.1 = run) runs dict) {run : String}
    (member : run ∈ runs) : ∃ value, dict.lookup run = some value := by
  induction listed with
  | nil => cases member
  | @cons first entry runs dict same rest inductionHypothesis =>
    obtain ⟨key, value⟩ := entry
    by_cases isFirst : run = key
    · exact ⟨value, by rw [isFirst, List.lookup_cons_self]⟩
    · have later : run ∈ runs :=
        (List.mem_cons.mp member).resolve_left (fun equal => isFirst (equal.trans same.symm))
      obtain ⟨found, isFound⟩ := inductionHypothesis later
      refine ⟨found, ?_⟩
      rw [List.lookup_cons, beq_false_of_ne isFirst]
      exact isFound

/-- What the master stores for the others. -/
structure Stored (master : MultiRunManager) (data : SyncData) : Prop where
  id2Idx : data.id2Idx = master.id2Idx
  scalingFactors : data.scalingFactors = master.scalingFactors
  progress : data.progress = master.progress
  configs : ∀ run ∈ master.id2Idx, run ∉ master.lastSyncedId2Idx →
    ∃ config, data.newConfigs.lookup run = some config

theorem sync_data_spec {master : MultiRunManager} (consistent : Consistent master)
    (order : Iteration String) : ∃ data, master.syncData order = .ok data ∧ Stored master data := by
  obtain ⟨newRuns, isNewRuns⟩ : ∃ newRuns, newRuns =
    order.order (master.id2Idx.keys \ master.lastSyncedId2Idx.keys) := ⟨_, rfl⟩
  have members : ∀ run, run ∈ newRuns ↔
      run ∈ master.id2Idx ∧ run ∉ master.lastSyncedId2Idx := by
    intro run
    rw [isNewRuns, order.lists, Finset.mem_sdiff, Finmap.mem_keys, Finmap.mem_keys]
  obtain ⟨newConfigs, collected, listed⟩ := Loop.collects
    master.newConfig (fun run entry => entry.1 = run) newRuns (by
      intro run member
      obtain ⟨idx, found⟩ := Finmap.mem_iff.mp ((members run).mp member).1
      obtain ⟨config, configured⟩ := Finmap.mem_iff.mp
        ((consistent.config_keys idx).mpr (consistent.slots.held found))
      refine ⟨(run, config), ?_, rfl⟩
      rw [MultiRunManager.newConfig, subscript_ok found]
      simp only [bind, Except.bind, subscript_ok configured]
      rfl)
  refine ⟨⟨master.id2Idx, master.readyToUpdate, master.scalingFactors, newConfigs,
    master.progress⟩, ?_, ⟨rfl, rfl, rfl, ?_⟩⟩
  · rw [MultiRunManager.syncData, ← isNewRuns, collected]
    rfl
  · intro run known fresh
    exact lookup_made listed ((members run).mpr ⟨known, fresh⟩)

/-- The calls made for the names that are new. -/
def creationCalls (id2Idx : Finmap (fun _ : String => Nat)) (newRuns : List String) :
    List HookCall :=
  newRuns.flatMap (fun run =>
    match id2Idx.lookup run with
    | some idx => [HookCall.resetParameters idx, HookCall.creation idx run]
    | none => [])

/-- A creation hook is called for exactly the new names. -/
theorem creation_mem_iff (id2Idx : Finmap (fun _ : String => Nat)) (newRuns : List String)
    (run : String) (idx : Nat) :
    HookCall.creation idx run ∈ creationCalls id2Idx newRuns ↔
      run ∈ newRuns ∧ id2Idx.lookup run = some idx := by
  rw [creationCalls, List.mem_flatMap]
  constructor
  · rintro ⟨other, member, called⟩
    cases found : id2Idx.lookup other with
    | none => simp [found] at called
    | some place =>
      simp only [found, List.mem_cons, reduceCtorEq, HookCall.creation.injEq, List.not_mem_nil,
        or_false, false_or] at called
      obtain ⟨rfl, rfl⟩ := called
      exact ⟨member, found⟩
  · rintro ⟨member, found⟩
    exact ⟨run, member, by simp [found]⟩

/-- The parameters of a new name's slot are reset. -/
theorem reset_mem (id2Idx : Finmap (fun _ : String => Nat)) {newRuns : List String}
    {run : String} {idx : Nat} (member : run ∈ newRuns) (found : id2Idx.lookup run = some idx) :
    HookCall.resetParameters idx ∈ creationCalls id2Idx newRuns := by
  rw [creationCalls, List.mem_flatMap]
  exact ⟨run, member, by simp [found]⟩

def deletionCalls (deleted : List (String × Nat)) : List HookCall :=
  deleted.map (fun entry => HookCall.deletion entry.2 entry.1)

/-- The hooks change nothing but the record of their calls. -/
theorem call_hooks_spec (manager : MultiRunManager) (deleted : List (String × Nat))
    (newRuns : List String) (held : ∀ run ∈ newRuns, run ∈ manager.id2Idx) :
    manager.callHooks deleted newRuns = .ok { manager with
      calls := manager.calls ++ (deletionCalls deleted ++ creationCalls manager.id2Idx newRuns) } := by
  have deletions : deleted.foldl
      (fun (manager : MultiRunManager) deleted => manager.deleteRunHooks deleted.2 deleted.1)
      manager = { manager with calls := manager.calls ++ deletionCalls deleted } := by
    clear held
    induction deleted generalizing manager with
    | nil => simp [deletionCalls]
    | cons entry rest inductionHypothesis =>
      rw [List.foldl_cons, inductionHypothesis]
      simp [deletionCalls, MultiRunManager.deleteRunHooks]
  rw [MultiRunManager.callHooks, deletions, ← List.append_assoc]
  obtain ⟨calls, isCalls⟩ : ∃ calls, calls = manager.calls ++ deletionCalls deleted := ⟨_, rfl⟩
  rw [← isCalls]
  clear isCalls deletions
  induction newRuns generalizing calls with
  | nil => simp [creationCalls]; rfl
  | cons run rest inductionHypothesis =>
    obtain ⟨idx, found⟩ := Finmap.mem_iff.mp (held run List.mem_cons_self)
    have step : MultiRunManager.callCreateHooks { manager with calls := calls } run =
        .ok { manager with calls := calls ++
          [HookCall.resetParameters idx, HookCall.creation idx run] } := by
      rw [MultiRunManager.callCreateHooks, subscript_ok found]
      rfl
    rw [List.foldlM_cons, step]
    have later := inductionHypothesis
      (fun other member => held other (List.mem_cons_of_mem run member))
      (calls ++ [HookCall.resetParameters idx, HookCall.creation idx run])
    simp only [bind, Except.bind]
    rw [later]
    simp [creationCalls, found]

/-- Names that are new since the last synchronization, in the order of a listing. -/
def newNames (order : Iteration String) (known current : Finmap (fun _ : String => Nat)) :
    List String := order.order (current.keys \ known.keys)

theorem mem_new_names (order : Iteration String) (known current : Finmap (fun _ : String => Nat))
    (run : String) : run ∈ newNames order known current ↔ run ∈ current ∧ run ∉ known := by
  rw [newNames, order.lists, Finset.mem_sdiff, Finmap.mem_keys, Finmap.mem_keys]

/-- A master that has called its hooks and shown its names to the others. -/
def MultiRunManager.met (master : MultiRunManager) (deleted : List (String × Nat))
    (newRuns : List String) : MultiRunManager :=
  { master with
    lastSyncedId2Idx := master.id2Idx
    calls := master.calls ++ (deletionCalls deleted ++ creationCalls master.id2Idx newRuns) }

/-- The master calls its hooks for the difference of names. -/
theorem synchronize_master_spec (master : MultiRunManager) (order : Iteration String) :
    ∃ deleted, master.synchronizeMaster order = .ok
      (master.met deleted (newNames order master.lastSyncedId2Idx master.id2Idx)) := by
  obtain ⟨deleted, collected, -, -⟩ :=
    deleted_run_idxs_spec master.lastSyncedId2Idx
      (newNames order master.id2Idx master.lastSyncedId2Idx)
      (fun run member => ((mem_new_names order _ _ run).mp member).1)
  have called := call_hooks_spec master deleted
    (newNames order master.lastSyncedId2Idx master.id2Idx)
    (fun run member => ((mem_new_names order _ _ run).mp member).1)
  refine ⟨deleted, ?_⟩
  rw [newNames] at collected called
  rw [MultiRunManager.synchronizeMaster]
  simp only [bind, Except.bind, collected, called]
  rfl

section Manager

variable (bf16 : Rat → Rat)

/-- Replaying deletions poisons exactly the slots of the deleted names. -/
theorem delete_all_spec {manager : MultiRunManager} (consistent : Consistent manager)
    (deleted : List (String × Nat)) (once : (deleted.map Prod.fst).Nodup)
    (held : ∀ entry ∈ deleted, manager.id2Idx.lookup entry.1 = some entry.2) :
    ∃ after, deleted.foldlM
        (fun manager entry => manager.deleteRunData bf16 entry.1 entry.2) manager = .ok after ∧
      Consistent after ∧ SameRank manager after ∧
      (∀ run, after.id2Idx.lookup run =
        if run ∈ deleted.map Prod.fst then none else manager.id2Idx.lookup run) ∧
      ∀ idx, after.scalingFactors[idx]? =
        if idx ∈ deleted.map Prod.snd then some (poison bf16)
        else manager.scalingFactors[idx]? := by
  refine Loop.completes _ (fun done state => Consistent state ∧ SameRank manager state ∧
    (∀ run, state.id2Idx.lookup run =
      if run ∈ done.map Prod.fst then none else manager.id2Idx.lookup run) ∧
    ∀ idx, state.scalingFactors[idx]? =
      if idx ∈ done.map Prod.snd then some (poison bf16) else manager.scalingFactors[idx]?)
    deleted ?_ manager ⟨consistent, .refl manager, fun _ => by simp, fun _ => by simp⟩
  rintro done ⟨run, idx⟩ rest state split ⟨stateConsistent, same, lookups, factors⟩
  have waiting : run ∉ done.map Prod.fst := by
    rw [split, List.map_append] at once
    exact fun early => List.disjoint_of_nodup_append once early List.mem_cons_self
  have stillHeld : state.id2Idx.lookup run = some idx := by
    rw [lookups, if_neg waiting]
    exact held (run, idx) (by rw [split]; simp)
  have inTable : idx < state.scalingFactors.length := stateConsistent.in_table stillHeld
  obtain ⟨after, succeeded, stays, sameAfter, erased, -, poisoned⟩ :=
    delete_run_data_spec bf16 stateConsistent stillHeld
  refine ⟨after, succeeded, stays, same.trans sameAfter, ?_, ?_⟩
  · intro other
    rw [erased]
    by_cases isRun : other = run
    · subst isRun
      simp [Finmap.lookup_erase]
    · rw [Finmap.lookup_erase_ne isRun, lookups]
      simp only [List.map_append, List.map_cons, List.map_nil, List.mem_append,
        List.mem_singleton, isRun, or_false]
  · intro place
    rw [poisoned]
    by_cases isIdx : place = idx
    · subst isIdx
      rw [List.getElem?_set_self inTable]
      simp
    · rw [List.getElem?_set_ne (Ne.symm isIdx), factors]
      simp only [List.map_append, List.map_cons, List.map_nil, List.mem_append,
        List.mem_singleton, isIdx, or_false]

/-- Replaying creations gives the new names the slots the master gave them. A
slot is free on arrival because the master's own assignment is injective. -/
theorem create_all_spec {master manager : MultiRunManager} {data : SyncData}
    (masterConsistent : Consistent master) (stored : Stored master data)
    (consistent : Consistent manager) (sameSize : manager.maxRuns = master.maxRuns)
    (shared : ∀ run idx, manager.id2Idx.lookup run = some idx → master.id2Idx.lookup run = some idx)
    (ckptSteps : String → List Int) (newRuns : List String) (once : newRuns.Nodup)
    (fresh : ∀ run ∈ newRuns, run ∉ manager.id2Idx)
    (known : ∀ run ∈ newRuns, run ∈ master.id2Idx ∧ run ∉ master.lastSyncedId2Idx) :
    ∃ after, newRuns.foldlM (MultiRunManager.createFrom data ckptSteps) manager = .ok after ∧
      Consistent after ∧ SameRank manager after ∧
      (∀ run, after.id2Idx.lookup run =
        if run ∈ newRuns then master.id2Idx.lookup run else manager.id2Idx.lookup run) ∧
      after.scalingFactors = manager.scalingFactors := by
  refine Loop.completes _ (fun done state => Consistent state ∧ SameRank manager state ∧
    (∀ run, state.id2Idx.lookup run =
      if run ∈ done then master.id2Idx.lookup run else manager.id2Idx.lookup run) ∧
    state.scalingFactors = manager.scalingFactors)
    newRuns ?_ manager ⟨consistent, .refl manager, fun _ => by simp, rfl⟩
  rintro done run rest state split ⟨stateConsistent, same, lookups, factors⟩
  have member : run ∈ newRuns := by rw [split]; simp
  have waiting : run ∉ done := by
    rw [split] at once
    exact fun early => List.disjoint_of_nodup_append once early List.mem_cons_self
  have absent : run ∉ state.id2Idx := by
    rw [← Finmap.lookup_eq_none, lookups, if_neg waiting, Finmap.lookup_eq_none]
    exact fresh run member
  obtain ⟨idx, found⟩ := Finmap.mem_iff.mp (known run member).1
  obtain ⟨config, configured⟩ := stored.configs run (known run member).1 (known run member).2
  have free : idx ∈ state.unusedIdxs := by
    rw [stateConsistent.slots.free_iff]
    constructor
    · rw [same.maxRuns, sameSize]
      exact masterConsistent.slots.bounded idx (masterConsistent.slots.held found)
    · intro taken
      obtain ⟨other, holds⟩ := Finmap.mem_iff.mp taken
      have otherHolds := (stateConsistent.slots.inverse other idx).mpr holds
      have onMaster : master.id2Idx.lookup other = some idx := by
        rw [lookups] at otherHolds
        split at otherHolds
        · exact otherHolds
        · exact shared other idx otherHolds
      obtain rfl := masterConsistent.slots.injective found onMaster
      exact absent (Finmap.mem_of_lookup_eq_some otherHolds)
  obtain ⟨after, succeeded, stays, sameAfter, inserted, -, kept⟩ :=
    create_run_data_spec stateConsistent (ckptSteps run) config absent free
  refine ⟨after, ?_, stays, same.trans sameAfter, ?_, kept.trans factors⟩
  · rw [MultiRunManager.createFrom, stored.id2Idx, subscript_ok found]
    simp only [bind, Except.bind, configured]
    exact succeeded
  · intro other
    rw [inserted]
    by_cases isRun : other = run
    · subst isRun
      rw [Finmap.lookup_insert, if_pos (by simp), found]
    · rw [Finmap.lookup_insert_of_ne _ isRun, lookups]
      simp [isRun]

/-- One slot was given up by a run the ranks knew and is looked at now. -/
def Vacated (known current : Finmap (fun _ : String => Nat)) (idx : Nat) : Prop :=
  ∃ run, known.lookup run = some idx ∧ run ∉ current

/-- The replay on another rank reproduces the master's records, when a name
known to both means the same slot. What was copied stays, except in the slots
of deleted names. -/
theorem synchronize_other_spec {master other : MultiRunManager} {data : SyncData}
    (masterConsistent : Consistent master) (stored : Stored master data)
    (consistent : Consistent other) (sameSize : other.maxRuns = master.maxRuns)
    (synced : other.id2Idx = master.lastSyncedId2Idx)
    (keeps : KeepsSlots master.lastSyncedId2Idx master.id2Idx)
    (order : Iteration String) (ckptSteps : String → List Int) :
    ∃ after deleted, other.synchronizeOther bf16 data order ckptSteps = .ok after ∧
      Consistent after ∧ after.rank = other.rank ∧ after.maxRuns = other.maxRuns ∧
      after.id2Idx = master.id2Idx ∧
      after.calls = other.calls ++ (deletionCalls deleted ++
        creationCalls master.id2Idx (newNames order master.lastSyncedId2Idx master.id2Idx)) ∧
      (∀ idx, Vacated master.lastSyncedId2Idx master.id2Idx idx →
        after.scalingFactors[idx]? = some (poison bf16)) ∧
      ∀ idx, ¬Vacated master.lastSyncedId2Idx master.id2Idx idx →
        after.scalingFactors[idx]? = master.scalingFactors[idx]? := by
  obtain ⟨newRuns, isNewRuns⟩ : ∃ newRuns, newRuns =
    newNames order master.lastSyncedId2Idx master.id2Idx := ⟨_, rfl⟩
  have isNew : ∀ run, run ∈ newRuns ↔ run ∈ master.id2Idx ∧ run ∉ master.lastSyncedId2Idx :=
    fun run => isNewRuns ▸ mem_new_names order _ _ run
  obtain ⟨deletedRuns, isDeletedRuns⟩ : ∃ deletedRuns, deletedRuns =
    newNames order master.id2Idx master.lastSyncedId2Idx := ⟨_, rfl⟩
  have isDeleted : ∀ run, run ∈ deletedRuns ↔
      run ∈ master.lastSyncedId2Idx ∧ run ∉ master.id2Idx :=
    fun run => isDeletedRuns ▸ mem_new_names order _ _ run
  obtain ⟨deleted, collected, names, places⟩ :=
    deleted_run_idxs_spec other.id2Idx deletedRuns
      (fun run member => synced ▸ ((isDeleted run).mp member).1)
  -- The factors are copied before any slot is poisoned.
  obtain ⟨copied, isCopied⟩ : ∃ copied : MultiRunManager, copied = { other with
    readyToUpdate := data.readyToUpdate
    scalingFactors := data.scalingFactors } := ⟨_, rfl⟩
  have copiedConsistent : Consistent copied := by
    subst isCopied
    refine ⟨consistent.slots, consistent.progress_keys, consistent.config_keys, ?_⟩
    exact (congrArg List.length stored.scalingFactors).trans
      (masterConsistent.scaling_length.trans sameSize.symm)
  have copiedSlots : copied.id2Idx = master.lastSyncedId2Idx := by rw [isCopied]; exact synced
  obtain ⟨shrunk, deletions, shrunkConsistent, shrunkSame, shrunkLookups, poisoned⟩ :=
    delete_all_spec bf16 copiedConsistent deleted (by
      rw [names, isDeletedRuns]
      exact order.once _) (by
      intro entry member
      rw [copiedSlots, ← synced]
      exact places entry member)
  rw [names, copiedSlots] at shrunkLookups
  obtain ⟨grown, creations, grownConsistent, grownSame, grownLookups, kept⟩ :=
    create_all_spec masterConsistent stored shrunkConsistent (by
      rw [shrunkSame.maxRuns, isCopied]
      exact sameSize) (by
      intro run idx found
      rw [shrunkLookups] at found
      split at found
      · cases found
      · rename_i stays
        have known : run ∈ master.lastSyncedId2Idx := Finmap.mem_of_lookup_eq_some found
        have current : run ∈ master.id2Idx := by
          by_contra gone
          exact stays ((isDeleted run).mpr ⟨known, gone⟩)
        obtain ⟨place, placed⟩ := Finmap.mem_iff.mp current
        have same := keeps run place placed known
        rw [found, Option.some.injEq] at same
        rw [placed, same]) ckptSteps newRuns (by
      rw [isNewRuns]
      exact order.once _) (by
      intro run member known
      obtain ⟨idx, found⟩ := Finmap.mem_iff.mp known
      rw [shrunkLookups] at found
      split at found
      · cases found
      · exact ((isNew run).mp member).2 (Finmap.mem_of_lookup_eq_some found))
      (fun run member => (isNew run).mp member)
  have caughtUp : grown.id2Idx = master.id2Idx := by
    apply Finmap.ext_lookup
    intro run
    rw [grownLookups, shrunkLookups]
    by_cases new : run ∈ newRuns
    · rw [if_pos new]
    · rw [if_neg new]
      by_cases gone : run ∈ deletedRuns
      · rw [if_pos gone, Finmap.lookup_eq_none.mpr ((isDeleted run).mp gone).2]
      · rw [if_neg gone]
        rw [isNew, not_and_not_right] at new
        rw [isDeleted, not_and_not_right] at gone
        by_cases current : run ∈ master.id2Idx
        · obtain ⟨idx, found⟩ := Finmap.mem_iff.mp current
          rw [found, keeps run idx found (new current)]
        · rw [Finmap.lookup_eq_none.mpr current,
            Finmap.lookup_eq_none.mpr (fun known => current (gone known))]
  have called := call_hooks_spec { grown with progress := data.progress } deleted newRuns
    (fun run member => by
      change run ∈ grown.id2Idx
      rw [caughtUp]
      exact ((isNew run).mp member).1)
  have vacated : ∀ idx, idx ∈ deleted.map Prod.snd ↔
      Vacated master.lastSyncedId2Idx master.id2Idx idx := by
    intro idx
    constructor
    · intro member
      obtain ⟨entry, listed, rfl⟩ := List.mem_map.mp member
      have named : entry.1 ∈ deletedRuns := names ▸ List.mem_map_of_mem listed
      exact ⟨entry.1, synced ▸ places entry listed, ((isDeleted entry.1).mp named).2⟩
    · rintro ⟨run, found, gone⟩
      have named : run ∈ deleted.map Prod.fst := by
        rw [names, isDeleted]
        exact ⟨Finmap.mem_of_lookup_eq_some found, gone⟩
      obtain ⟨entry, listed, rfl⟩ := List.mem_map.mp named
      have place := places entry listed
      rw [synced, found, Option.some.injEq] at place
      exact place ▸ List.mem_map_of_mem listed
  have ownSlots := grownConsistent.slots
  rw [caughtUp, grownSame.maxRuns, shrunkSame.maxRuns, isCopied, sameSize] at ownSlots
  have sameNames := masterConsistent.slots.determined ownSlots
  refine ⟨{ grown with
    progress := data.progress
    calls := grown.calls ++ (deletionCalls deleted ++ creationCalls grown.id2Idx newRuns) },
    deleted, ?_, ?_, ?_, ?_, caughtUp, ?_, ?_, ?_⟩
  · rw [isDeletedRuns, newNames, ← synced] at collected
    rw [isNewRuns, newNames, ← synced] at creations called
    rw [MultiRunManager.synchronizeOther, stored.id2Idx]
    simp only [bind, Except.bind, collected, ← isCopied, deletions, creations]
    rw [called, isNewRuns, newNames, ← synced]
  · refine ⟨grownConsistent.slots, ?_, grownConsistent.config_keys,
      grownConsistent.scaling_length⟩
    intro idx
    change idx ∈ data.progress ↔ idx ∈ grown.idx2Id
    rw [stored.progress, masterConsistent.progress_keys, sameNames.1]
  · exact (grownSame.rank.trans shrunkSame.rank).trans (by rw [isCopied])
  · exact (grownSame.maxRuns.trans shrunkSame.maxRuns).trans (by rw [isCopied])
  · change grown.calls ++ _ = _
    rw [grownSame.calls, shrunkSame.calls, caughtUp, isNewRuns, isCopied]
  · intro idx left
    change grown.scalingFactors[idx]? = _
    rw [kept, poisoned, if_pos ((vacated idx).mpr left)]
  · intro idx unmoved
    change grown.scalingFactors[idx]? = _
    rw [kept, poisoned, if_neg (fun member => unmoved ((vacated idx).mp member)), isCopied,
      ← stored.scalingFactors]

end Manager

end PrimeRl.Trainer.Runs
