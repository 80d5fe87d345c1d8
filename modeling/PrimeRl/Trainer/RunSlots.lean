import PrimeRl.Trainer.Runs

/-!
# Slots on one rank

Creating and deleting a run's data keep the records of a rank in agreement, so
a discovery on the master does. It moves no run that it neither deletes nor
creates, and every slot in use keeps the scaling its run's configuration asks for.
-/

namespace PrimeRl.Trainer.Runs

/-- The records of one rank describe one assignment of runs to slots. -/
structure Consistent (manager : MultiRunManager) : Prop where
  slots : SlotTable.Agrees manager.maxRuns manager.id2Idx manager.idx2Id manager.unusedIdxs
  progress_keys : ∀ idx, idx ∈ manager.progress ↔ idx ∈ manager.idx2Id
  config_keys : ∀ idx, idx ∈ manager.config ↔ idx ∈ manager.idx2Id
  scaling_length : manager.scalingFactors.length = manager.maxRuns

/-- What no change to the run data touches. -/
structure SameRank (before after : MultiRunManager) : Prop where
  rank : after.rank = before.rank
  maxRuns : after.maxRuns = before.maxRuns
  lastSynced : after.lastSyncedId2Idx = before.lastSyncedId2Idx
  calls : after.calls = before.calls

theorem SameRank.refl (manager : MultiRunManager) : SameRank manager manager := by
  constructor <;> rfl

theorem SameRank.trans {first second third : MultiRunManager} (one : SameRank first second)
    (other : SameRank second third) : SameRank first third where
  rank := other.rank.trans one.rank
  maxRuns := other.maxRuns.trans one.maxRuns
  lastSynced := other.lastSynced.trans one.lastSynced
  calls := other.calls.trans one.calls

/-- A run held after a change and held before it has kept its slot. -/
def KeepsSlots (before after : Finmap (fun _ : String => Nat)) : Prop :=
  ∀ run idx, after.lookup run = some idx → run ∈ before → before.lookup run = some idx

section Manager

variable (bf16 : Rat → Rat)

/-- Every slot in use holds the scaling of its run's configuration. -/
def Scaled (config : Finmap (fun _ : Nat => OrchestratorConfig)) (factors : List Rat) : Prop :=
  ∀ idx runConfig, config.lookup idx = some runConfig →
    ∃ scaling, loraScaling runConfig = some scaling ∧ factors[idx]? = some (bf16 scaling)

theorem consistent_init (rank maxRuns : Nat) : Consistent (.init bf16 rank maxRuns) where
  slots := SlotTable.agrees_empty maxRuns
  progress_keys := by simp [MultiRunManager.init, Finmap.notMem_empty]
  config_keys := by simp [MultiRunManager.init, Finmap.notMem_empty]
  scaling_length := List.length_replicate

variable {bf16} {manager : MultiRunManager}

/-- The slot of a run lies in the table of scaling factors. -/
theorem Consistent.in_table (consistent : Consistent manager) {run : String} {idx : Nat}
    (held : manager.id2Idx.lookup run = some idx) : idx < manager.scalingFactors.length := by
  rw [consistent.scaling_length]
  exact consistent.slots.bounded idx (consistent.slots.held held)

/-- Creating a fresh run in a free slot. -/
theorem create_run_data_spec (consistent : Consistent manager) (ckptSteps : List Int)
    {newRun : String} {newId : Nat} (config : OrchestratorConfig)
    (fresh : newRun ∉ manager.id2Idx) (free : newId ∈ manager.unusedIdxs) :
    ∃ after, manager.createRunData ckptSteps newRun newId config = .ok after ∧
      Consistent after ∧ SameRank manager after ∧
      after.id2Idx = manager.id2Idx.insert newRun newId ∧
      after.config = manager.config.insert newId config ∧
      after.scalingFactors = manager.scalingFactors := by
  rw [MultiRunManager.createRunData, if_pos free]
  refine ⟨_, rfl, ?_, ⟨rfl, rfl, rfl, rfl⟩, rfl, rfl, rfl⟩
  constructor
  · exact consistent.slots.take fresh free
  · intro idx
    simp only [Finmap.mem_insert, consistent.progress_keys]
  · intro idx
    simp only [Finmap.mem_insert, consistent.config_keys]
  · exact consistent.scaling_length

variable (bf16) in
/-- Deleting a held run poisons its slot. -/
theorem delete_run_data_spec (consistent : Consistent manager) {deletedRun : String}
    {deletedIdx : Nat} (held : manager.id2Idx.lookup deletedRun = some deletedIdx) :
    ∃ after, manager.deleteRunData bf16 deletedRun deletedIdx = .ok after ∧
      Consistent after ∧ SameRank manager after ∧
      after.id2Idx = manager.id2Idx.erase deletedRun ∧
      after.config = manager.config.erase deletedIdx ∧
      after.scalingFactors = manager.scalingFactors.set deletedIdx (poison bf16) := by
  have listed : deletedIdx ∈ manager.idx2Id := consistent.slots.held held
  have named : deletedRun ∈ manager.id2Idx := Finmap.mem_of_lookup_eq_some held
  have tracked : deletedIdx ∈ manager.progress := (consistent.progress_keys deletedIdx).mpr listed
  have inside : ¬manager.scalingFactors.length ≤ deletedIdx :=
    Nat.not_le.mpr (consistent.in_table held)
  rw [MultiRunManager.deleteRunData, if_neg (not_not.mpr tracked), if_neg inside,
    if_neg (by simp [listed, named])]
  refine ⟨_, rfl, ?_, ⟨rfl, rfl, rfl, rfl⟩, rfl, rfl, rfl⟩
  constructor
  · exact consistent.slots.release held
  · intro idx
    simp only [Finmap.mem_erase, consistent.progress_keys]
  · intro idx
    simp only [Finmap.mem_erase, consistent.config_keys]
  · exact (List.length_set ..).trans consistent.scaling_length

/-- Poisoning a slot leaves the scalings of the remaining runs. -/
theorem Scaled.erase {config : Finmap (fun _ : Nat => OrchestratorConfig)} {factors : List Rat}
    (scaled : Scaled bf16 config factors) (idx : Nat) (value : Rat) :
    Scaled bf16 (config.erase idx) (factors.set idx value) := by
  intro other runConfig found
  have different : other ≠ idx := by
    rintro rfl
    rw [Finmap.lookup_erase] at found
    cases found
  rw [Finmap.lookup_erase_ne different] at found
  rw [List.getElem?_set_ne different.symm]
  exact scaled other runConfig found

/-- A new run's slot is written with the scaling its configuration asks for. -/
theorem Scaled.insert {config : Finmap (fun _ : Nat => OrchestratorConfig)} {factors : List Rat}
    (scaled : Scaled bf16 config factors) {idx : Nat} {runConfig : OrchestratorConfig}
    {scaling : Rat} (asked : loraScaling runConfig = some scaling) (inside : idx < factors.length) :
    Scaled bf16 (config.insert idx runConfig) (factors.set idx (bf16 scaling)) := by
  intro other otherConfig found
  by_cases same : other = idx
  · subst same
    rw [Finmap.lookup_insert, Option.some.injEq] at found
    subst found
    exact ⟨scaling, asked, List.getElem?_set_self inside⟩
  · rw [Finmap.lookup_insert_of_ne _ same] at found
    rw [List.getElem?_set_ne (Ne.symm same)]
    exact scaled other otherConfig found

variable (bf16) in
/-- The discovery hook only writes the scaling of the run it is told about. -/
theorem on_run_discovered_spec (consistent : Consistent manager) (loraConfig : Option LoRAConfig)
    {idx : Nat} {config : OrchestratorConfig} (inside : idx < manager.scalingFactors.length)
    (asked : loraConfig.isSome → ∃ scaling, loraScaling config = some scaling) :
    ∃ after, onRunDiscovered bf16 loraConfig manager idx config = .ok after ∧
      Consistent after ∧ SameRank manager after ∧ after.id2Idx = manager.id2Idx ∧
      after.config = manager.config ∧
      ∀ scaling, loraConfig.isSome → loraScaling config = some scaling →
        after.scalingFactors = manager.scalingFactors.set idx (bf16 scaling) := by
  cases loraConfig with
  | none =>
    exact ⟨manager, rfl, consistent, .refl manager, rfl, rfl,
      fun _ impossible => absurd impossible (by simp)⟩
  | some trainerLora =>
    obtain ⟨scaling, named⟩ := asked rfl
    rw [onRunDiscovered, named]
    simp only [Nat.not_le.mpr inside, if_false]
    refine ⟨_, rfl, ?_, ⟨rfl, rfl, rfl, rfl⟩, rfl, rfl, ?_⟩
    · exact ⟨consistent.slots, consistent.progress_keys, consistent.config_keys,
        (List.length_set ..).trans consistent.scaling_length⟩
    · intro other _ same
      rw [Option.some.inj same]

/-- A configuration that passes the adapter's check asks for a scaling. -/
theorem accepted_scaling {loraConfig : Option LoRAConfig}
    {parsed : String → Option OrchestratorConfig} {runId : String} {config : OrchestratorConfig}
    (accepted : getOrchestratorConfig loraConfig parsed runId = some config)
    (registered : loraConfig.isSome) : ∃ scaling, loraScaling config = some scaling := by
  obtain ⟨trainerLora, rfl⟩ := Option.isSome_iff_exists.mp registered
  unfold getOrchestratorConfig at accepted
  cases read : parsed runId with
  | none => simp [read] at accepted
  | some raw =>
    simp only [read] at accepted
    cases checked : validateLoraRank trainerLora raw with
    | error message => simp [checked, Except.toOption] at accepted
    | ok valid =>
      simp only [checked, Except.toOption, Option.some.injEq] at accepted
      exact accepted ▸ validated_scaling trainerLora raw valid checked

/-- What one discovery promises about the master, relative to its start. -/
structure Discovered (bf16 : Rat → Rat) (loraConfig : Option LoRAConfig)
    (before after : MultiRunManager) : Prop where
  consistent : Consistent after
  sameRank : SameRank before after
  keeps : KeepsSlots before.id2Idx after.id2Idx
  scaled : loraConfig.isSome → Scaled bf16 before.config before.scalingFactors →
    Scaled bf16 after.config after.scalingFactors

variable (bf16) in
/-- The deletion loop ends with exactly the deleted names gone. -/
theorem forget_runs_spec (consistent : Consistent manager) (loraConfig : Option LoRAConfig)
    (deletedRuns : List String) (once : deletedRuns.Nodup)
    (held : ∀ run ∈ deletedRuns, run ∈ manager.id2Idx) :
    ∃ after, deletedRuns.foldlM (forgetRun bf16) manager = .ok after ∧
      Discovered bf16 loraConfig manager after ∧
      ∀ run, after.id2Idx.lookup run =
        if run ∈ deletedRuns then none else manager.id2Idx.lookup run := by
  refine Loop.completes _ (fun done state => Discovered bf16 loraConfig manager state ∧
    ∀ run, state.id2Idx.lookup run = if run ∈ done then none else manager.id2Idx.lookup run)
    deletedRuns ?_ manager ⟨⟨consistent, .refl manager, fun _ _ found _ => found,
      fun _ scaled => scaled⟩, fun _ => by simp⟩
  rintro done run rest state split ⟨discovered, lookups⟩
  have waiting : run ∉ done := by
    rw [split] at once
    exact fun early => List.disjoint_of_nodup_append once early List.mem_cons_self
  obtain ⟨idx, found⟩ := Finmap.mem_iff.mp (held run (by rw [split]; simp))
  have stillHeld : state.id2Idx.lookup run = some idx := by rw [lookups, if_neg waiting, found]
  obtain ⟨after, deleted, stays, same, erased, configErased, poisoned⟩ :=
    delete_run_data_spec bf16 discovered.consistent stillHeld
  refine ⟨after, ?_, ⟨stays, discovered.sameRank.trans same, ?_, ?_⟩, ?_⟩
  · rw [forgetRun, subscript_ok stillHeld]
    exact deleted
  · intro other place placed known
    rw [erased] at placed
    have different : other ≠ run := by
      rintro rfl
      rw [Finmap.lookup_erase] at placed
      cases placed
    rw [Finmap.lookup_erase_ne different] at placed
    exact discovered.keeps other place placed known
  · intro registered scaled
    rw [configErased, poisoned]
    exact (discovered.scaled registered scaled).erase idx (poison bf16)
  · intro other
    rw [erased]
    by_cases same : other = run
    · subst same
      simp [Finmap.lookup_erase]
    · rw [Finmap.lookup_erase_ne same, lookups]
      simp [same]

variable (bf16) in
/-- The loop over new names creates some of them, each in a slot nobody holds. -/
theorem discover_new_runs_spec (consistent : Consistent manager)
    (loraConfig : Option LoRAConfig) (scan : Scan) (newRuns : List String)
    (once : newRuns.Nodup) (fresh : ∀ run ∈ newRuns, run ∉ manager.id2Idx) :
    ∃ after, newRuns.foldlM (discoverRun bf16 loraConfig scan) manager = .ok after ∧
      Discovered bf16 loraConfig manager after ∧
      ∀ run, run ∈ after.id2Idx → run ∈ manager.id2Idx ∨ run ∈ newRuns := by
  refine Loop.completes _ (fun done state => Discovered bf16 loraConfig manager state ∧
    ∀ run, run ∈ state.id2Idx → run ∈ manager.id2Idx ∨ run ∈ done)
    newRuns ?_ manager ⟨⟨consistent, .refl manager, fun _ _ found _ => found,
      fun _ scaled => scaled⟩, fun _ known => .inl known⟩
  rintro done run rest state split ⟨discovered, origin⟩
  have passedOver : ∃ next, Except.ok (ε := String) state = .ok next ∧
      Discovered bf16 loraConfig manager next ∧
      ∀ other, other ∈ next.id2Idx → other ∈ manager.id2Idx ∨ other ∈ done ++ [run] :=
    ⟨state, rfl, discovered, fun other known => (origin other known).imp_right (by simp; tauto)⟩
  rw [discoverRun]
  cases chosen : (scan.idxOrder.order state.unusedIdxs).head? with
  | none => exact passedOver
  | some newId =>
    have free : newId ∈ state.unusedIdxs :=
      (scan.idxOrder.lists _ newId).mp (List.mem_of_head? chosen)
    cases accepted : getOrchestratorConfig loraConfig scan.parsed run with
    | none => exact passedOver
    | some config =>
      have waiting : run ∉ done := by
        rw [split] at once
        exact fun early => List.disjoint_of_nodup_append once early List.mem_cons_self
      have unknown : run ∉ manager.id2Idx := fresh run (by rw [split]; simp)
      have absent : run ∉ state.id2Idx := fun known =>
        (origin run known).elim unknown waiting
      obtain ⟨placed, creation, placedConsistent, placedSame, inserted, configured, factors⟩ :=
        create_run_data_spec discovered.consistent (scan.ckptSteps run) config absent free
      have placedAt : placed.id2Idx.lookup run = some newId := by
        rw [inserted, Finmap.lookup_insert]
      obtain ⟨after, hook, stays, same, unmoved, unconfigured, written⟩ :=
        on_run_discovered_spec bf16 placedConsistent loraConfig
          (placedConsistent.in_table placedAt) (accepted_scaling accepted)
      refine ⟨after, ?_, ⟨stays, (discovered.sameRank.trans placedSame).trans same, ?_, ?_⟩, ?_⟩
      · simp only [creation]
        exact hook
      · intro other place found known
        have different : other ≠ run := by
          rintro rfl
          exact unknown known
        rw [unmoved, inserted, Finmap.lookup_insert_of_ne _ different] at found
        exact discovered.keeps other place found known
      · intro registered scaled
        obtain ⟨scaling, asked⟩ := accepted_scaling accepted registered
        rw [unconfigured, configured, written scaling registered asked, factors]
        refine (discovered.scaled registered scaled).insert asked ?_
        rw [← factors]
        exact placedConsistent.in_table placedAt
      · intro other known
        rw [unmoved, inserted] at known
        rcases Finmap.mem_insert.mp known with rfl | older
        · exact .inr (by simp)
        · exact (origin other older).imp_right (by simp; tauto)

variable (bf16) in
/-- A discovery on the master always completes. -/
theorem discover_runs_spec (consistent : Consistent manager) (isMaster : manager.rank = 0)
    (loraConfig : Option LoRAConfig) (scan : Scan) :
    ∃ after, manager.discoverRuns bf16 loraConfig scan = .ok after ∧
      Discovered bf16 loraConfig manager after := by
  obtain ⟨runIds, isRunIds⟩ : ∃ runIds, runIds = scan.runDirs \ scan.evicted := ⟨_, rfl⟩
  obtain ⟨shrunk, forgotten, shrunkSpec, lookups⟩ :=
    forget_runs_spec bf16 consistent loraConfig
      (scan.runOrder.order (manager.id2Idx.keys \ runIds)) (scan.runOrder.once _) (by
        intro run member
        rw [scan.runOrder.lists, Finset.mem_sdiff, Finmap.mem_keys] at member
        exact member.1)
  have shrinks : ∀ run, run ∈ shrunk.id2Idx → run ∈ manager.id2Idx := by
    intro run known
    obtain ⟨idx, found⟩ := Finmap.mem_iff.mp known
    rw [lookups] at found
    split at found
    · cases found
    · exact Finmap.mem_of_lookup_eq_some found
  obtain ⟨after, discovery, afterSpec, origin⟩ :=
    discover_new_runs_spec bf16 shrunkSpec.consistent loraConfig scan
      (scan.runOrder.order (runIds \ manager.id2Idx.keys)) (scan.runOrder.once _) (by
        intro run member known
        rw [scan.runOrder.lists, Finset.mem_sdiff, Finmap.mem_keys] at member
        exact member.2 (shrinks run known))
  refine ⟨after, ?_, afterSpec.consistent, shrunkSpec.sameRank.trans afterSpec.sameRank, ?_, ?_⟩
  · rw [MultiRunManager.discoverRuns, if_neg (not_not.mpr isMaster), ← isRunIds]
    simp only [bind, Except.bind, forgotten]
    exact discovery
  · intro run idx placed known
    rcases origin run (Finmap.mem_of_lookup_eq_some placed) with older | new
    · exact shrunkSpec.keeps run idx (afterSpec.keeps run idx placed older) known
    · rw [scan.runOrder.lists, Finset.mem_sdiff, Finmap.mem_keys] at new
      exact absurd known new.2
  · exact fun registered scaled => afterSpec.scaled registered (shrunkSpec.scaled registered scaled)

end Manager

end PrimeRl.Trainer.Runs
