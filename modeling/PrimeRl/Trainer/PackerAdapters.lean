import Mathlib.Algebra.Ring.Int.Defs
import Mathlib.Algebra.Ring.Nat
import PrimeRl.Trainer.GridOrigins
import PrimeRl.Trainer.LoraRows
import PrimeRl.Trainer.PackerHistories

/-!
# The adapters of a packed grid

The packer packs each run by itself and appends the grids of the runs worker by
worker, so at one step all workers hold the same run. Its rows hold the tokens
of the run and then their padding; what the layers make of a row follows.
-/

namespace PrimeRl.Trainer.Packer

open PrimeRl.Trainer.Batch PrimeRl.Trainer.Runs PrimeRl.Trainer.Lora PrimeRl.Transport

variable {Scalar Factor : Type}

/-- The run and the step of a group, stamped on a micro batch. -/
def stamp (runId : String) (group : RunGroup Scalar) (row : MicroBatch Scalar) :
    MicroBatch Scalar :=
  { row with runId := some runId, runStep := some group.step }

section Origins
variable [Zero Scalar] [One Scalar] [DecidableEq Scalar]

/-- A micro batch of a group: a row of its samples, padded or a dummy copy of
that, with `real` tokens from samples. -/
def MicroBatchOf (numpy : Numpy) (packer : MultiPacker Scalar) (group : RunGroup Scalar)
    (row : MicroBatch Scalar) (real : Nat) : Prop :=
  ∃ samples rows source padded runId,
    prepareSamples numpy packer.seqLen
      ((List.replicate group.samples.length group.runIdx).zip group.samples) = .ok samples ∧
    packedSamplesIntoMicroBs samples packer.seqLen packer.manager.maxRuns packer.dpWorldSize
      packer.binCost = .ok rows ∧
    source ∈ rows ∧ padMicroBatch source packer.padToMultipleOf = .ok padded ∧
    subscript packer.manager.idx2Id group.runIdx = .ok runId ∧
    (row = stamp runId group padded ∨ row = stamp runId group (makeDummyBatch padded)) ∧
    real = source.inputIds.length

/-! ## The counts of a micro batch -/

omit [One Scalar] in
theorem prepare_samples_slots (numpy : Numpy) (seqLen : Nat)
    (pairs : List (Nat × TrainingSample Scalar)) (samples : List (Slotted Scalar))
    (accepted : prepareSamples numpy seqLen pairs = .ok samples) :
    ∀ sample ∈ samples, ∃ pair ∈ pairs, sample.1 = pair.1 := by
  intro sample member
  obtain ⟨pair, inside, slot, -⟩ :=
    related_left ((prepare_samples_iff numpy seqLen pairs samples).mp accepted) sample member
  exact ⟨pair, inside, slot⟩

omit [Zero Scalar] [One Scalar] [DecidableEq Scalar] in
/-- Samples of one slot are counted there. -/
theorem count_one_slot (numLoras slot : Nat) (samples : List (Slotted Scalar))
    (same : ∀ sample ∈ samples, sample.1 = slot) :
    countLoraTokens numLoras samples =
      (List.replicate numLoras 0).modify slot (· + totalTokens samples) := by
  have general (counts : List Nat) :
      samples.foldl (fun counts sample => counts.modify sample.1 (· + tokenCount sample)) counts =
        counts.modify slot (· + totalTokens samples) := by
    induction samples generalizing counts with
    | nil =>
      change counts = counts.modify slot id
      exact (List.modify_id slot counts).symm
    | cons sample rest inductionHypothesis =>
      have tail := inductionHypothesis
        (fun other member => same other (List.mem_cons_of_mem sample member))
      rw [List.foldl_cons, tail, same sample List.mem_cons_self, List.modify_modify_eq]
      congr 1
      funext count
      change count + tokenCount sample + totalTokens rest =
        count + totalTokens (sample :: rest)
      rw [totalTokens, totalTokens, List.map_cons, List.sum_cons, Nat.add_assoc]
  exact general _

/-- A micro batch of a group is a row of its slot with its padding behind. -/
theorem micro_batch_slots {numpy : Numpy} {packer : MultiPacker Scalar} {group : RunGroup Scalar}
    {row : MicroBatch Scalar} {real : Nat} (listed : MicroBatchOf numpy packer group row real) :
    ∃ padding, SlotRow packer.manager.maxRuns row group.runIdx real padding := by
  obtain ⟨samples, rows, source, padded, runId, prepared, packed, inRows, pads, -, isRow, rfl⟩ := listed
  obtain ⟨first, rest, experts, isSource, held⟩ := packed_row_cases packed inRows
  have slots : ∀ sample ∈ first :: rest, sample.1 = group.runIdx := by
    intro sample member
    obtain ⟨pair, inside, same⟩ := prepare_samples_slots numpy packer.seqLen _ samples prepared
      sample (held sample member).1
    rw [same]
    exact List.eq_of_mem_replicate (List.of_mem_zip inside).1
  have inside : group.runIdx < packer.manager.maxRuns := by
    rw [← slots first List.mem_cons_self]
    exact (held first List.mem_cons_self).2
  have length : source.inputIds.length = totalTokens (first :: rest) := by
    rw [isSource]
    exact stack_input_length first (first :: rest) experts packer.manager.maxRuns
  have counts : source.loraNumTokens = some ((List.replicate packer.manager.maxRuns 0).modify
      group.runIdx (· + source.inputIds.length)) := by
    rw [length, ← count_one_slot packer.manager.maxRuns group.runIdx (first :: rest) slots, isSource]
    rfl
  have copied : row.loraNumTokens = padded.loraNumTokens ∧ row.inputIds = padded.inputIds := by
    rcases isRow with rfl | rfl
    · exact ⟨rfl, rfl⟩
    · exact ⟨rfl, rfl⟩
  rw [padMicroBatch] at pads
  split at pads
  · cases pads
  · split at pads
    · cases pads
    · split at pads
      · obtain rfl := Except.ok.inj pads
        refine ⟨0, ?_, ?_, inside⟩
        · have unpadded (values : List Nat) (idx : Nat) : values.modify idx (· + 0) = values :=
            List.modify_id idx values
          rw [copied.1, counts, slotCounts, unpadded]
        · rw [copied.2, Nat.add_zero]
      · obtain rfl := Except.ok.inj pads
        refine ⟨paddingSize source.inputIds.length packer.padToMultipleOf, ?_, ?_, inside⟩
        · rw [copied.1, appendPadding, counts, slotCounts, Option.map_some, List.length_modify,
            List.length_replicate]
        · rw [copied.2, appendPadding, List.length_append, List.length_replicate]

/-! ## Lock-step -/

/-- Each worker of a grid holds micro batches of the planned groups, in order. -/
def Follows (numpy : Numpy) (packer : MultiPacker Scalar) (plan : List (RunGroup Scalar))
    (grid : List (List (MicroBatch Scalar))) : Prop :=
  ∀ worker ∈ grid,
    List.Forall₂ (fun group row => ∃ real, MicroBatchOf numpy packer group row real) plan worker

omit [Zero Scalar] [One Scalar] [DecidableEq Scalar] in
/-- A list is related to as many copies of what all its items are related to. -/
theorem forall₂_replicate {Value Item : Type} {Related : Value → Item → Prop} (value : Value)
    (items : List Item) (each : ∀ item ∈ items, Related value item) :
    List.Forall₂ Related (List.replicate items.length value) items := by
  induction items with
  | nil => exact .nil
  | cons item rest inductionHypothesis =>
    rw [List.length_cons, List.replicate_succ]
    exact .cons (each item List.mem_cons_self)
      (inductionHypothesis (fun other member => each other (List.mem_cons_of_mem item member)))

theorem run_grid_follows {numpy : Numpy} {packer : MultiPacker Scalar} {group : RunGroup Scalar}
    {grid : List (List (MicroBatch Scalar))} (accepted : packer.runGrid numpy group = .ok grid) :
    grid.length = packer.dpWorldSize ∧
      ∃ steps, Follows numpy packer (List.replicate steps group) grid := by
  cases prepared : prepareBatch numpy group.samples packer.seqLen packer.dpWorldSize
      (List.replicate group.samples.length group.runIdx) packer.manager.maxRuns packer.binCost
      packer.padToMultipleOf with
  | error message => simp [MultiPacker.runGrid, prepared, bind, Except.bind] at accepted
  | ok rows =>
  cases found : subscript packer.manager.idx2Id group.runIdx with
  | error message => simp [MultiPacker.runGrid, prepared, found, bind, Except.bind] at accepted
  | ok runId =>
  simp only [MultiPacker.runGrid, prepared, found, bind, Except.bind, pure, Except.pure] at accepted
  obtain rfl := Except.ok.inj accepted
  obtain ⟨samples, sources, samplesOk, packed, workers, ⟨steps, even⟩, origins⟩ :=
    prepare_batch_cases packer.dpWorldSize.pos prepared
  refine ⟨by rw [List.length_map, workers], steps, ?_⟩
  intro worker member
  obtain ⟨unstamped, inside, rfl⟩ := List.mem_map.mp member
  have length : (unstamped.map (stamp runId group)).length = steps := by
    rw [List.length_map, even unstamped inside]
  rw [← length]
  refine forall₂_replicate group _ ?_
  intro row listed
  obtain ⟨original, held, rfl⟩ := List.mem_map.mp listed
  obtain ⟨source, inSources, padded, pads, isRow⟩ := origins unstamped inside original held
  refine ⟨source.inputIds.length, samples, sources, source, padded, runId, samplesOk, packed,
    inSources, pads, found, ?_, rfl⟩
  rcases isRow with rfl | rfl
  · exact Or.inl rfl
  · exact Or.inr rfl

theorem merge_grid_follows {numpy : Numpy} {packer : MultiPacker Scalar}
    {plan others : List (RunGroup Scalar)} {all grid : List (List (MicroBatch Scalar))}
    (same : all.length = grid.length) (earlier : Follows numpy packer plan all)
    (later : Follows numpy packer others grid) :
    (mergeGrid all grid).length = all.length ∧
      Follows numpy packer (plan ++ others) (mergeGrid all grid) := by
  refine ⟨by rw [mergeGrid, List.length_mapIdx], ?_⟩
  intro worker member
  obtain ⟨idx, inside, rfl⟩ := List.getElem_of_mem member
  have present : idx < all.length := by
    rwa [mergeGrid, List.length_mapIdx] at inside
  have other : idx < grid.length := same ▸ present
  simp only [mergeGrid, List.getElem_mapIdx, List.getD_eq_getElem?_getD,
    List.getElem?_eq_getElem other, Option.getD_some]
  exact List.rel_append (earlier _ (List.getElem_mem present)) (later _ (List.getElem_mem other))

theorem pack_groups_follows {numpy : Numpy} {packer : MultiPacker Scalar}
    {groups : List (RunGroup Scalar)} {grid : List (List (MicroBatch Scalar))}
    (accepted : packer.packGroups numpy groups = .ok grid) :
    ∃ plan, (∀ group ∈ plan, group ∈ groups) ∧ Follows numpy packer plan grid := by
  have general (pending : List (RunGroup Scalar)) (inside : ∀ group ∈ pending, group ∈ groups)
      (plan : List (RunGroup Scalar)) (planned : ∀ group ∈ plan, group ∈ groups)
      (all : List (List (MicroBatch Scalar))) (workers : all.length = packer.dpWorldSize)
      (follows : Follows numpy packer plan all)
      (folded : pending.foldlM (fun all group => do
        let grid ← packer.runGrid numpy group
        return mergeGrid all grid) all = .ok grid) :
      ∃ plan, (∀ group ∈ plan, group ∈ groups) ∧ Follows numpy packer plan grid := by
    induction pending generalizing plan all with
    | nil =>
      obtain rfl := Except.ok.inj folded
      exact ⟨plan, planned, follows⟩
    | cons group rest inductionHypothesis =>
      rw [List.foldlM_cons] at folded
      cases packs : packer.runGrid numpy group with
      | error message => simp [packs, bind, Except.bind] at folded
      | ok own =>
        simp only [packs, bind, Except.bind, pure, Except.pure] at folded
        obtain ⟨ownWorkers, steps, ownFollows⟩ := run_grid_follows packs
        obtain ⟨mergedWorkers, merged⟩ := merge_grid_follows (workers.trans ownWorkers.symm)
          follows ownFollows
        refine inductionHypothesis
          (fun other member => inside other (List.mem_cons_of_mem group member))
          (plan ++ List.replicate steps group) ?_ _ (mergedWorkers.trans workers) merged folded
        intro other member
        rcases List.mem_append.mp member with earlier | copy
        · exact planned other earlier
        · rw [List.eq_of_mem_replicate copy]
          exact inside group List.mem_cons_self
  refine general _ ?_ [] ?_ _ List.length_replicate ?_ accepted
  · intro group member
    exact (List.perm_insertionSort _ _).mem_iff.mp member
  · exact fun group impossible => absurd impossible List.not_mem_nil
  · intro worker member
    rw [List.eq_of_mem_replicate member]
    exact .nil

/-! ## The adapters of a call -/

/-- The row fits 32-bit offsets, and the shard in which the tokens of samples end
holds at least as many of them as of padding, if it holds padding for another slot. -/
def Outvotes (maxRuns slot real length cpSize : Nat) : Prop :=
  length < 2 ^ 31 ∧ (slot + 1 = maxRuns ∨ real % (length / cpSize) = 0 ∨
    length / cpSize ≤ 2 * (real % (length / cpSize)))

/-- At one step all workers hold micro batches of one run, and the shards of a
micro batch are processed with the adapter of that run exactly when its padding
is outvoted. -/
def AdaptersFollow (numpy : Numpy) (factors : List Factor) (packed : Packed Scalar) : Prop :=
  ∃ plan : List (RunGroup Scalar), (∀ group ∈ plan, group ∈ packed.selection.groups) ∧
    ∀ worker ∈ packed.grid, List.Forall₂ (fun group row =>
      (∃ real, MicroBatchOf numpy packed.selection.packer group row real) ∧
      ∀ real cpSize, MicroBatchOf numpy packed.selection.packer group row real →
        Shards row cpSize →
          ((∀ cpRank < cpSize, ShardAssigned factors packed.selection.packer.manager.maxRuns row
              group.runIdx real cpSize cpRank) ↔
            Outvotes packed.selection.packer.manager.maxRuns group.runIdx real
              row.inputIds.length cpSize)) plan worker

theorem pack_follows {numpy : Numpy} {packer : MultiPacker Scalar} {polls : List (Poll Scalar)}
    {packed : Packed Scalar} (sends : packer.pack numpy polls = some (.ok packed)) :
    packed.selection.packer.packGroups numpy packed.selection.groups = .ok packed.grid ∧
      assertGrid packer.dpWorldSize packed.grid = .ok () := by
  rw [MultiPacker.pack] at sends
  split at sends
  · cases sends
  · cases sends
  · rename_i waited _
    split at sends
    · cases sends
    · cases sends
    · rename_i selection _
      cases packs : selection.packer.packGroups numpy selection.groups with
      | error message => simp [packs, bind, Except.bind] at sends
      | ok grid =>
        cases checked : assertGrid packer.dpWorldSize grid with
        | error message => simp [packs, checked, bind, Except.bind] at sends
        | ok _ =>
          simp only [packs, checked, bind, Except.bind, pure, Except.pure] at sends
          obtain rfl := Except.ok.inj (Option.some.inj sends)
          exact ⟨packs, checked⟩

theorem pack_adapters_iff (numpy : Numpy) (packer : MultiPacker Scalar) (polls : List (Poll Scalar))
    (packed : Packed Scalar) (sends : packer.pack numpy polls = some (.ok packed))
    (factors : List Factor) (sized : factors.length = packed.selection.packer.manager.maxRuns) :
    packed.grid.length = packer.dpWorldSize ∧ AdaptersFollow numpy factors packed := by
  obtain ⟨packs, checked⟩ := pack_follows sends
  obtain ⟨plan, planned, follows⟩ := pack_groups_follows packs
  refine ⟨((assert_grid_iff _ _).mp checked).1, plan, planned, ?_⟩
  intro worker member
  refine (follows worker member).imp ?_
  intro group row origin
  refine ⟨origin, ?_⟩
  intro real cpSize listed shards
  obtain ⟨padding, slotRow⟩ := micro_batch_slots listed
  exact ranks_assigned_iff factors sized slotRow shards

end Origins

/-! ## A call with one short sample -/

/-- A packer of two slots with one run in the first, rows padded to eight tokens. -/
def shortPacker : MultiPacker Rat := .init oneRun ⟨1, Nat.one_pos⟩ 8 8 (fun lengths => (lengths.sum : Int))

/-- One sample of three tokens arrives and the time is up. -/
def shortPolls : List (Poll Rat) := [⟨[⟨[creditedSample], 1, some 0⟩], true⟩]

/-- What the call selects. -/
def shortSelection : Selection Rat where
  packer := { shortPacker with
    manager := { oneRun with
      progress := oneRun.progress.insert 0 ⟨2, 3, 1⟩
      readyToUpdate := [true, false] }
    buffers := [[], []]
    roundRobinPosition := 1 }
  selected := [⟨0, creditedSample, 1⟩]
  groups := [⟨0, 1, [creditedSample], 1, 3⟩]

theorem short_selects : waitForTokens shortPacker shortPolls =
      some (.ok { shortPacker with buffers := [[(creditedSample, 1)], []] }) ∧
    ({ shortPacker with buffers := [[(creditedSample, 1)], []] } : MultiPacker Rat).selectStep =
      some (.ok shortSelection) := by
  constructor
  · rfl
  · rfl

/-- The call sends one list with at least one micro batch. -/
theorem short_packs : ∃ packed, shortPacker.pack noImages shortPolls = some (.ok packed) ∧
    packed.selection = shortSelection ∧ ∃ worker ∈ packed.grid, worker ≠ [] := by
  obtain ⟨waits, selects⟩ := short_selects
  obtain ⟨samples, rows, grid, -, -, prepared, lockStep, -⟩ :=
    prepare_batch_lock_step noImages [creditedSample] 8 1 [0] 2 (fun lengths => (lengths.sum : Int))
      8 (by decide) (by decide) (by decide) rfl (by decide)
      (by
        intro sample member
        obtain rfl := List.mem_singleton.mp member
        exact ⟨wholeSample creditedSample [0, 1, 1], by decide +kernel, by decide⟩)
      (by
        intro first second listed _
        simp [creditedSample] at listed)
      (fun several => absurd several (by decide))
  obtain ⟨worker, isGrid⟩ := List.length_eq_one_iff.mp lockStep.workers
  subst isGrid
  obtain ⟨steps, atLeastOne, height⟩ := lockStep.height
  have stamped : shortSelection.packer.runGrid noImages ⟨0, 1, [creditedSample], 1, 3⟩ =
      .ok [worker.map (fun row => { row with runId := some "run_a", runStep := some 1 })] := by
    have known : subscript shortSelection.packer.manager.idx2Id 0 = .ok "run_a" := rfl
    have own : prepareBatch noImages [creditedSample] shortSelection.packer.seqLen
        shortSelection.packer.dpWorldSize (List.replicate 1 0) shortSelection.packer.manager.maxRuns
        shortSelection.packer.binCost shortSelection.packer.padToMultipleOf = .ok [worker] := prepared
    simp only [MultiPacker.runGrid, List.length_singleton, own, known, bind, Except.bind, pure,
      Except.pure, List.map_cons, List.map_nil]
  obtain ⟨sent, isSent⟩ : ∃ sent, sent =
    worker.map (fun row => { row with runId := some "run_a", runStep := some 1 }) := ⟨_, rfl⟩
  rw [← isSent] at stamped
  have packs : shortSelection.packer.packGroups noImages shortSelection.groups = .ok [sent] := by
    have sorted : shortSelection.groups.insertionSort
        (fun first second => first.runIdx ≤ second.runIdx) = [⟨0, 1, [creditedSample], 1, 3⟩] := rfl
    rw [MultiPacker.packGroups, sorted, List.foldlM_cons, stamped]
    rfl
  have checked : assertGrid shortPacker.dpWorldSize [sent] = .ok () := single_grid_checked sent rfl
  refine ⟨⟨shortSelection, [sent]⟩, ?_, rfl, sent, List.mem_singleton_self sent, ?_⟩
  · simp only [MultiPacker.pack, waits, selects, packs, checked, bind, Except.bind]
    rfl
  · have atLeast := height worker (List.mem_singleton_self worker)
    rw [isSent, ne_eq, List.map_eq_nil_iff]
    apply List.ne_nil_of_length_pos
    omega

/-- The short row's shards, with two factors. -/
theorem pack_adapters_iff_short : ∃ packed,
    shortPacker.pack noImages shortPolls = some (.ok packed) ∧
      packed.grid.length = shortPacker.dpWorldSize ∧
      AdaptersFollow noImages [(1 : Rat), 1 / 2] packed := by
  obtain ⟨packed, sends, isSelection, -⟩ := short_packs
  refine ⟨packed, sends, ?_⟩
  apply pack_adapters_iff noImages shortPacker shortPolls packed sends [1, 1 / 2]
  rw [isSelection]
  rfl

/-- Every micro batch of the short call has three tokens of its sample among eight. -/
theorem short_row_tokens {group : RunGroup Rat} (inGroups : group ∈ shortSelection.groups)
    {row : MicroBatch Rat} {real : Nat}
    (listed : MicroBatchOf noImages shortSelection.packer group row real) :
    group.runIdx = 0 ∧ real = 3 ∧ row.inputIds.length = 8 := by
  obtain rfl := List.mem_singleton.mp inGroups
  obtain ⟨samples, rows, source, padded, runId, prepared, packed, inRows, pads, -, isRow, isReal⟩ :=
    listed
  have sample : prepareSamples noImages shortSelection.packer.seqLen
      ((List.replicate 1 0).zip [creditedSample]) = .ok [(0, wholeSample creditedSample [0, 1, 1])] := by
    decide +kernel
  obtain rfl := Except.ok.inj (sample.symm.trans prepared)
  have source : packedSamplesIntoMicroBs [(0, wholeSample creditedSample [0, 1, 1])]
      shortSelection.packer.seqLen shortSelection.packer.manager.maxRuns
      shortSelection.packer.dpWorldSize shortSelection.packer.binCost =
        .ok [stackSamples (0, wholeSample creditedSample [0, 1, 1])
          [(0, wholeSample creditedSample [0, 1, 1])] none 2] := by
    decide +kernel
  obtain rfl := Except.ok.inj (source.symm.trans packed)
  obtain rfl := List.mem_singleton.mp inRows
  have eight : padMicroBatch (stackSamples (0, wholeSample creditedSample [0, 1, 1])
      [(0, wholeSample creditedSample [0, 1, 1])] none 2) shortSelection.packer.padToMultipleOf =
        .ok (appendPadding (stackSamples (0, wholeSample creditedSample [0, 1, 1])
          [(0, wholeSample creditedSample [0, 1, 1])] none 2) 5) := by
    decide +kernel
  obtain rfl := Except.ok.inj (eight.symm.trans pads)
  refine ⟨rfl, isReal, ?_⟩
  rcases isRow with rfl | rfl
  · rfl
  · rfl

/-- Three tokens of the first run share a row with five tokens of padding, which
grouped experts follow to the last slot. -/
theorem short_row_outvoted : ∃ packed,
    shortPacker.pack noImages shortPolls = some (.ok packed) ∧
      ∃ worker ∈ packed.grid, ∃ row ∈ worker, ∃ real, ∃ group ∈ packed.selection.groups,
        MicroBatchOf noImages packed.selection.packer group row real ∧ Shards row 1 ∧
        ¬ ShardAssigned [(1 : Rat), 1 / 2] packed.selection.packer.manager.maxRuns row
          group.runIdx real 1 0 := by
  obtain ⟨packed, sends, isSelection, worker, member, nonempty⟩ := short_packs
  obtain ⟨plan, planned, follows⟩ := pack_groups_follows (pack_follows sends).1
  have related := follows worker member
  cases related with
  | nil => exact absurd rfl nonempty
  | @cons group row others rest first _ =>
    obtain ⟨real, listed⟩ := first
    have inGroups := planned group List.mem_cons_self
    have shards : Shards row 1 :=
      ⟨Nat.one_pos, Nat.one_dvd _, fun several => absurd several (Nat.lt_irrefl 1)⟩
    refine ⟨packed, sends, row :: rest, member, row, List.mem_cons_self, real, group, inGroups,
      listed, shards, ?_⟩
    intro assigned
    obtain ⟨padding, slotRow⟩ := micro_batch_slots listed
    rw [isSelection] at inGroups listed slotRow assigned
    obtain ⟨isFirst, rfl, length⟩ := short_row_tokens inGroups listed
    have condition := (ranks_assigned_iff [(1 : Rat), 1 / 2] rfl slotRow shards).mp (by
      intro cpRank rank
      rw [Nat.lt_one_iff.mp rank]
      exact assigned)
    rw [isFirst, length] at condition
    exact absurd condition.2 (by decide)

end PrimeRl.Trainer.Packer
