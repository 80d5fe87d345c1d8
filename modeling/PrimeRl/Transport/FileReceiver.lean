import PrimeRl.Trainer.RunSlots
import PrimeRl.Transport.Receivers

/-!
# What the file receiver returns

Listing the paths settles the next step of every used run. A call then reads the
file of that step for each used run that can take a batch, and moves the step on
where there was one.
-/

namespace PrimeRl.Transport.Receivers

open PrimeRl.Trainer PrimeRl.Trainer.Runs PrimeRl.Trainer.Packer

variable {Scalar : Type}

/-- Steps that are known stay, and only these runs become known. -/
structure Settled (before after : ReceivedSteps) (idxs : List Nat) : Prop where
  kept : ∀ idx step, before.lookup idx = some step → after.lookup idx = some step
  known : ∀ idx ∈ idxs, idx ∈ after
  only : ∀ idx ∈ after, idx ∈ before ∨ idx ∈ idxs

/-- Looking up a step settles it. -/
theorem get_received_step_spec {manager : MultiRunManager} (receivedSteps : ReceivedSteps) {idx : Nat}
    (tracked : idx ∈ manager.progress) :
    ∃ looked step, getReceivedStep manager receivedSteps idx = .ok (looked, step) ∧
      Settled receivedSteps looked [idx] := by
  cases found : receivedSteps.lookup idx with
  | some step =>
    refine ⟨receivedSteps, step, ?_, ?_, ?_, ?_⟩
    · rw [getReceivedStep, found]
    · exact fun _ _ same => same
    · intro other listed
      rw [List.mem_singleton.mp listed]
      exact Finmap.mem_of_lookup_eq_some found
    · exact fun other => Or.inl
  | none =>
    obtain ⟨progress, isProgress⟩ := Option.isSome_iff_exists.mp (Finmap.lookup_isSome.mpr tracked)
    refine ⟨receivedSteps.insert idx progress.step, progress.step, ?_, ?_, ?_, ?_⟩
    · rw [getReceivedStep, found, subscript_ok isProgress]
      rfl
    · intro other step same
      have different : other ≠ idx := by
        rintro rfl
        rw [found] at same
        cases same
      rw [Finmap.lookup_insert_of_ne _ different]
      exact same
    · intro other listed
      rw [List.mem_singleton.mp listed]
      exact Finmap.mem_insert.mpr (.inl rfl)
    · intro other listed
      rcases Finmap.mem_insert.mp listed with rfl | before
      · exact .inr (List.mem_singleton_self _)
      · exact .inl before

theorem current_paths_spec {manager : MultiRunManager} (receivedSteps : ReceivedSteps) (idxs : List Nat)
    (tracked : ∀ idx ∈ idxs, idx ∈ manager.progress) :
    ∃ looked, currentPaths manager receivedSteps idxs = .ok looked ∧
      Settled receivedSteps looked idxs := by
  induction idxs generalizing receivedSteps with
  | nil =>
    refine ⟨receivedSteps, rfl, fun _ _ same => same, ?_, fun _ => Or.inl⟩
    exact fun _ impossible => absurd impossible List.not_mem_nil
  | cons idx rest inductionHypothesis =>
    obtain ⟨next, step, gets, first⟩ :=
      get_received_step_spec receivedSteps (tracked idx List.mem_cons_self)
    obtain ⟨looked, looks, later⟩ := inductionHypothesis next
      (fun other listed => tracked other (List.mem_cons_of_mem idx listed))
    refine ⟨looked, ?_, ?_, ?_, ?_⟩
    · rw [currentPaths, gets]
      exact looks
    · exact fun other step same => later.kept other step (first.kept other step same)
    · intro other listed
      rcases List.mem_cons.mp listed with rfl | inRest
      · obtain ⟨step, isStep⟩ := Option.isSome_iff_exists.mp
          (Finmap.lookup_isSome.mpr (first.known other (List.mem_singleton_self _)))
        exact Finmap.mem_of_lookup_eq_some (later.kept other step isStep)
      · exact later.known other inRest
    · intro other listed
      rcases later.only other listed with inNext | inRest
      · rcases first.only other inNext with before | isIdx
        · exact .inl before
        · exact .inr (List.mem_singleton.mp isIdx ▸ List.mem_cons_self)
      · exact .inr (List.mem_cons_of_mem idx inRest)

/-- The batch that is read for a used run whose next step is settled. -/
def readBatch (manager : MultiRunManager) (files : Files Scalar) (receivedSteps : ReceivedSteps)
    (idx : Nat) : Option (Sent Scalar) :=
  if isReady manager idx then none
  else
    (manager.idx2Id.lookup idx).bind (fun runId =>
      (receivedSteps.lookup idx).bind (fun step =>
        (files runId step).map (fun batch => batch.mark idx)))

theorem readBatch_eq_some_iff (manager : MultiRunManager) (files : Files Scalar)
    (receivedSteps : ReceivedSteps) (idx : Nat) (batch : Sent Scalar) :
    readBatch manager files receivedSteps idx = some batch ↔
      isReady manager idx = false ∧ ∃ runId step stored, manager.idx2Id.lookup idx = some runId ∧
        receivedSteps.lookup idx = some step ∧ files runId step = some stored ∧
        stored.mark idx = batch := by
  rw [readBatch]
  split
  · rename_i ready
    simp [ready]
  · rename_i ready
    simp [ready, Option.bind_eq_some_iff]

/-- The step to read after a pass over these runs. -/
def nextStep (manager : MultiRunManager) (files : Files Scalar) (receivedSteps : ReceivedSteps)
    (idxs : List Nat) (idx : Nat) : Option Int :=
  if idx ∈ idxs ∧ (readBatch manager files receivedSteps idx).isSome then
    (receivedSteps.lookup idx).map (fun step => step + 1)
  else receivedSteps.lookup idx

theorem read_run_spec {manager : MultiRunManager} (files : Files Scalar) {looked current : ReceivedSteps}
    (batches : List (Sent Scalar)) {done : List Nat} {idx : Nat}
    (isCurrent : ∀ other, current.lookup other = nextStep manager files looked done other)
    (fresh : idx ∉ done) (named : idx ∈ manager.idx2Id) (known : idx ∈ looked) :
    ∃ next, readRun manager files (current, batches) idx =
        .ok (next, batches ++ (readBatch manager files looked idx).toList) ∧
      ∀ other, next.lookup other = nextStep manager files looked (done ++ [idx]) other := by
  obtain ⟨runId, isNamed⟩ := Option.isSome_iff_exists.mp (Finmap.lookup_isSome.mpr named)
  obtain ⟨step, isStep⟩ := Option.isSome_iff_exists.mp (Finmap.lookup_isSome.mpr known)
  have unmoved : current.lookup idx = some step := by
    rw [isCurrent, nextStep, if_neg (fun both => fresh both.1), isStep]
  have others (other : Nat) (different : other ≠ idx) :
      nextStep manager files looked (done ++ [idx]) other =
        nextStep manager files looked done other := by
    have same : other ∈ done ++ [idx] ↔ other ∈ done := by simp [different]
    simp only [nextStep, same]
  have skips (nothing : readBatch manager files looked idx = none) (other : Nat) :
      current.lookup other = nextStep manager files looked (done ++ [idx]) other := by
    by_cases same : other = idx
    · rw [same, unmoved, nextStep, nothing, if_neg (by simp), isStep]
    · rw [others other same, isCurrent]
  rw [readRun]
  cases ready : isReady manager idx with
  | true =>
    have nothing : readBatch manager files looked idx = none := by rw [readBatch, ready]; rfl
    refine ⟨current, ?_, skips nothing⟩
    rw [if_pos rfl, nothing, Option.toList_none, List.append_nil]
  | false =>
    rw [if_neg Bool.false_ne_true, subscript_ok isNamed]
    have gets : getReceivedStep manager current idx = .ok (current, step) := by
      rw [getReceivedStep, unmoved]
    have isRead : readBatch manager files looked idx =
        (files runId step).map (fun batch => batch.mark idx) := by
      rw [readBatch, ready, isNamed, isStep]
      rfl
    cases stored : files runId step with
    | none =>
      have nothing : readBatch manager files looked idx = none := by rw [isRead, stored]; rfl
      refine ⟨current, ?_, skips nothing⟩
      simp only [bind, Except.bind, gets, stored, nothing, Option.toList_none, List.append_nil]
    | some batch =>
      have reads : readBatch manager files looked idx = some (batch.mark idx) := by
        rw [isRead, stored]
        rfl
      refine ⟨current.insert idx (step + 1), ?_, ?_⟩
      · simp only [bind, Except.bind, gets, stored, reads, Option.toList_some]
      · intro other
        by_cases same : other = idx
        · rw [same, Finmap.lookup_insert, nextStep, if_pos (by simp [reads]), isStep]
          rfl
        · rw [Finmap.lookup_insert_of_ne _ same, others other same, isCurrent]

/-- A call reads the next step of each used run that can take a batch. -/
theorem file_receive_spec {manager : MultiRunManager} (consistent : Consistent manager)
    (receivedSteps : ReceivedSteps) (files : Files Scalar) :
    ∃ looked next, fileReceive manager receivedSteps files =
        .ok ((usedIdxs manager).filterMap (readBatch manager files looked), next) ∧
      Settled receivedSteps looked (usedIdxs manager) ∧
      ∀ idx, next.lookup idx = nextStep manager files looked (usedIdxs manager) idx := by
  have named : ∀ idx ∈ usedIdxs manager, idx ∈ manager.idx2Id := fun idx listed =>
    Finmap.mem_keys.mp ((Iteration.ascending.lists _ idx).mp listed)
  obtain ⟨looked, looks, settled⟩ := current_paths_spec receivedSteps (usedIdxs manager)
    (fun idx listed => (consistent.progress_keys idx).mpr (named idx listed))
  have distinct : (usedIdxs manager).Nodup := Iteration.ascending.once _
  obtain ⟨⟨next, batches⟩, finishes, isNext, isBatches⟩ := Loop.completes (readRun manager files)
    (fun done state =>
      (∀ idx, state.1.lookup idx = nextStep manager files looked done idx) ∧
      state.2 = done.filterMap (readBatch manager files looked))
    (usedIdxs manager)
    (by
      rintro done idx rest ⟨current, batches⟩ split ⟨isCurrent, isBatches⟩
      have listed : idx ∈ usedIdxs manager := split ▸ List.mem_append_right done List.mem_cons_self
      have fresh : idx ∉ done := by
        rw [split] at distinct
        intro inDone
        exact (List.nodup_append.mp distinct).2.2 idx inDone idx List.mem_cons_self rfl
      obtain ⟨next, passes, isNext⟩ := read_run_spec files batches isCurrent fresh
        (named idx listed) (settled.known idx listed)
      refine ⟨_, passes, isNext, ?_⟩
      change batches ++ _ = _
      rw [List.filterMap_append, ← isBatches]
      cases isRead : readBatch manager files looked idx <;> simp [isRead])
    (looked, [])
    ⟨fun idx => by rw [nextStep, if_neg (by simp)], rfl⟩
  refine ⟨looked, next, ?_, settled, isNext⟩
  rw [fileReceive, looks]
  change ((usedIdxs manager).foldlM (readRun manager files) (looked, []) >>= _) = _
  rw [finishes]
  exact congrArg (fun batches => Except.ok (batches, next)) isBatches

end PrimeRl.Transport.Receivers
