import Mathlib.Data.List.Nodup
import PrimeRl.Support.Machine
import PrimeRl.Trainer.MultiCkpt

/-!
# Checkpoint bookkeeping of a session

A session lists the steps on disk when it starts, saves the due ones it has not
listed, and forgets those its policies do not keep. Its list stays in order, and
no due step is missed, exactly when every due step still to come lies above all
steps on disk, and the step resumed from, should it be saved again, does too.
-/

namespace PrimeRl.Trainer.MultiCkpt

/-! ## The last steps -/

theorem lastSteps_sublist (count : Nat) (steps : List Int) : (lastSteps count steps).Sublist steps :=
  List.drop_sublist _ _

/-- In an ascending list, the last steps are those with few above them. -/
theorem mem_lastSteps (count : Nat) (steps : List Int) (ascending : steps.Pairwise (· < ·))
    (step : Int) :
    step ∈ lastSteps count steps ↔
      step ∈ steps ∧ (steps.filter (fun other => decide (step < other))).length < count := by
  induction steps with
  | nil => simp [lastSteps]
  | cons first rest inductionHypothesis =>
    obtain ⟨above, ascendingRest⟩ := List.pairwise_cons.mp ascending
    have onRest := inductionHypothesis ascendingRest
    have countFirst : ((first :: rest).filter (fun other => decide (first < other))).length =
        rest.length := by
      rw [List.filter_cons_of_neg (by simp)]
      exact congrArg List.length (List.filter_eq_self.mpr (fun other member =>
        decide_eq_true (above other member)))
    have countRest (listed : step ∈ rest) :
        ((first :: rest).filter (fun other => decide (step < other))).length =
          (rest.filter (fun other => decide (step < other))).length := by
      have below := above step listed
      rw [List.filter_cons_of_neg (by simp; omega)]
    by_cases all : rest.length + 1 ≤ count
    · have whole : lastSteps count (first :: rest) = first :: rest := by
        rw [lastSteps, List.length_cons, Nat.sub_eq_zero_of_le all, List.drop_zero]
      have few : ((first :: rest).filter (fun other => decide (step < other))).length ≤
          (first :: rest).length := List.length_filter_le _ _
      rw [whole]
      constructor
      · intro listed
        refine ⟨listed, ?_⟩
        rcases List.mem_cons.mp listed with rfl | inRest
        · rw [countFirst]
          omega
        · rw [countRest inRest]
          have := List.length_filter_le (fun other => decide (step < other)) rest
          omega
      · rintro ⟨listed, -⟩
        exact listed
    · have shorter : lastSteps count (first :: rest) = lastSteps count rest := by
        have isSucc : rest.length + 1 - count = (rest.length - count) + 1 := by omega
        rw [lastSteps, lastSteps, List.length_cons, isSucc, List.drop_succ_cons]
      rw [shorter, onRest]
      constructor
      · rintro ⟨listed, few⟩
        rw [countRest listed]
        exact ⟨List.mem_cons_of_mem first listed, few⟩
      · rintro ⟨listed, few⟩
        rcases List.mem_cons.mp listed with rfl | inRest
        · rw [countFirst] at few
          omega
        · rw [countRest inRest] at few
          exact ⟨inRest, few⟩

/-- A step among the last ones of a list is among the last ones of a shorter list
that has it. -/
theorem lastSteps_shorter {count : Nat} {steps shorter : List Int}
    (ascending : steps.Pairwise (· < ·)) (sublist : shorter.Sublist steps) {step : Int}
    (listed : step ∈ shorter) (last : step ∈ lastSteps count steps) :
    step ∈ lastSteps count shorter := by
  rw [mem_lastSteps count steps ascending] at last
  rw [mem_lastSteps count shorter (ascending.sublist sublist)]
  refine ⟨listed, lt_of_le_of_lt ?_ last.2⟩
  exact (sublist.filter _).length_le

/-- Some step at least as high as a listed one is among the last ones. -/
theorem lastSteps_above {count : Nat} (positive : 0 < count) {steps : List Int}
    (ascending : steps.Pairwise (· < ·)) {step : Int} (listed : step ∈ steps) :
    ∃ last ∈ lastSteps count steps, step ≤ last := by
  induction steps generalizing step with
  | nil => exact absurd listed List.not_mem_nil
  | cons first rest inductionHypothesis =>
    obtain ⟨above, ascendingRest⟩ := List.pairwise_cons.mp ascending
    cases rest with
    | nil =>
      refine ⟨step, ?_, le_refl step⟩
      rw [mem_lastSteps count _ ascending]
      refine ⟨listed, ?_⟩
      rw [List.mem_singleton.mp listed]
      simpa using positive
    | cons second others =>
      have inLast (last : Int) (member : last ∈ lastSteps count (second :: others)) :
          last ∈ lastSteps count (first :: second :: others) := by
        have inRest := (lastSteps_sublist count _).subset member
        rw [mem_lastSteps count _ ascendingRest] at member
        rw [mem_lastSteps count _ ascending]
        have below := above last inRest
        rw [List.filter_cons_of_neg (by simp; omega)]
        exact ⟨List.mem_cons_of_mem first member.1, member.2⟩
      rcases List.mem_cons.mp listed with rfl | inRest
      · obtain ⟨last, isLast, higher⟩ := inductionHypothesis ascendingRest List.mem_cons_self
        have below := above second List.mem_cons_self
        exact ⟨last, inLast last isLast, by omega⟩
      · obtain ⟨last, isLast, higher⟩ := inductionHypothesis ascendingRest inRest
        exact ⟨last, inLast last isLast, higher⟩

/-! ## What the operations do -/

/-- A positive multiple of the interval. -/
def Due (ckpt : RunCheckpointConfig) (step : Int) : Prop :=
  ∃ interval, ckpt.interval = some interval ∧ 0 < step ∧ step % (interval : Nat) = 0

theorem should_save_iff (ckpt : RunCheckpointConfig) (ckptSteps : List Int) (step : Int) :
    shouldSave (some ckpt) ckptSteps step = true ↔ Due ckpt step ∧ step ∉ ckptSteps := by
  rw [shouldSave, Due, Option.bind_some]
  cases ckpt.interval with
  | none => simp
  | some interval =>
    simp only [Option.some.injEq, exists_eq_left', Bool.or_eq_true, decide_eq_true_eq]
    split
    · rename_i skipped
      constructor
      · intro impossible
        cases impossible
      · rintro ⟨⟨positive, multiple⟩, -⟩
        rcases skipped with low | odd
        · omega
        · exact absurd multiple odd
    · rename_i isDue
      rw [not_or, not_not] at isDue
      rw [decide_eq_true_eq]
      exact ⟨fun fresh => ⟨⟨by omega, isDue.2⟩, fresh⟩, fun both => both.2⟩

/-- A save writes, marks and records a due step that is not recorded. -/
theorem save_due (session : Session) (isDue : Due session.ckpt (session.progress - 1))
    (fresh : session.progress - 1 ∉ session.manager.ckptSteps) :
    session.save = { session with
      written := session.written ++ [session.progress - 1]
      stable := if session.isMaster then session.stable ++ [session.progress - 1] else session.stable
      manager := { session.manager with
        ckptSteps := session.manager.ckptSteps ++ [session.progress - 1] } } := by
  have saves := (should_save_iff session.ckpt session.manager.ckptSteps (session.progress - 1)).mpr
    ⟨isDue, fresh⟩
  rw [Session.save, saveRun, if_pos saves]
  obtain ⟨isMaster, ckpt, manager, progress, written, stable⟩ := session
  cases isMaster <;> rfl

theorem save_idle (session : Session)
    (idle : ¬(Due session.ckpt (session.progress - 1) ∧
      session.progress - 1 ∉ session.manager.ckptSteps)) : session.save = session := by
  have skips := mt (should_save_iff session.ckpt session.manager.ckptSteps (session.progress - 1)).mp idle
  rw [Session.save, saveRun, if_neg skips]
  rfl

/-- Steps that cleaning keeps. -/
def keptSteps (config : CheckpointConfig) (ckptSteps : List Int) : List Int :=
  if config.keepLast.isNone && config.keepInterval.isNone then ckptSteps
  else ckptSteps.filter (fun step => decide (step ∈ stepsToKeep config ckptSteps))

/-- Cleaning an ascending list succeeds. -/
theorem maybe_clean_ok (manager : CheckpointManager)
    (ascending : manager.ckptSteps.Pairwise (· < ·)) :
    manager.maybeClean =
      .ok { manager with ckptSteps := keptSteps manager.config manager.ckptSteps } := by
  have sorted : manager.ckptSteps.mergeSort (fun step other => decide (step ≤ other)) =
      manager.ckptSteps := by
    apply List.mergeSort_of_pairwise
    exact ascending.imp (fun {step other} below => decide_eq_true (le_of_lt below))
  rw [CheckpointManager.maybeClean, keptSteps]
  split
  · rfl
  · rw [sorted, if_neg (not_not.mpr rfl)]

theorem mem_steps_to_keep (config : CheckpointConfig) (ckptSteps : List Int) (step : Int) :
    step ∈ stepsToKeep config ckptSteps ↔
      (∃ keepLast, config.keepLast = some keepLast ∧ step ∈ lastSteps keepLast ckptSteps) ∨
        ∃ keepInterval, config.keepInterval = some keepInterval ∧ step ∈ ckptSteps ∧
          step % (keepInterval : Nat) = 0 := by
  rw [stepsToKeep, List.mem_append]
  cases config.keepLast <;> cases config.keepInterval <;> simp

theorem kept_sublist (config : CheckpointConfig) (ckptSteps : List Int) :
    (keptSteps config ckptSteps).Sublist ckptSteps := by
  rw [keptSteps]
  split
  · exact List.Sublist.refl _
  · exact List.filter_sublist

/-! ## Sessions -/

/-- The recorded steps ascend. A save of a due step behind the start leaves it
written and marked in this session. Cleaning succeeds and keeps exactly the last
steps and the multiples that the policies name. -/
def Upholds (start : Int) (session : Session) (event : Event) : Prop :=
  session.manager.ckptSteps.Pairwise (· < ·) ∧
  match event with
  | .advance => True
  | .save =>
      Due session.ckpt (session.progress - 1) → start < session.progress - 1 →
        session.progress - 1 ∈ session.save.written ∧
          (session.isMaster = true → session.progress - 1 ∈ session.save.stable)
  | .maybeClean =>
      ∃ next, session.maybeClean = .ok next ∧
        (session.isMaster = true →
          (session.ckpt.keepLast.isSome ∨ session.ckpt.keepInterval.isSome) →
          ∀ step, step ∈ next.manager.ckptSteps ↔ step ∈ session.manager.ckptSteps ∧
            ((∃ keepLast, session.ckpt.keepLast = some keepLast ∧
                step ∈ lastSteps keepLast session.manager.ckptSteps) ∨
              ∃ keepInterval, session.ckpt.keepInterval = some keepInterval ∧
                step % (keepInterval : Nat) = 0))

/-- Every due step to come lies above the steps on disk. Should the step resumed
from be saved again, because it is due and not on disk or has been cleaned away, it
lies above those still recorded. -/
structure Resumable (isMaster : Bool) (ckpt : RunCheckpointConfig) (steps : List Int) (start : Int) :
    Prop where
  ahead : ∀ step, Due ckpt step → start < step → ∀ recorded ∈ steps, recorded < step
  again : Due ckpt start → start ∈ steps ∨ ∀ recorded ∈ steps, recorded < start
  cleaned : isMaster = true → Due ckpt start →
    start ∈ keptSteps (managerConfig ckpt) steps ∨
      ∀ recorded ∈ keptSteps (managerConfig ckpt) steps, recorded < start

/-- What a session that started with these steps on disk keeps to. -/
structure Resumed (ckpt : RunCheckpointConfig) (steps : List Int) (start : Int) (session : Session) :
    Prop where
  sameCkpt : session.ckpt = ckpt
  sameConfig : session.manager.config = managerConfig ckpt
  ascending : session.manager.ckptSteps.Pairwise (· < ·)
  advanced : start < session.progress
  recorded : ∀ step ∈ session.manager.ckptSteps, step ∈ steps ∨ step ∈ session.written
  past : ∀ step ∈ session.written, step < session.progress
  marked : session.isMaster = true → ∀ step ∈ session.written, step ∈ session.stable
  again : session.progress - 1 = start → Due ckpt start →
    start ∈ session.manager.ckptSteps ∧ session.manager.ckptSteps.Sublist steps ∨
      ∀ step ∈ session.manager.ckptSteps, step ≤ start

/-- A step that cleaning keeps in a list is kept in a shorter list that has it. -/
theorem kept_shorter {config : CheckpointConfig} {steps shorter : List Int}
    (ascending : steps.Pairwise (· < ·)) (sublist : shorter.Sublist steps) {step : Int}
    (listed : step ∈ shorter) (kept : step ∈ keptSteps config steps) :
    step ∈ keptSteps config shorter := by
  rw [keptSteps] at kept ⊢
  split
  · exact listed
  · rename_i policy
    rw [if_neg policy, List.mem_filter, decide_eq_true_eq, mem_steps_to_keep] at kept
    rw [List.mem_filter, decide_eq_true_eq, mem_steps_to_keep]
    refine ⟨listed, ?_⟩
    rcases kept.2 with ⟨keepLast, isPolicy, last⟩ | ⟨keepInterval, isPolicy, -, multiple⟩
    · exact Or.inl ⟨keepLast, isPolicy, lastSteps_shorter ascending sublist listed last⟩
    · exact Or.inr ⟨keepInterval, isPolicy, listed, multiple⟩

/-- When cleaning a list drops a step and all above it, cleaning a shorter list that
has the step and drops it drops all above it too. -/
theorem kept_below {config : CheckpointConfig} {steps shorter : List Int}
    (ascending : steps.Pairwise (· < ·)) (sublist : shorter.Sublist steps) {start : Int}
    (listed : start ∈ shorter) (below : ∀ step ∈ keptSteps config steps, step < start) :
    ∀ step ∈ keptSteps config shorter, step ≤ start := by
  intro step kept
  rw [keptSteps] at kept below
  split at below
  · exact absurd (below start (sublist.subset listed)) (lt_irrefl start)
  · rename_i policy
    rw [if_neg policy, List.mem_filter, decide_eq_true_eq, mem_steps_to_keep] at kept
    rcases kept.2 with ⟨keepLast, isPolicy, -⟩ | ⟨keepInterval, isPolicy, -, multiple⟩
    · obtain ⟨last, isLast, higher⟩ :=
        lastSteps_above keepLast.pos ascending (sublist.subset listed)
      have keptLast := below last (List.mem_filter.mpr
        ⟨(lastSteps_sublist _ _).subset isLast, decide_eq_true
          ((mem_steps_to_keep config steps last).mpr (Or.inl ⟨keepLast, isPolicy, isLast⟩))⟩)
      omega
    · have inSteps := sublist.subset kept.1
      exact le_of_lt (below step (List.mem_filter.mpr ⟨inSteps, decide_eq_true
        ((mem_steps_to_keep config steps step).mpr
          (Or.inr ⟨keepInterval, isPolicy, inSteps, multiple⟩))⟩))

section Session
variable {isMaster : Bool} {ckpt : RunCheckpointConfig} {steps : List Int} {start : Int}
  {session : Session}

/-- A step that the session saves lies above all recorded ones. -/
theorem Resumed.above (resumed : Resumed ckpt steps start session)
    (resumable : Resumable isMaster ckpt steps start)
    (isDue : Due ckpt (session.progress - 1))
    (fresh : session.progress - 1 ∉ session.manager.ckptSteps) :
    ∀ recorded ∈ session.manager.ckptSteps, recorded < session.progress - 1 := by
  intro recorded listed
  have different : recorded ≠ session.progress - 1 := fun same => fresh (same ▸ listed)
  have advanced := resumed.advanced
  by_cases isStart : session.progress - 1 = start
  · rcases resumed.again isStart (isStart ▸ isDue) with ⟨kept, -⟩ | low
    · exact absurd (isStart ▸ kept) fresh
    · have lower := low recorded listed
      omega
  · rcases resumed.recorded recorded listed with onDisk | written
    · exact resumable.ahead (session.progress - 1) isDue (by omega) recorded onDisk
    · have past := resumed.past recorded written
      omega

theorem Resumed.save (resumed : Resumed ckpt steps start session)
    (resumable : Resumable isMaster ckpt steps start) :
    Resumed ckpt steps start session.save := by
  by_cases saves : Due session.ckpt (session.progress - 1) ∧
      session.progress - 1 ∉ session.manager.ckptSteps
  · obtain ⟨isDue, fresh⟩ := saves
    have above := resumed.above resumable (resumed.sameCkpt ▸ isDue) fresh
    rw [save_due session isDue fresh]
    constructor
    · exact resumed.sameCkpt
    · exact resumed.sameConfig
    · refine List.pairwise_append.mpr ⟨resumed.ascending, List.pairwise_singleton _ _, ?_⟩
      intro recorded listed step isStep
      rw [List.mem_singleton.mp isStep]
      exact above recorded listed
    · exact resumed.advanced
    · intro step listed
      rcases List.mem_append.mp listed with before | last
      · exact (resumed.recorded step before).imp id (List.mem_append_left _)
      · exact Or.inr (List.mem_append_right _ last)
    · intro step listed
      rcases List.mem_append.mp listed with before | last
      · exact resumed.past step before
      · rw [List.mem_singleton.mp last]
        exact Int.sub_one_lt_of_le (le_refl _)
    · intro master step listed
      change step ∈ (if session.isMaster = true then _ else _)
      rw [if_pos master]
      rcases List.mem_append.mp listed with before | last
      · exact List.mem_append_left _ (resumed.marked master step before)
      · exact List.mem_append_right _ last
    · intro isStart _
      refine Or.inr (fun step listed => ?_)
      change session.progress - 1 = start at isStart
      rcases List.mem_append.mp listed with before | last
      · have lower := above step before
        omega
      · rw [List.mem_singleton.mp last, isStart]
  · rw [save_idle session saves]
    exact resumed

theorem Resumed.maybeClean (resumed : Resumed ckpt steps start session)
    (resumable : Resumable session.isMaster ckpt steps start) (ascending : steps.Pairwise (· < ·))
    {next : Session} (cleaned : session.maybeClean = .ok next) :
    Resumed ckpt steps start next ∧ next.isMaster = session.isMaster := by
  rw [Session.maybeClean] at cleaned
  split at cleaned
  · rename_i master
    rw [maybe_clean_ok session.manager resumed.ascending] at cleaned
    obtain rfl := Except.ok.inj cleaned
    have sublist := kept_sublist session.manager.config session.manager.ckptSteps
    refine ⟨⟨resumed.sameCkpt, resumed.sameConfig, resumed.ascending.sublist sublist,
      resumed.advanced, fun step listed => resumed.recorded step (sublist.subset listed),
      resumed.past, resumed.marked, ?_⟩, rfl⟩
    intro isStart isDue
    rcases resumed.again isStart isDue with ⟨listed, shorter⟩ | low
    · change start ∈ keptSteps _ _ ∧ (keptSteps _ _).Sublist steps ∨ ∀ step ∈ keptSteps _ _, step ≤ start
      rw [resumed.sameConfig]
      rcases resumable.cleaned master isDue with kept | below
      · exact Or.inl ⟨kept_shorter ascending shorter listed kept, (kept_sublist _ _).trans shorter⟩
      · exact Or.inr (kept_below ascending shorter listed below)
    · exact Or.inr (fun step kept => low step (sublist.subset kept))
  · obtain rfl := Except.ok.inj cleaned
    exact ⟨resumed, rfl⟩

end Session

/-! ## Runs -/

theorem all_steps_ascending (stepDirs : StepDirs) : (getAllCkptSteps stepDirs).Pairwise (· < ·) := by
  have sorted : (getAllCkptSteps stepDirs).Pairwise (fun step other => decide (step ≤ other) = true) := by
    apply List.pairwise_mergeSort
    · intro first second third below above
      simp only [decide_eq_true_eq] at below above ⊢
      omega
    · intro first second
      simp only [Bool.or_eq_true, decide_eq_true_eq]
      omega
  have distinct : (getAllCkptSteps stepDirs).Nodup :=
    (List.mergeSort_perm stepDirs.steps _).nodup_iff.mpr stepDirs.distinct
  refine (sorted.and distinct).imp ?_
  rintro step other ⟨below, different⟩
  exact lt_of_le_of_ne (of_decide_eq_true below) different

theorem resumed_start (isMaster : Bool) (ckpt : RunCheckpointConfig) (stepDirs : StepDirs)
    (stableSteps : List Int) (start : Int)
    (isStart : (Session.start isMaster ckpt stepDirs stableSteps).progress - 1 = start)
    (resumable : Resumable isMaster ckpt (getAllCkptSteps stepDirs) start) :
    Resumed ckpt (getAllCkptSteps stepDirs) start
      (Session.start isMaster ckpt stepDirs stableSteps) where
  sameCkpt := rfl
  sameConfig := rfl
  ascending := all_steps_ascending stepDirs
  advanced := by omega
  recorded := fun _ listed => Or.inl listed
  past := fun _ impossible => absurd impossible List.not_mem_nil
  marked := fun _ _ impossible => absurd impossible List.not_mem_nil
  again := by
    intro _ isDue
    rcases resumable.again isDue with onDisk | below
    · exact Or.inl ⟨onDisk, List.Sublist.refl _⟩
    · exact Or.inr (fun step listed => le_of_lt (below step listed))

theorem Resumed.upholds {ckpt : RunCheckpointConfig} {steps : List Int} {start : Int}
    {session : Session} (resumed : Resumed ckpt steps start session)
    (resumable : Resumable session.isMaster ckpt steps start) (event : Event) :
    Upholds start session event := by
  refine ⟨resumed.ascending, ?_⟩
  cases event with
  | advance => trivial
  | save =>
    intro isDue behind
    by_cases fresh : session.progress - 1 ∉ session.manager.ckptSteps
    · rw [save_due session isDue fresh]
      refine ⟨List.mem_append_right _ (List.mem_singleton_self _), fun master => ?_⟩
      change _ ∈ (if session.isMaster = true then _ else _)
      rw [if_pos master]
      exact List.mem_append_right _ (List.mem_singleton_self _)
    · rw [save_idle session (fun both => fresh both.2)]
      have listed := not_not.mp fresh
      rcases resumed.recorded _ listed with onDisk | written
      · have below := resumable.ahead _ (resumed.sameCkpt ▸ isDue) behind _ onDisk
        exact absurd below (lt_irrefl _)
      · exact ⟨written, fun master => resumed.marked master _ written⟩
  | maybeClean =>
    by_cases master : session.isMaster = true
    · have cleans : session.maybeClean = .ok { session with manager := { session.manager with
          ckptSteps := keptSteps session.manager.config session.manager.ckptSteps } } := by
        rw [Session.maybeClean, if_pos master, maybe_clean_ok session.manager resumed.ascending]
        rfl
      refine ⟨_, cleans, ?_⟩
      intro _ policy step
      have named : ¬(session.manager.config.keepLast.isNone &&
          session.manager.config.keepInterval.isNone) = true := by
        rw [resumed.sameConfig, managerConfig, ← resumed.sameCkpt]
        revert policy
        cases session.ckpt.keepLast <;> cases session.ckpt.keepInterval <;> simp
      change step ∈ keptSteps _ _ ↔ _
      rw [keptSteps, if_neg named, List.mem_filter, decide_eq_true_eq, mem_steps_to_keep,
        resumed.sameConfig, managerConfig, resumed.sameCkpt]
      constructor
      · rintro ⟨listed, last | ⟨keepInterval, isPolicy, -, multiple⟩⟩
        · exact ⟨listed, Or.inl last⟩
        · exact ⟨listed, Or.inr ⟨keepInterval, isPolicy, multiple⟩⟩
      · rintro ⟨listed, last | ⟨keepInterval, isPolicy, multiple⟩⟩
        · exact ⟨listed, Or.inl last⟩
        · exact ⟨listed, Or.inr ⟨keepInterval, isPolicy, listed, multiple⟩⟩
    · refine ⟨session, ?_, fun isMaster => absurd isMaster master⟩
      rw [Session.maybeClean, if_neg master]

theorem Resumed.step {ckpt : RunCheckpointConfig} {steps : List Int} {start : Int}
    {session next : Session} (resumed : Resumed ckpt steps start session)
    (resumable : Resumable session.isMaster ckpt steps start) (ascending : steps.Pairwise (· < ·))
    (event : Event) (stepped : session.step event = some next) :
    Resumed ckpt steps start next ∧ next.isMaster = session.isMaster := by
  cases event with
  | advance =>
    obtain rfl := Option.some.inj stepped
    have advanced := resumed.advanced
    refine ⟨{ resumed with
      advanced := Int.lt_add_one_of_le (le_of_lt advanced)
      past := fun step written => Int.lt_add_one_of_le (le_of_lt (resumed.past step written))
      again := ?_ }, rfl⟩
    intro isStart
    change session.progress + 1 - 1 = start at isStart
    omega
  | save =>
    obtain rfl := Option.some.inj stepped
    refine ⟨resumed.save resumable, ?_⟩
    by_cases saves : Due session.ckpt (session.progress - 1) ∧
        session.progress - 1 ∉ session.manager.ckptSteps
    · rw [save_due session saves.1 saves.2]
    · rw [save_idle session saves]
  | maybeClean =>
    rw [Session.step] at stepped
    cases cleaned : session.maybeClean with
    | error message =>
      rw [cleaned] at stepped
      cases stepped
    | ok after =>
      rw [cleaned] at stepped
      obtain rfl := Option.some.inj stepped
      exact resumed.maybeClean resumable ascending cleaned

theorem run_advance (session : Session) (count : Nat) :
    Machine.run Session.step session (List.replicate count Event.advance) =
      some { session with progress := session.progress + count } := by
  induction count generalizing session with
  | zero => simp
  | succ count inductionHypothesis =>
    rw [List.replicate_succ, Machine.run, Session.step, Option.bind_some, inductionHypothesis]
    have sum : session.progress + 1 + (count : Int) = session.progress + ((count + 1 : Nat) : Int) := by
      omega
    rw [sum]

/-- A step that a save records lies above all that were recorded, when lists stay
in order. -/
theorem saved_above {start : Int} {session middle : Session} {before : List Event}
    (upheld : ∀ events, Machine.Along Session.step (Upholds start) session events)
    (ran : Machine.run Session.step session before = some middle)
    (isDue : Due middle.ckpt (middle.progress - 1))
    (fresh : middle.progress - 1 ∉ middle.manager.ckptSteps) :
    ∀ recorded ∈ middle.manager.ckptSteps, recorded < middle.progress - 1 := by
  have behind : Machine.run Session.step session (before ++ [Event.save]) = some middle.save :=
    (Machine.run_append_iff _ _ _ _ _).mpr ⟨middle, ran, rfl⟩
  have ascending := (Machine.Along.reached (before ++ [Event.save]) [] Event.advance
    (upheld ((before ++ [Event.save]) ++ Event.advance :: [])) behind).1
  rw [save_due middle isDue fresh] at ascending
  intro recorded listed
  exact (List.pairwise_append.mp ascending).2.2 recorded listed _ (List.mem_singleton_self _)

/-- The bookkeeping survives every sequence of calls exactly when the session is
resumable. -/
theorem checkpoints_survive_iff (isMaster : Bool) (ckpt : RunCheckpointConfig) (stepDirs : StepDirs)
    (stableSteps : List Int) :
    (∀ events, Machine.Along Session.step
      (Upholds ((Session.start isMaster ckpt stepDirs stableSteps).progress - 1))
      (Session.start isMaster ckpt stepDirs stableSteps) events) ↔
    Resumable isMaster ckpt (getAllCkptSteps stepDirs)
      ((Session.start isMaster ckpt stepDirs stableSteps).progress - 1) := by
  obtain ⟨session, isSession⟩ : ∃ session, session = Session.start isMaster ckpt stepDirs stableSteps :=
    ⟨_, rfl⟩
  have sameCkpt : session.ckpt = ckpt := by rw [isSession]; rfl
  have sameSteps : session.manager.ckptSteps = getAllCkptSteps stepDirs := by rw [isSession]; rfl
  have nothing : session.written = [] := by rw [isSession]; rfl
  have sameMaster : session.isMaster = isMaster := by rw [isSession]; rfl
  have sameConfig : session.manager.config = managerConfig ckpt := by rw [isSession]; rfl
  have ascending := all_steps_ascending stepDirs
  constructor
  · rw [← isSession]
    intro upheld
    constructor
    · intro step isDue behind recorded onDisk
      obtain ⟨count, isCount⟩ := Int.eq_ofNat_of_zero_le
        (show 0 ≤ step - (session.progress - 1) by omega)
      have ran := run_advance session count
      have isStep : session.progress + (count : Int) - 1 = step := by omega
      by_cases listed : step ∈ getAllCkptSteps stepDirs
      · have upholds := (Machine.Along.reached (List.replicate count Event.advance) [] Event.save
          (upheld (List.replicate count Event.advance ++ Event.save :: [])) ran).2
        obtain ⟨written, -⟩ := upholds (by rw [isStep, sameCkpt]; exact isDue) (by rw [isStep]; exact behind)
        rw [save_idle _ (fun both => both.2 (by rw [isStep, sameSteps]; exact listed))] at written
        exact absurd (nothing ▸ written) List.not_mem_nil
      · have above := saved_above upheld ran (by rw [isStep, sameCkpt]; exact isDue)
          (by rw [isStep, sameSteps]; exact listed) recorded (sameSteps ▸ onDisk)
        rw [isStep] at above
        exact above
    · intro isDue
      by_cases listed : session.progress - 1 ∈ getAllCkptSteps stepDirs
      · exact Or.inl listed
      · have ran : Machine.run Session.step session [] = some session := rfl
        have above := saved_above upheld ran (sameCkpt ▸ isDue) (sameSteps ▸ listed)
        rw [sameSteps] at above
        exact Or.inr above
    · intro master isDue
      by_cases kept : session.progress - 1 ∈ keptSteps (managerConfig ckpt) (getAllCkptSteps stepDirs)
      · exact Or.inl kept
      · have cleans : session.maybeClean = .ok { session with manager := { session.manager with
            ckptSteps := keptSteps (managerConfig ckpt) (getAllCkptSteps stepDirs) } } := by
          rw [← sameConfig, ← sameSteps, Session.maybeClean, if_pos (sameMaster.trans master),
            maybe_clean_ok session.manager (sameSteps ▸ ascending)]
          rfl
        have ran : Machine.run Session.step session [.maybeClean] = some { session with
            manager := { session.manager with
              ckptSteps := keptSteps (managerConfig ckpt) (getAllCkptSteps stepDirs) } } := by
          rw [Machine.run, Session.step, cleans]
          rfl
        exact Or.inr (saved_above upheld ran (sameCkpt ▸ isDue) kept)
  · intro resumable events
    rw [← isSession] at resumable ⊢
    refine Machine.along_of_invariant
      (fun state => Resumed ckpt (getAllCkptSteps stepDirs) (session.progress - 1) state ∧
        state.isMaster = isMaster) ?_ ?_ events ?_ (Machine.along_true session events)
    · rintro state event ⟨resumed, master⟩ -
      exact resumed.upholds (master ▸ resumable) event
    · rintro state event next ⟨resumed, master⟩ - stepped
      obtain ⟨later, same⟩ := resumed.step (master ▸ resumable) ascending event stepped
      exact ⟨later, same.trans master⟩
    · have start := resumed_start isMaster ckpt stepDirs stableSteps (session.progress - 1)
        (by rw [isSession]) resumable
      rw [← isSession] at start
      exact ⟨start, sameMaster⟩

/-! ## Resuming below the newest step

A run with steps 10 and 20 on disk that saves every 10 steps resumes at 10.
-/

def everyTen (resumeStep : Int) : RunCheckpointConfig where
  resumeStep := some resumeStep
  interval := some 10
  keepLast := none
  keepInterval := none

def tenAndTwenty : StepDirs where
  steps := [10, 20]
  distinct := by decide

theorem ten_and_twenty_listed : getAllCkptSteps tenAndTwenty = [10, 20] := by
  apply List.mergeSort_of_pairwise
  decide

/-- Step 20 is seen by the save and neither written nor marked. -/
theorem resumed_step_lost :
    Machine.run Session.step (Session.start true (everyTen 10) tenAndTwenty [10, 20])
        (List.replicate 10 Event.advance ++ [Event.save]) =
      some { Session.start true (everyTen 10) tenAndTwenty [10, 20] with progress := 21 } ∧
    ¬Machine.Along Session.step (Upholds 10)
        (Session.start true (everyTen 10) tenAndTwenty [10, 20])
        (List.replicate 10 Event.advance ++ [Event.save]) := by
  obtain ⟨session, isSession⟩ :
      ∃ session, session = Session.start true (everyTen 10) tenAndTwenty [10, 20] := ⟨_, rfl⟩
  have listed : session.manager.ckptSteps = [10, 20] := by
    rw [isSession]
    exact ten_and_twenty_listed
  have ran : Machine.run Session.step session (List.replicate 10 Event.advance) =
      some { session with progress := 21 } := by
    have advanced := run_advance session 10
    have isProgress : session.progress + ((10 : Nat) : Int) = 21 := by rw [isSession]; rfl
    rw [isProgress] at advanced
    exact advanced
  have idle : Session.save { session with progress := 21 } = { session with progress := 21 } := by
    apply save_idle
    rintro ⟨-, fresh⟩
    change 20 ∉ session.manager.ckptSteps at fresh
    rw [listed] at fresh
    exact fresh (by decide)
  rw [← isSession]
  constructor
  · apply (Machine.run_append_iff _ _ _ _ _).mpr
    refine ⟨{ session with progress := 21 }, ran, ?_⟩
    rw [Machine.run, Session.step, idle]
    rfl
  · intro along
    have upholds := (Machine.Along.reached (List.replicate 10 Event.advance) [] Event.save along ran).2
    obtain ⟨written, -⟩ := upholds
      ⟨10, by rw [isSession]; rfl, show (0 : Int) < 21 - 1 by decide,
        show ((21 : Int) - 1) % ((10 : Nat) : Int) = 0 by decide⟩
      (show (10 : Int) < 21 - 1 by decide)
    rw [idle, isSession] at written
    exact absurd written List.not_mem_nil

end PrimeRl.Trainer.MultiCkpt
