import Mathlib.Data.List.Infix
import Mathlib.Data.List.Nodup
import PrimeRl.Trainer.MultiCkpt

/-!
# Ranks in step while they save

The barriers of a rank's save depend on which runs it saves and on whether it
reaches the barrier inside the block. Ranks list the same barriers exactly when
they agree on both, and then a rank behind that barrier knows that every rank has
written.
-/

namespace PrimeRl.Trainer.MultiCkpt

open Collective

/-! ## What comes before what -/

/-- In every part of the program that has been done, an instruction is done only
after another one. -/
def Precedes {Item : Type} (first second : Item) (items : List Item) : Prop :=
  ∀ done, done <+: items → second ∈ done → first ∈ done

theorem precedes_absent {Item : Type} (first : Item) {second : Item} {items : List Item}
    (absent : second ∉ items) : Precedes first second items :=
  fun _ isPrefix member => absurd (isPrefix.subset member) absent

theorem precedes_head {Item : Type} {first second : Item} (rest : List Item)
    (different : second ≠ first) : Precedes first second (first :: rest) := by
  intro done isPrefix member
  cases done with
  | nil => exact absurd member List.not_mem_nil
  | cons head tail =>
    obtain ⟨rfl, -⟩ := List.cons_prefix_cons.mp isPrefix
    exact List.mem_cons_self

theorem Precedes.shorter {Item : Type} {first second : Item} {items part : List Item}
    (precedes : Precedes first second items) (isPart : part <+: items) :
    Precedes first second part :=
  fun done isPrefix member => precedes done (isPrefix.trans isPart) member

theorem prefix_append_cases {Item : Type} {part items others : List Item}
    (isPrefix : part <+: items ++ others) :
    part <+: items ∨ ∃ rest, rest <+: others ∧ part = items ++ rest := by
  rcases List.prefix_or_prefix_of_prefix isPrefix (List.prefix_append items others) with short | long
  · exact Or.inl short
  · obtain ⟨rest, rfl⟩ := long
    exact Or.inr ⟨rest, (List.prefix_append_right_inj items).mp isPrefix, rfl⟩

theorem Precedes.append {Item : Type} {first second : Item} {items others : List Item}
    (before : Precedes first second items) (after : Precedes first second others) :
    Precedes first second (items ++ others) := by
  intro done isPrefix member
  rcases prefix_append_cases isPrefix with
    inItems | ⟨rest, inOthers, rfl⟩
  · exact before done inItems member
  · rcases List.mem_append.mp member with early | late
    · exact List.mem_append_left rest (before items (List.prefix_refl items) early)
    · exact List.mem_append_right items (after rest inOthers late)

theorem precedes_flatMap {Item Source : Type} {first second : Item} (sources : List Source)
    (items : Source → List Item)
    (each : ∀ source ∈ sources, Precedes first second (items source)) :
    Precedes first second (sources.flatMap items) := by
  induction sources with
  | nil => exact precedes_absent first List.not_mem_nil
  | cons source rest inductionHypothesis =>
    rw [List.flatMap_cons]
    apply (each source List.mem_cons_self).append
    exact inductionHypothesis (fun other member => each other (List.mem_cons_of_mem source member))

/-! ## The barriers of a rank -/

/-- A rank saves a run that is due and that it has not recorded. -/
def Rank.saves (rank : Rank) (run : Run) : Bool :=
  shouldSave run.ckpt (rank.ckptSteps run.idx) (run.progress - 1)

/-- Nothing raises up to the barrier inside the block. -/
def Rank.writes (rank : Rank) (run : Run) : Bool :=
  !rank.raises run.idx .stateDict && !rank.raises run.idx .mkdir && !rank.raises run.idx .save &&
    (!rank.isMaster || !rank.raises run.idx .copytree)

theorem attempt_barriers (rank : Rank) (run : Run) (step : Int) :
    barriers (attempt (rank.raises run.idx) (tryBody rank.isMaster run.idx step)) =
      if rank.writes run then [(some run.idx, .afterWriting)] else [] := by
  have reached (operations : Operation → Bool) (isMaster : Bool) :
      barriers (attempt operations (tryBody isMaster run.idx step)) =
        if !operations .stateDict && !operations .mkdir && !operations .save &&
          (!isMaster || !operations .copytree) then [(some run.idx, .afterWriting)] else [] := by
    cases isMaster with
    | false =>
      simp only [attempt, tryBody, List.takeWhile_cons, List.cons_append, List.nil_append, raises,
        Bool.false_eq_true, if_false, Bool.not_false, Bool.true_or, Bool.and_true, if_true]
      cases operations .stateDict <;> cases operations .mkdir <;> cases operations .save <;>
        cases operations .markStable <;> rfl
    | true =>
      simp only [attempt, tryBody, List.takeWhile_cons, List.cons_append, List.nil_append, raises,
        Bool.not_true, Bool.false_or, Bool.not_false, if_true]
      cases operations .stateDict <;> cases operations .mkdir <;> cases operations .save <;>
        cases operations .copytree <;> cases operations .markStable <;> rfl
  exact reached (rank.raises run.idx) rank.isMaster

/-- The barriers of one run. -/
def runBarriers (rank : Rank) (run : Run) : List Barrier :=
  if rank.saves run then
    (if rank.writes run then [(some run.idx, .afterWriting)] else []) ++ [(some run.idx, .afterTry)]
  else []

theorem save_run_barriers (rank : Rank) (run : Run) :
    barriers (saveRun rank run) = runBarriers rank run := by
  rw [saveRun, runBarriers, Rank.saves]
  split
  · have removes : barriers (if (run.configMissing && rank.isMaster) = true then
        [.act ⟨run.idx, run.progress - 1, .removeRunDir⟩] else [] : Program) = [] := by
      split
      · rfl
      · rfl
    rw [barriers_append, barriers_append, attempt_barriers, removes, List.append_nil]
    rfl
  · rfl

theorem save_barriers (rank : Rank) (used : UsedRuns) :
    barriers (save rank used) = used.runs.flatMap (runBarriers rank) ++ [(none, .atEnd)] := by
  have runs (listed : List Run) :
      barriers (listed.flatMap (saveRun rank)) = listed.flatMap (runBarriers rank) := by
    induction listed with
    | nil => rfl
    | cons run rest inductionHypothesis =>
      rw [List.flatMap_cons, List.flatMap_cons, barriers_append, save_run_barriers,
        inductionHypothesis]
  rw [save, barriers_append, runs]
  rfl

theorem UsedRuns.same_idx (used : UsedRuns) {run other : Run} (listed : run ∈ used.runs)
    (otherListed : other ∈ used.runs) (same : run.idx = other.idx) : run = other :=
  List.inj_on_of_nodup_map used.distinct listed otherListed same

theorem mem_run_barriers (rank : Rank) (run : Run) (idx : Nat) (place : Place) :
    (some idx, place) ∈ runBarriers rank run ↔
      idx = run.idx ∧ rank.saves run = true ∧
        (place = .afterTry ∨ place = .afterWriting ∧ rank.writes run = true) := by
  rw [runBarriers]
  cases rank.saves run <;> cases rank.writes run <;> simp
  tauto

/-- A run's barriers are passed by the ranks that save it, and the inner one by
those that reach it. -/
theorem mem_save_barriers (rank : Rank) (used : UsedRuns) {run : Run} (listed : run ∈ used.runs)
    (place : Place) :
    (some run.idx, place) ∈ barriers (save rank used) ↔
      rank.saves run = true ∧ (place = .afterTry ∨ place = .afterWriting ∧ rank.writes run = true) := by
  rw [save_barriers, List.mem_append, List.mem_flatMap]
  constructor
  · rintro (⟨other, otherListed, member⟩ | last)
    · obtain ⟨sameIdx, passes⟩ := (mem_run_barriers rank other run.idx place).mp member
      rw [used.same_idx listed otherListed sameIdx]
      exact passes
    · rw [List.mem_singleton] at last
      cases last
  · intro passes
    exact Or.inl ⟨run, listed, (mem_run_barriers rank run run.idx place).mpr ⟨rfl, passes⟩⟩

/-! ## Ranks in step -/

/-- The ranks agree on saving a run, and those that save it all reach the inner
barrier or none does. -/
def InStep {size : Nat} (ranks : Fin size → Rank) (run : Run) : Prop :=
  ∀ rank other, (ranks rank).saves run = (ranks other).saves run ∧
    ((ranks rank).saves run = true → (ranks rank).writes run = (ranks other).writes run)

theorem same_barriers_iff {size : Nat} (ranks : Fin size → Rank) (used : UsedRuns) :
    (∀ rank other, barriers (save (ranks rank) used) = barriers (save (ranks other) used)) ↔
      ∀ run ∈ used.runs, InStep ranks run := by
  constructor
  · intro same run listed rank other
    have passed (place : Place) := (mem_save_barriers (ranks rank) used listed place).symm.trans
      (same rank other ▸ mem_save_barriers (ranks other) used listed place)
    have behind := passed .afterTry
    have inner := passed .afterWriting
    simp only [true_or, and_true, reduceCtorEq, false_or, true_and] at behind inner
    constructor
    · exact Bool.eq_iff_iff.mpr behind
    · intro saved
      rw [Bool.eq_iff_iff]
      have otherSaved := behind.mp saved
      rw [saved, otherSaved] at inner
      simpa only [true_and] using inner
  · intro inStep rank other
    rw [save_barriers, save_barriers]
    have each : ∀ run ∈ used.runs, runBarriers (ranks rank) run = runBarriers (ranks other) run := by
      intro run listed
      obtain ⟨sameSaves, sameWrites⟩ := inStep run listed rank other
      rw [runBarriers, runBarriers, ← sameSaves]
      split
      · rename_i saved
        rw [sameWrites saved]
      · rfl
    rw [List.flatMap_congr each]

/-! ## Stable means complete -/

/-- A step that the master has marked stable, or that some rank has recorded, has
been written by every rank. -/
def StableComplete {size : Nat} (ranks : Fin size → Rank) (state : Ranks Action Barrier size) : Prop :=
  ∀ rank idx step,
    ((ranks rank).isMaster = true ∧ .act ⟨idx, step, .markStable⟩ ∈ state.done rank ∨
      .act ⟨idx, step, .append⟩ ∈ state.done rank) →
    ∀ other, .act ⟨idx, step, .save⟩ ∈ state.done other

theorem save_run_acts (rank : Rank) (run : Run) (action : Action)
    (member : .act action ∈ saveRun rank run) :
    action.idx = run.idx ∧ action.step = run.progress - 1 := by
  rw [saveRun] at member
  split at member
  · rcases List.mem_append.mp member with body | removes
    · rcases List.mem_append.mp body with tried | behind
      · have listed := (List.takeWhile_sublist _).subset tried
        rw [tryBody] at listed
        split at listed
        · simp only [List.cons_append, List.nil_append, List.mem_cons, Instruction.act.injEq,
            reduceCtorEq, List.not_mem_nil, or_false, false_or] at listed
          rcases listed with rfl | rfl | rfl | rfl | rfl | rfl <;> exact ⟨rfl, rfl⟩
        · simp only [List.cons_append, List.nil_append, List.mem_cons, Instruction.act.injEq,
            reduceCtorEq, List.not_mem_nil, or_false, false_or] at listed
          rcases listed with rfl | rfl | rfl | rfl | rfl <;> exact ⟨rfl, rfl⟩
      · rw [List.mem_singleton] at behind
        cases behind
    · split at removes
      · rw [List.mem_singleton] at removes
        obtain rfl := Instruction.act.inj removes
        exact ⟨rfl, rfl⟩
      · exact absurd removes List.not_mem_nil
  · exact absurd member List.not_mem_nil

/-- A run marks and records behind its inner barrier. -/
theorem barrier_precedes (rank : Rank) (run : Run) (idx : Nat) (step : Int) (operation : Operation)
    (behind : operation = .markStable ∨ operation = .append) :
    Precedes (.barrier (some idx, .afterWriting)) (.act ⟨idx, step, operation⟩)
      (saveRun rank run) := by
  by_cases isRun : idx = run.idx
  · rw [saveRun]
    split
    · refine (Precedes.append (Precedes.shorter ?_ (List.takeWhile_prefix _)) ?_).append ?_
      · rw [tryBody, isRun]
        refine Precedes.append (precedes_absent _ ?_) (precedes_head _ (by simp))
        rcases behind with rfl | rfl
        · cases rank.isMaster <;> simp
        · cases rank.isMaster <;> simp
      · exact precedes_absent _ (by simp)
      · refine precedes_absent _ ?_
        rcases behind with rfl | rfl
        · split <;> simp
        · split <;> simp
    · exact precedes_absent _ List.not_mem_nil
  · exact precedes_absent _ (fun member => isRun (save_run_acts rank run _ member).1)

/-- A run is written before its inner barrier. -/
theorem save_precedes (rank : Rank) (run : Run) (idx : Nat) (step : Int)
    (isStep : idx = run.idx → step = run.progress - 1) :
    Precedes (.act ⟨idx, step, .save⟩) (.barrier (some idx, .afterWriting)) (saveRun rank run) := by
  by_cases isRun : idx = run.idx
  · rw [saveRun]
    split
    · refine (Precedes.append (Precedes.shorter ?_ (List.takeWhile_prefix _)) ?_).append ?_
      · have early : ∀ body : Program,
            Precedes (.act ⟨idx, step, .save⟩) (.barrier (some idx, .afterWriting))
              ([.act ⟨run.idx, run.progress - 1, .stateDict⟩, .act ⟨run.idx, run.progress - 1, .mkdir⟩] ++
                .act ⟨run.idx, run.progress - 1, .save⟩ :: body) := by
          intro body
          rw [isStep isRun, isRun]
          exact Precedes.append (precedes_absent _ (by simp)) (precedes_head body (by simp))
        exact early _
      · exact precedes_absent _ (by simp)
      · refine precedes_absent _ ?_
        split <;> simp
    · exact precedes_absent _ List.not_mem_nil
  · refine precedes_absent _ (fun member => isRun ?_)
    have passed : (some idx, Place.afterWriting) ∈ barriers (saveRun rank run) :=
      List.mem_filterMap.mpr ⟨_, member, rfl⟩
    rw [save_run_barriers] at passed
    exact ((mem_run_barriers rank run idx .afterWriting).mp passed).1

/-- Ranks whose programs list the same barriers have all written a step that one of
them has marked or recorded. -/
theorem stable_complete {size : Nat} (ranks : Fin size → Rank) (used : UsedRuns)
    (same : ∀ rank other, barriers (save (ranks rank) used) = barriers (save (ranks other) used))
    (moves : List (Move size)) {state : Ranks Action Barrier size}
    (ran : Machine.run step (.start (fun rank => save (ranks rank) used)) moves = some state) :
    StableComplete ranks state := by
  have aligned := run_aligned moves ran
  have isPrefix (rank : Fin size) : state.done rank <+: save (ranks rank) used :=
    ⟨state.left rank, aligned.program rank⟩
  have written (rank : Fin size) (idx : Nat) (step : Int) (operation : Operation)
      (behind : operation = .markStable ∨ operation = .append)
      (member : .act ⟨idx, step, operation⟩ ∈ state.done rank) (other : Fin size) :
      .act ⟨idx, step, .save⟩ ∈ state.done other := by
    have ofRun : ∃ run ∈ used.runs, idx = run.idx ∧ step = run.progress - 1 := by
      rcases List.mem_append.mp ((isPrefix rank).subset member) with inRuns | last
      · obtain ⟨run, listed, inRun⟩ := List.mem_flatMap.mp inRuns
        exact ⟨run, listed, save_run_acts (ranks rank) run _ inRun⟩
      · rw [List.mem_singleton] at last
        cases last
    obtain ⟨run, listed, isRun, isStep⟩ := ofRun
    have behindBarrier : Precedes (.barrier (some idx, .afterWriting)) (.act ⟨idx, step, operation⟩)
        (save (ranks rank) used) := by
      refine Precedes.append (precedes_flatMap used.runs _ ?_) (precedes_absent _ (by simp))
      exact fun run _ => barrier_precedes (ranks rank) run idx step operation behind
    have passed := behindBarrier (state.done rank) (isPrefix rank) member
    have inBarriers : (some idx, Place.afterWriting) ∈ barriers (state.done rank) :=
      List.mem_filterMap.mpr ⟨_, passed, rfl⟩
    rw [same_passed moves ran rank other (same rank other)] at inBarriers
    obtain ⟨instruction, otherPassed, isLabel⟩ := List.mem_filterMap.mp inBarriers
    have isBarrier : instruction = .barrier (some idx, .afterWriting) := by
      cases instruction with
      | act action => cases isLabel
      | barrier label => rw [Option.some.inj isLabel]
    have beforeBarrier : Precedes (.act ⟨idx, step, .save⟩) (.barrier (some idx, .afterWriting))
        (save (ranks other) used) := by
      refine Precedes.append (precedes_flatMap used.runs _ ?_) (precedes_absent _ (by simp))
      intro another anotherListed
      apply save_precedes
      intro sameIdx
      rw [used.same_idx anotherListed listed (sameIdx.symm.trans isRun)]
      exact isStep
    exact beforeBarrier (state.done other) (isPrefix other) (isBarrier ▸ otherPassed)
  rintro rank idx step (⟨-, marked⟩ | recorded) other
  · exact written rank idx step .markStable (Or.inl rfl) marked other
  · exact written rank idx step .append (Or.inr rfl) recorded other

/-- The ranks list the same barriers and stable means complete exactly when, for
each used run, they agree on saving it and all or none of them reach the inner
barrier. -/
theorem save_in_step_iff {size : Nat} (ranks : Fin size → Rank) (used : UsedRuns) :
    ((∀ rank other, barriers (save (ranks rank) used) = barriers (save (ranks other) used)) ∧
      ∀ (moves : List (Move size)) (state : Ranks Action Barrier size),
        Machine.run step (.start (fun rank => save (ranks rank) used)) moves = some state →
          StableComplete ranks state) ↔
      ∀ run ∈ used.runs, InStep ranks run := by
  rw [← same_barriers_iff]
  constructor
  · rintro ⟨same, -⟩
    exact same
  · intro same
    exact ⟨same, fun moves state ran => stable_complete ranks used same moves ran⟩

/-! ## One rank fails to write -/

/-- Two ranks, one run due at its first step, and the second rank cannot write. -/
def failingRanks (rank : Fin 2) : Rank where
  isMaster := decide (rank = 0)
  ckptSteps := fun _ => []
  raises := fun _ operation => decide (rank = 1) && decide (operation = .save)

def dueRun : UsedRuns where
  runs := [⟨0, 2, some
    { resumeStep := none, interval := some ⟨1, Nat.one_pos⟩, keepLast := none, keepInterval := none },
    false⟩]
  distinct := by decide

/-- The master pairs the barrier behind its own writing with the one behind the
other rank's block, marks the step stable, and waits for ever after the next. -/
theorem failing_rank_marked :
    barriers (save (failingRanks 0) dueRun) ≠ barriers (save (failingRanks 1) dueRun) ∧
    ∃ state, Machine.run step (.start (fun rank => save (failingRanks rank) dueRun))
        [.act 0, .act 0, .act 0, .act 0, .act 1, .act 1, .meet, .act 0, .act 0, .meet] = some state ∧
      .act ⟨0, 1, .markStable⟩ ∈ state.done 0 ∧ .act ⟨0, 1, .append⟩ ∈ state.done 0 ∧
      .act ⟨0, 1, .save⟩ ∉ state.done 1 ∧
      state.left 0 = [.barrier (none, .atEnd)] ∧ state.left 1 = [] := by
  refine ⟨by decide, _, rfl, ?_⟩
  decide

end PrimeRl.Trainer.MultiCkpt
