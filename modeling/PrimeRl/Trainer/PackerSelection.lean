import PrimeRl.Trainer.Packer

/-!
# One selection of the packer

A walk around the buffers finds work when there is some. A visit takes a prefix
of one buffer, all of its current step, within the budget. Each round therefore
takes a sample or fills the budget, and what was buffered is what was picked
followed by what is left, run by run.
-/

namespace PrimeRl.Trainer.Packer

open PrimeRl.Trainer.Batch PrimeRl.Trainer.Runs PrimeRl.Transport

variable {Scalar : Type}

/-- The buffer of a slot; slots out of range have nothing buffered. -/
def MultiPacker.queue (packer : MultiPacker Scalar) (idx : Nat) : List (Entry Scalar) :=
  packer.buffers.getD idx []

/-- A slot whose oldest sample is of its current step. -/
def Poppable (packer : MultiPacker Scalar) (idx : Nat) : Prop :=
  ∃ entry progress, (packer.queue idx).head? = some entry ∧
    packer.manager.progress.lookup idx = some progress ∧ entry.2 ≤ progress.step

/-- Every slot in use has a buffer and a progress, the others have nothing
buffered, and what is buffered has passed the checks. -/
structure Usable (packer : MultiPacker Scalar) : Prop where
  tracked : ∀ idx, idx ∈ packer.manager.progress ↔ idx ∈ packer.manager.idx2Id
  inside : ∀ idx ∈ packer.manager.idx2Id, idx < packer.buffers.length
  idle : ∀ idx, idx ∉ packer.manager.idx2Id → packer.queue idx = []
  position : packer.buffers ≠ [] → packer.roundRobinPosition < packer.buffers.length
  valid : ∀ idx, ∀ entry ∈ packer.queue idx, validateSample packer.seqLen entry.1 = .ok ()

/-- A sample that passes the checks has tokens, and no more than fit a row. -/
theorem validated_tokens {seqLen : Nat} {sample : TrainingSample Scalar}
    (valid : validateSample seqLen sample = .ok ()) :
    1 ≤ sample.tokenIds.length ∧ sample.tokenIds.length ≤ seqLen := by
  unfold validateSample at valid
  cases misaligned : misalignedStream sample with
  | some stream => simp [misaligned] at valid
  | none =>
    simp only [misaligned] at valid
    split at valid
    · cases valid
    · split at valid
      · cases valid
      · omega

variable {packer : MultiPacker Scalar}

theorem buffer_ok {idx : Nat} (inside : idx < packer.buffers.length) :
    packer.buffer idx = .ok (packer.queue idx) := by
  rw [MultiPacker.buffer, MultiPacker.queue, List.getElem?_eq_getElem inside,
    List.getD_eq_getElem _ _ inside]

/-- A valid sample fits the budget on its own. -/
theorem Usable.fits (usable : Usable packer) {idx : Nat} {entry : Entry Scalar}
    (member : entry ∈ packer.queue idx) :
    1 ≤ sampleTokens entry ∧ sampleTokens entry ≤ packer.tokenBudget := by
  obtain ⟨positive, bounded⟩ := validated_tokens (usable.valid idx entry member)
  refine ⟨positive, bounded.trans ?_⟩
  exact Nat.le_mul_of_pos_right packer.seqLen packer.dpWorldSize.pos

/-- A slot with a buffered sample is in use. -/
theorem Usable.busy (usable : Usable packer) {idx : Nat} {entry : Entry Scalar}
    (isHead : (packer.queue idx).head? = some entry) : idx ∈ packer.manager.idx2Id := by
  by_contra unused
  rw [usable.idle idx unused] at isHead
  cases isHead

theorem Poppable.used (usable : Usable packer) {idx : Nat} (poppable : Poppable packer idx) :
    idx < packer.buffers.length := by
  obtain ⟨entry, _, isHead, _, _⟩ := poppable
  exact usable.inside idx (usable.busy isHead)

/-- The head of a buffer decides whether there is work. -/
theorem has_work_spec (usable : Usable packer) {position : Nat}
    (inside : position < packer.buffers.length) :
    ∃ work, packer.hasWork position = .ok work ∧ (work = true ↔ Poppable packer position) := by
  rw [MultiPacker.hasWork, buffer_ok inside]
  cases listed : packer.queue position with
  | nil =>
    refine ⟨false, rfl, ?_⟩
    simp [Poppable, listed]
  | cons entry rest =>
    have isHead : (packer.queue position).head? = some entry := by rw [listed]; rfl
    have used : position ∈ packer.manager.idx2Id := usable.busy isHead
    obtain ⟨progress, found⟩ := Finmap.mem_iff.mp ((usable.tracked position).mpr used)
    refine ⟨decide (entry.2 ≤ progress.step), ?_, ?_⟩
    · simp only [bind, Except.bind, subscript_ok found]
      rfl
    · simp [Poppable, listed, found]

theorem next_position_inside {position : Nat} (inside : position < packer.buffers.length) :
    packer.nextPosition position < packer.buffers.length :=
  Nat.mod_lt _ (by omega)

/-- A walk stops at work, or has passed every position it was to look at. -/
theorem next_run_spec (usable : Usable packer) (remaining position : Nat)
    (inside : position < packer.buffers.length) :
    ∃ stop found, nextRun packer remaining position = .ok (stop, found) ∧
      stop < packer.buffers.length ∧ (∀ idx, found = some idx → Poppable packer idx) ∧
      (found = none → ∀ passed < remaining,
        ¬Poppable packer ((position + passed) % packer.buffers.length)) := by
  induction remaining generalizing position with
  | zero =>
    refine ⟨position, none, rfl, inside, ?_, ?_⟩
    · intro idx impossible
      cases impossible
    · intro _ passed impossible
      omega
  | succ remaining inductionHypothesis =>
    obtain ⟨work, asked, iff⟩ := has_work_spec usable inside
    cases work with
    | true =>
      refine ⟨position, some position, ?_, inside, ?_, ?_⟩
      · simp only [nextRun, asked, bind, Except.bind]
        rfl
      · intro idx same
        exact Option.some.inj same ▸ iff.mp rfl
      · intro impossible
        cases impossible
    | false =>
      obtain ⟨stop, found, walked, stopInside, works, nothing⟩ :=
        inductionHypothesis (packer.nextPosition position) (next_position_inside inside)
      refine ⟨stop, found, ?_, stopInside, works, ?_⟩
      · simp only [nextRun, asked, bind, Except.bind]
        exact walked
      · intro none passed below
        cases passed with
        | zero =>
          rw [Nat.add_zero, Nat.mod_eq_of_lt inside, ← iff]
          exact Bool.false_ne_true
        | succ passed =>
          have later := nothing none passed (by omega)
          rwa [MultiPacker.nextPosition, Nat.mod_add_mod, Nat.add_assoc, Nat.add_comm 1] at later

/-- Walking all the way round passes every position. -/
theorem walk_reaches {length position target : Nat} (start : position < length)
    (inside : target < length) : ∃ passed < length, (position + passed) % length = target := by
  by_cases ahead : position ≤ target
  · refine ⟨target - position, by omega, ?_⟩
    rw [Nat.add_sub_cancel' ahead, Nat.mod_eq_of_lt inside]
  · refine ⟨target + length - position, by omega, ?_⟩
    rw [Nat.add_sub_cancel' (by omega), Nat.add_mod_right, Nat.mod_eq_of_lt inside]

/-- A full walk finds work if there is any. -/
theorem walk_around (usable : Usable packer) :
    ∃ stop found, nextRun packer packer.buffers.length packer.roundRobinPosition =
        .ok (stop, found) ∧ (packer.buffers ≠ [] → stop < packer.buffers.length) ∧
      (∀ idx, found = some idx → Poppable packer idx) ∧
      (found = none → ∀ idx, ¬Poppable packer idx) := by
  by_cases empty : packer.buffers = []
  · refine ⟨packer.roundRobinPosition, none, ?_, fun nonempty => absurd empty nonempty, ?_, ?_⟩
    · rw [empty]
      rfl
    · intro idx impossible
      cases impossible
    · intro _ idx poppable
      have inside := poppable.used usable
      rw [empty] at inside
      cases inside
  · have start := usable.position empty
    obtain ⟨stop, found, walked, inside, works, nothing⟩ :=
      next_run_spec usable packer.buffers.length packer.roundRobinPosition start
    refine ⟨stop, found, walked, fun _ => inside, works, ?_⟩
    intro none idx poppable
    obtain ⟨passed, below, same⟩ := walk_reaches start (poppable.used usable)
    exact nothing none passed below (same ▸ poppable)

/-! ## One visit -/

def entryTokens (entries : List (Entry Scalar)) : Nat := (entries.map sampleTokens).sum

/-- What one visit takes from a buffer. -/
structure Takes (tokenBudget : Nat) (currentStep : Int) (collected : Nat)
    (buffer : List (Entry Scalar)) (taken : Taken Scalar) : Prop where
  split : buffer = taken.selected ++ taken.rest
  current : ∀ entry ∈ taken.selected, entry.2 ≤ currentStep
  bound : collected + entryTokens taken.selected ≤ tokenBudget
  counted : taken.full = false → taken.collected = collected + entryTokens taken.selected
  moves : ∀ entry, buffer.head? = some entry → entry.2 ≤ currentStep →
    collected = 0 ∨ taken.full = false → taken.selected ≠ []

/-- Samples that each fit the budget are never dropped. -/
theorem take_samples_takes (tokenBudget : Nat) (currentStep : Int) (collected : Nat)
    (buffer : List (Entry Scalar)) (within : collected ≤ tokenBudget)
    (fits : ∀ entry ∈ buffer, 1 ≤ sampleTokens entry ∧ sampleTokens entry ≤ tokenBudget) :
    Takes tokenBudget currentStep collected buffer
      (takeSamples tokenBudget currentStep collected buffer) := by
  induction buffer generalizing collected with
  | nil =>
    rw [takeSamples]
    constructor
    · rfl
    · simp
    · simpa [entryTokens] using within
    · simp [entryTokens]
    · simp
  | cons entry rest inductionHypothesis =>
    obtain ⟨positive, bounded⟩ := fits entry List.mem_cons_self
    rw [takeSamples]
    by_cases later : currentStep < entry.2
    · rw [if_pos later]
      constructor
      · rfl
      · simp
      · simpa [entryTokens] using within
      · simp [entryTokens]
      · intro head isHead current
        obtain rfl : entry = head := by simpa using isHead
        omega
    · rw [if_neg later]
      by_cases exceeds : tokenBudget < collected + sampleTokens entry
      · -- the budget is not exceeded by one sample alone, so something is collected
        rw [if_pos exceeds, if_neg (by omega)]
        constructor
        · rfl
        · simp
        · simpa [entryTokens] using within
        · simp
        · rintro head - - (none | impossible)
          · omega
          · cases impossible
      · rw [if_neg exceeds]
        have remaining := inductionHypothesis (collected + sampleTokens entry) (by omega)
          (fun other member => fits other (List.mem_cons_of_mem entry member))
        constructor
        · exact congrArg (entry :: ·) remaining.split
        · intro other member
          rcases List.mem_cons.mp member with rfl | earlier
          · omega
          · exact remaining.current other earlier
        · have bound := remaining.bound
          simp only [entryTokens, List.map_cons, List.sum_cons] at bound ⊢
          omega
        · intro notFull
          have counted := remaining.counted notFull
          simp only [entryTokens, List.map_cons, List.sum_cons] at counted ⊢
          omega
        · simp

/-! ## The whole loop -/

/-- The picks of one run, as they were buffered. -/
def picksOf (idx : Nat) (selected : List (Pick Scalar)) : List (Entry Scalar) :=
  (selected.filter (fun pick => decide (pick.runIdx = idx))).map
    (fun pick => (pick.sample, pick.step))

def pickTokens (selected : List (Pick Scalar)) : Nat :=
  (selected.map (fun pick => pick.sample.tokenIds.length)).sum

/-- How far a selection has come from where it started. -/
structure Selecting (before after : MultiPacker Scalar) (selected : List (Pick Scalar)) : Prop where
  frame : after = { before with
    buffers := after.buffers
    roundRobinPosition := after.roundRobinPosition }
  size : after.buffers.length = before.buffers.length
  position : before.buffers ≠ [] → after.roundRobinPosition < before.buffers.length
  queues : ∀ idx, before.queue idx = picksOf idx selected ++ after.queue idx
  current : ∀ pick ∈ selected, ∃ progress,
    before.manager.progress.lookup pick.runIdx = some progress ∧ pick.step ≤ progress.step
  bound : pickTokens selected ≤ before.tokenBudget

theorem selecting_start (usable : Usable packer) : Selecting packer packer [] where
  frame := rfl
  size := rfl
  position := usable.position
  queues := fun _ => rfl
  current := fun _ impossible => absurd impossible List.not_mem_nil
  bound := Nat.zero_le _

theorem Selecting.manager {before after : MultiPacker Scalar} {selected : List (Pick Scalar)}
    (selecting : Selecting before after selected) : after.manager = before.manager := by
  rw [selecting.frame]

/-- A packer stays usable while it selects. -/
theorem Selecting.usable {before after : MultiPacker Scalar} {selected : List (Pick Scalar)}
    (selecting : Selecting before after selected) (usable : Usable before) : Usable after := by
  have sameLimit : after.seqLen = before.seqLen := by rw [selecting.frame]
  constructor
  · rw [selecting.manager]
    exact usable.tracked
  · rw [selecting.manager, selecting.size]
    exact usable.inside
  · intro idx unused
    rw [selecting.manager] at unused
    have split := selecting.queues idx
    rw [usable.idle idx unused] at split
    exact (List.append_eq_nil_iff.mp split.symm).2
  · intro nonempty
    rw [selecting.size]
    refine selecting.position ?_
    intro empty
    apply nonempty
    rw [← List.length_eq_zero_iff, selecting.size, empty]
    rfl
  · intro idx entry member
    rw [sameLimit]
    refine usable.valid idx entry ?_
    rw [selecting.queues idx]
    exact List.mem_append_right _ member

/-- What is left to buffer shrinks with each visit that takes something. -/
theorem buffered_set (buffers : List (List (Entry Scalar))) (idx : Nat)
    (inside : idx < buffers.length) (front rest : List (Entry Scalar))
    (split : buffers.getD idx [] = front ++ rest) :
    (buffers.map List.length).sum =
      front.length + ((buffers.set idx rest).map List.length).sum := by
  induction buffers generalizing idx with
  | nil => cases inside
  | cons first others inductionHypothesis =>
    cases idx with
    | zero =>
      rw [List.getD_cons_zero] at split
      simp only [List.map_cons, List.sum_cons, List.set_cons_zero, split, List.length_append]
      omega
    | succ idx =>
      rw [List.getD_cons_succ] at split
      have later := inductionHypothesis idx (by simpa using inside) split
      simp only [List.map_cons, List.sum_cons, List.set_cons_succ]
      omega

/-- A visit to a run with work extends the selection by what it takes. -/
theorem Selecting.visit {before : MultiPacker Scalar} {selected : List (Pick Scalar)}
    {runIdx : Nat} {progress : Progress} {taken : Taken Scalar}
    (selecting : Selecting before packer selected) (inside : runIdx < packer.buffers.length)
    (position : Nat) (found : packer.manager.progress.lookup runIdx = some progress)
    (takes : Takes packer.tokenBudget progress.step (pickTokens selected) (packer.queue runIdx)
      taken) :
    Selecting before
      { packer with
        buffers := packer.buffers.set runIdx taken.rest
        roundRobinPosition := packer.nextPosition position }
      (selected ++ taken.selected.map (fun entry => ⟨runIdx, entry.1, entry.2⟩)) := by
  have sameBudget : packer.tokenBudget = before.tokenBudget := by
    rw [selecting.frame]
    rfl
  constructor
  · rw [selecting.frame]
  · exact (List.length_set ..).trans selecting.size
  · intro _
    rw [← selecting.size]
    exact Nat.mod_lt _ (by omega)
  · intro idx
    rw [selecting.queues idx, picksOf, picksOf, List.filter_append, List.map_append,
      List.append_assoc]
    congr 1
    by_cases same : idx = runIdx
    · subst same
      have all : (taken.selected.map (fun entry => (⟨idx, entry.1, entry.2⟩ : Pick Scalar))).filter
          (fun pick => decide (pick.runIdx = idx)) =
          taken.selected.map (fun entry => ⟨idx, entry.1, entry.2⟩) := by
        rw [List.filter_eq_self]
        intro pick member
        obtain ⟨entry, -, rfl⟩ := List.mem_map.mp member
        simp
      rw [all, List.map_map, takes.split]
      simp only [MultiPacker.queue, List.getD_eq_getElem?_getD, List.getElem?_set_self inside,
        Option.getD_some]
      congr 1
      exact (List.map_id _).symm
    · have none : (taken.selected.map
          (fun entry => (⟨runIdx, entry.1, entry.2⟩ : Pick Scalar))).filter
          (fun pick => decide (pick.runIdx = idx)) = [] := by
        rw [List.filter_eq_nil_iff]
        intro pick member
        obtain ⟨entry, -, rfl⟩ := List.mem_map.mp member
        simpa using Ne.symm same
      rw [none, List.map_nil, List.nil_append]
      simp only [MultiPacker.queue, List.getD_eq_getElem?_getD,
        List.getElem?_set_ne (Ne.symm same)]
  · intro pick member
    rcases List.mem_append.mp member with earlier | now
    · exact selecting.current pick earlier
    · obtain ⟨entry, isTaken, rfl⟩ := List.mem_map.mp now
      rw [selecting.manager] at found
      exact ⟨progress, found, takes.current entry isTaken⟩
  · have bound := takes.bound
    rw [sameBudget] at bound
    rw [pickTokens, List.map_append, List.sum_append, List.map_map]
    exact bound

/-- The loop ends, and where it ends nothing is lost. With work at hand it has
picked something. -/
theorem select_from_spec {before : MultiPacker Scalar} (usable : Usable before)
    (fuel : Nat) (packer : MultiPacker Scalar) (selected : List (Pick Scalar))
    (selecting : Selecting before packer selected) (enough : packer.buffered < fuel) :
    ∃ after final, selectFrom before.tokenBudget fuel packer (pickTokens selected) selected =
        some (.ok (after, final)) ∧ Selecting before after final ∧ selected <+: final ∧
      (selected = [] → (∃ idx, Poppable before idx) → final ≠ []) := by
  induction fuel generalizing packer selected with
  | zero => omega
  | succ fuel inductionHypothesis =>
    have current := selecting.usable usable
    have sameBudget : packer.tokenBudget = before.tokenBudget := by
      rw [selecting.frame]
      rfl
    rw [selectFrom]
    by_cases reached : before.tokenBudget ≤ pickTokens selected
    · rw [if_pos reached]
      refine ⟨packer, selected, rfl, selecting, List.prefix_rfl, ?_⟩
      rintro rfl ⟨idx, poppable⟩
      obtain ⟨entry, -, isHead, -⟩ := poppable
      have fits := usable.fits (List.mem_of_mem_head? isHead)
      simp only [pickTokens, List.map_nil, List.sum_nil] at reached
      omega
    · rw [if_neg reached]
      obtain ⟨stop, found, walked, stopInside, works, nothing⟩ := walk_around current
      rw [walked]
      cases found with
      | none =>
        have stops : Selecting before { packer with roundRobinPosition := stop } selected := by
          refine ⟨?_, selecting.size, ?_, selecting.queues, selecting.current, selecting.bound⟩
          · rw [selecting.frame]
          · intro nonempty
            rw [← selecting.size]
            apply stopInside
            intro empty
            apply nonempty
            rw [← List.length_eq_zero_iff, ← selecting.size, empty]
            rfl
        refine ⟨_, selected, rfl, stops, List.prefix_rfl, ?_⟩
        -- nothing has been picked yet, so what is at hand was at hand at the start
        rintro rfl ⟨idx, poppable⟩
        exfalso
        refine nothing rfl idx ?_
        obtain ⟨entry, progress, isHead, tracked, isCurrent⟩ := poppable
        rw [selecting.queues idx] at isHead
        rw [← selecting.manager] at tracked
        exact ⟨entry, progress, isHead, tracked, isCurrent⟩
      | some runIdx =>
        have poppable := works runIdx rfl
        have inside : runIdx < packer.buffers.length := poppable.used current
        obtain ⟨entry, progress, isHead, tracked, isCurrent⟩ := poppable
        have takes := take_samples_takes packer.tokenBudget progress.step (pickTokens selected)
          (packer.queue runIdx) (sameBudget ▸ selecting.bound)
          (fun other member => current.fits member)
        obtain ⟨taken, isTaken⟩ : ∃ taken, taken = takeSamples before.tokenBudget progress.step
          (pickTokens selected) (packer.queue runIdx) := ⟨_, rfl⟩
        rw [sameBudget, ← isTaken, ← sameBudget] at takes
        have visited := selecting.visit inside stop tracked takes
        have picked : taken.selected ≠ [] → selected ++
            taken.selected.map (fun entry => (⟨runIdx, entry.1, entry.2⟩ : Pick Scalar)) ≠ [] := by
          intro some empty
          exact some (List.map_eq_nil_iff.mp (List.append_eq_nil_iff.mp empty).2)
        simp only [buffer_ok inside, subscript_ok tracked, ← isTaken]
        cases isFull : taken.full with
        | true =>
          refine ⟨_, _, rfl, visited, List.prefix_append _ _, ?_⟩
          rintro rfl -
          exact picked (takes.moves entry isHead isCurrent (.inl rfl))
        | false =>
          have moved : taken.selected ≠ [] := takes.moves entry isHead isCurrent (.inr isFull)
          have shrinks := buffered_set packer.buffers runIdx inside taken.selected taken.rest
            takes.split
          have positive : 0 < taken.selected.length := List.length_pos_iff.mpr moved
          rw [MultiPacker.buffered] at enough
          have count : taken.collected = pickTokens (selected ++
              taken.selected.map (fun entry => (⟨runIdx, entry.1, entry.2⟩ : Pick Scalar))) := by
            rw [takes.counted isFull, pickTokens, pickTokens, List.map_append, List.sum_append,
              List.map_map]
            rfl
          obtain ⟨after, final, finished, spec, extends_, -⟩ :=
            inductionHypothesis _ _ visited (by
              change ((packer.buffers.set runIdx taken.rest).map List.length).sum < fuel
              omega)
          rw [← count] at finished
          refine ⟨after, final, finished, spec, (List.prefix_append _ _).trans extends_, ?_⟩
          rintro - - rfl
          exact picked moved (List.prefix_nil.mp extends_)

end PrimeRl.Trainer.Packer
