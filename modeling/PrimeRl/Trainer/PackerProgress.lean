import PrimeRl.Trainer.PackerSelection

/-!
# The groups of a selection and their progress

Picks of one run that share their step form one group. Each group moves its
run's progress once, by one step exactly when nothing of the current step is
left in the run's buffer.
-/

namespace PrimeRl.Trainer.Packer

open PrimeRl.Trainer.Batch PrimeRl.Trainer.Runs PrimeRl.Transport

variable {Scalar : Type}

/-! ## Groups -/

/-- The groups hold the picks, each run once and with the step of all its picks. -/
structure Grouped (picks : List (Pick Scalar)) (groups : List (RunGroup Scalar)) : Prop where
  distinct : (groups.map RunGroup.runIdx).Nodup
  listed : ∀ idx, idx ∈ groups.map RunGroup.runIdx ↔ ∃ pick ∈ picks, pick.runIdx = idx
  steps : ∀ group ∈ groups, ∃ pick ∈ picks, pick.runIdx = group.runIdx ∧ pick.step = group.step
  samples : ∀ group ∈ groups,
    group.samples = (picksOf group.runIdx picks).map (fun entry => entry.1)

/-- Adding a pick changes one group, or appends one. -/
theorem add_pick_cases (pick : Pick Scalar) (groups : List (RunGroup Scalar))
    (agrees : ∀ group ∈ groups, group.runIdx = pick.runIdx → group.step = pick.step) :
    (pick.runIdx ∉ groups.map RunGroup.runIdx ∧ addPick pick groups = .ok (groups ++
      [⟨pick.runIdx, pick.step, [pick.sample], 1, pick.sample.tokenIds.length⟩])) ∨
    ∃ before group after, groups = before ++ group :: after ∧ group.runIdx = pick.runIdx ∧
      addPick pick groups = .ok (before ++ { group with
        samples := group.samples ++ [pick.sample]
        numSamples := group.numSamples + 1
        numTokens := group.numTokens + pick.sample.tokenIds.length } :: after) := by
  induction groups with
  | nil => exact .inl ⟨by simp, rfl⟩
  | cons first rest inductionHypothesis =>
    by_cases same : first.runIdx = pick.runIdx
    · refine .inr ⟨[], first, rest, rfl, same, ?_⟩
      rw [addPick, if_pos same, if_pos (agrees first List.mem_cons_self same)]
      rfl
    · rcases inductionHypothesis (fun group member => agrees group (List.mem_cons_of_mem first member))
        with ⟨absent, appended⟩ | ⟨before, group, after, split, isRun, changed⟩
      · refine .inl ⟨?_, ?_⟩
        · rw [List.map_cons, List.mem_cons, not_or]
          exact ⟨Ne.symm same, absent⟩
        · rw [addPick, if_neg same, appended]
          rfl
      · refine .inr ⟨first :: before, group, after, ?_, isRun, ?_⟩
        · rw [split, List.cons_append]
        · rw [addPick, if_neg same, changed]
          rfl

theorem picks_of_append (idx : Nat) (picks others : List (Pick Scalar)) :
    picksOf idx (picks ++ others) = picksOf idx picks ++ picksOf idx others := by
  rw [picksOf, List.filter_append, List.map_append]
  rfl

/-- One more pick joins the group of its run. -/
theorem add_pick_grouped {done : List (Pick Scalar)} {groups : List (RunGroup Scalar)}
    (grouped : Grouped done groups) (pick : Pick Scalar)
    (agrees : ∀ other ∈ done, other.runIdx = pick.runIdx → other.step = pick.step) :
    ∃ next, addPick pick groups = .ok next ∧ Grouped (done ++ [pick]) next := by
  have own : picksOf pick.runIdx [pick] = [(pick.sample, pick.step)] := by simp [picksOf]
  have foreign : ∀ idx, idx ≠ pick.runIdx → picksOf idx [pick] = [] := by
    intro idx different
    simp [picksOf, Ne.symm different]
  have sameStep : ∀ group ∈ groups, group.runIdx = pick.runIdx → group.step = pick.step := by
    intro group member isRun
    obtain ⟨other, listed, otherRun, otherStep⟩ := grouped.steps group member
    rw [← otherStep]
    exact agrees other listed (otherRun.trans isRun)
  rcases add_pick_cases pick groups sameStep with
    ⟨absent, appended⟩ | ⟨before, group, after, split, isRun, changed⟩
  · refine ⟨_, appended, ?_⟩
    have unpicked : picksOf pick.runIdx done = [] := by
      rw [picksOf, List.map_eq_nil_iff, List.filter_eq_nil_iff]
      intro other member
      rw [grouped.listed] at absent
      simpa using fun same => absent ⟨other, member, same⟩
    constructor
    · rw [List.map_append, List.nodup_append]
      refine ⟨grouped.distinct, by simp, ?_⟩
      rintro idx member other isNew rfl
      obtain rfl : idx = pick.runIdx := by simpa using isNew
      exact absent member
    · intro idx
      rw [List.map_append, List.mem_append, grouped.listed]
      simp only [List.mem_append, List.map_cons, List.map_nil, List.mem_singleton]
      constructor
      · rintro (⟨other, member, rfl⟩ | rfl)
        · exact ⟨other, .inl member, rfl⟩
        · exact ⟨pick, .inr rfl, rfl⟩
      · rintro ⟨other, member | rfl, rfl⟩
        · exact .inl ⟨other, member, rfl⟩
        · exact .inr rfl
    · intro group member
      rcases List.mem_append.mp member with older | new
      · obtain ⟨other, listed, facts⟩ := grouped.steps group older
        exact ⟨other, List.mem_append_left _ listed, facts⟩
      · obtain rfl := List.mem_singleton.mp new
        exact ⟨pick, by simp, rfl, rfl⟩
    · intro group member
      rw [picks_of_append, List.map_append]
      rcases List.mem_append.mp member with older | new
      · have different : group.runIdx ≠ pick.runIdx := fun same =>
          absent (same ▸ List.mem_map_of_mem older)
        rw [foreign _ different, grouped.samples group older, List.map_nil, List.append_nil]
      · obtain rfl := List.mem_singleton.mp new
        rw [own, unpicked]
        rfl
  · refine ⟨_, changed, ?_⟩
    have member : group ∈ groups := by rw [split]; simp
    have idxs : (before ++ { group with
        samples := group.samples ++ [pick.sample]
        numSamples := group.numSamples + 1
        numTokens := group.numTokens + pick.sample.tokenIds.length } :: after).map
          RunGroup.runIdx = groups.map RunGroup.runIdx := by
      rw [split]
      simp
    have pickListed : pick.runIdx ∈ groups.map RunGroup.runIdx :=
      isRun ▸ List.mem_map_of_mem member
    -- a group beside the changed one belongs to another run
    have besides : ∀ other, other ∈ before ∨ other ∈ after →
        other ∈ groups ∧ other.runIdx ≠ pick.runIdx := by
      intro other beside
      have distinct := grouped.distinct
      rw [split, List.map_append, List.map_cons, List.nodup_append] at distinct
      rw [split, ← isRun]
      rcases beside with early | late
      · refine ⟨by simp [early], ?_⟩
        exact distinct.2.2 _ (List.mem_map_of_mem early) _ List.mem_cons_self
      · refine ⟨by simp [late], fun same => ?_⟩
        exact (List.nodup_cons.mp distinct.2.1).1 (same ▸ List.mem_map_of_mem late)
    constructor
    · rw [idxs]
      exact grouped.distinct
    · intro idx
      rw [idxs, grouped.listed]
      constructor
      · rintro ⟨other, earlier, same⟩
        exact ⟨other, List.mem_append_left _ earlier, same⟩
      · rintro ⟨other, present, rfl⟩
        rcases List.mem_append.mp present with earlier | last
        · exact ⟨other, earlier, rfl⟩
        · obtain rfl := List.mem_singleton.mp last
          exact (grouped.listed _).mp pickListed
    · intro other present
      rcases List.mem_append.mp present with early | late
      · obtain ⟨first, listed, facts⟩ := grouped.steps other (besides other (.inl early)).1
        exact ⟨first, List.mem_append_left _ listed, facts⟩
      · rcases List.mem_cons.mp late with rfl | later
        · obtain ⟨first, listed, facts⟩ := grouped.steps group member
          exact ⟨first, List.mem_append_left _ listed, facts⟩
        · obtain ⟨first, listed, facts⟩ := grouped.steps other (besides other (.inr later)).1
          exact ⟨first, List.mem_append_left _ listed, facts⟩
    · intro other present
      rw [picks_of_append, List.map_append]
      rcases List.mem_append.mp present with early | late
      · obtain ⟨older, different⟩ := besides other (.inl early)
        rw [foreign _ different, grouped.samples other older, List.map_nil, List.append_nil]
      · rcases List.mem_cons.mp late with rfl | later
        · change group.samples ++ [pick.sample] = _
          rw [grouped.samples group member, isRun, own]
          rfl
        · obtain ⟨older, different⟩ := besides other (.inr later)
          rw [foreign _ different, grouped.samples other older, List.map_nil, List.append_nil]

/-- Picks that share the step of their run are grouped without complaint. -/
theorem group_samples_spec (picks : List (Pick Scalar))
    (agrees : ∀ first ∈ picks, ∀ second ∈ picks, first.runIdx = second.runIdx →
      first.step = second.step) :
    ∃ groups, groupSamples picks = .ok groups ∧ Grouped picks groups := by
  refine Loop.completes _ Grouped picks ?_ [] ⟨by simp, by simp, by simp, by simp⟩
  intro done pick rest groups split grouped
  refine add_pick_grouped grouped pick ?_
  intro other member same
  refine agrees other ?_ pick ?_ same
  · rw [split]
    exact List.mem_append_left _ member
  · rw [split]
    simp

/-! ## Progress -/

/-- The step a run is at behind a selection that may have picked from it. -/
def advanced (packer : MultiPacker Scalar) (touched : List Nat) (idx : Nat) (step : Int) : Int :=
  if idx ∈ touched ∧ stepConsumed step (packer.queue idx) then step + 1 else step

/-- Progress moves without touching the buffers. -/
structure Progressed (before after : MultiPacker Scalar) (touched : List Nat) : Prop where
  frame : after = { before with manager := { before.manager with
    progress := after.manager.progress
    readyToUpdate := after.manager.readyToUpdate } }
  steps : ∀ idx, (after.manager.progress.lookup idx).map Progress.step =
    (before.manager.progress.lookup idx).map (fun progress =>
      advanced before touched idx progress.step)

/-- Each group moves its own run, once. -/
theorem update_progress_spec (packer : MultiPacker Scalar) (groups : List (RunGroup Scalar))
    (distinct : (groups.map RunGroup.runIdx).Nodup)
    (known : ∀ group ∈ groups, group.runIdx < packer.buffers.length ∧
      group.runIdx ∈ packer.manager.progress) :
    ∃ after, groups.foldlM updateRunProgress packer = .ok after ∧
      Progressed packer after (groups.map RunGroup.runIdx) := by
  refine Loop.completes _ (fun done state => Progressed packer state (done.map RunGroup.runIdx))
    groups ?_ packer ⟨rfl, fun idx => by simp [advanced]⟩
  intro done group rest state split progressed
  obtain ⟨inside, tracked⟩ := known group (by rw [split]; simp)
  have waiting : group.runIdx ∉ done.map RunGroup.runIdx := by
    rw [split, List.map_append] at distinct
    exact fun early => List.disjoint_of_nodup_append distinct early List.mem_cons_self
  have sameBuffers : state.buffers = packer.buffers := by rw [progressed.frame]
  have sameQueue : state.queue group.runIdx = packer.queue group.runIdx := by
    rw [MultiPacker.queue, sameBuffers]
    rfl
  obtain ⟨start, started⟩ := Finmap.mem_iff.mp tracked
  have steps := progressed.steps group.runIdx
  rw [started, Option.map_some] at steps
  obtain ⟨progress, found, isStep⟩ := Option.map_eq_some_iff.mp steps
  have unmoved : progress.step = start.step := by
    rw [isStep, advanced, if_neg (fun both => waiting both.1)]
  rw [updateRunProgress, buffer_ok (sameBuffers ▸ inside), subscript_ok found]
  refine ⟨_, rfl, ?_, ?_⟩
  · rw [progressed.frame]
  · intro idx
    by_cases same : idx = group.runIdx
    · subst same
      simp only [Finmap.lookup_insert, Option.map_some, started, sameQueue, unmoved, advanced,
        List.map_append, List.mem_append, List.map_cons, List.mem_cons, true_or, or_true, true_and]
    · simp only [Finmap.lookup_insert_of_ne _ same, progressed.steps, advanced, List.map_append,
        List.mem_append, List.map_cons, List.map_nil, List.mem_singleton, same, or_false]

end PrimeRl.Trainer.Packer
