import PrimeRl.Orchestrator.SinkGroups

/-!
# What taking a batch does

A batch takes a cohort off the front of the queue and some arrivals out of the
window. A batch of settled drops takes arrivals out of the window only.
-/

namespace PrimeRl.Orchestrator.Sink

open PrimeRl.Transport

variable {Scalar : Type}

/-! ## The window -/

/-- Only the window of arrivals has given up some places. -/
structure Consumes (window : List Nat) (sink next : TrainSink Scalar) : Prop where
  rollouts : next.rollouts = sink.rollouts
  groups : next.pendingGroups = sink.pendingGroups
  queue : next.pendingBatch = sink.pendingBatch
  tokens : next.pendingTokens = sink.pendingTokens
  arrivals : (window ++ next.pendingRollouts).Perm sink.pendingRollouts

theorem pop_settled_consumes (minimum : Nat) (sink : TrainSink Scalar) :
    Consumes (popSettledRollouts minimum sink).2 sink (popSettledRollouts minimum sink).1 := by
  rw [popSettledRollouts]
  split
  · exact ⟨rfl, rfl, rfl, rfl, .refl _⟩
  · refine ⟨rfl, rfl, rfl, rfl, ?_⟩
    have split := List.filter_append_perm
      (fun place => decide (place ∉ sink.pendingBatch ++ sink.pendingGroups.values.flatten))
      sink.pendingRollouts
    simp only [decide_not, Bool.not_not] at split ⊢
    exact split

/-- Flushing returns what it took out of the window, in a batch without samples. -/
theorem flush_settled_consumes (config : Config Scalar) (sink : TrainSink Scalar) :
    ∃ window, Consumes window sink (flushSettled config sink).1 ∧
      ((flushSettled config sink).2 = none ∧ window = [] ∨
        ∃ batch, (flushSettled config sink).2 = some batch ∧ batch.rollouts = window ∧
          batch.samples = [] ∧ batch.shippedValueVersionMin = none) := by
  have consumes := pop_settled_consumes config.emptyBatchRolloutLimit sink
  refine ⟨(popSettledRollouts config.emptyBatchRolloutLimit sink).2, ?_⟩
  rw [flushSettled]
  generalize popSettledRollouts config.emptyBatchRolloutLimit sink = result at consumes
  obtain ⟨popped, settled⟩ := result
  dsimp only at consumes ⊢
  split
  · rename_i none
    have empty : settled = [] := List.isEmpty_iff.mp none
    exact ⟨consumes, Or.inl ⟨rfl, empty⟩⟩
  · refine ⟨⟨consumes.rollouts, consumes.groups, consumes.queue, consumes.tokens,
      consumes.arrivals⟩, Or.inr ⟨_, rfl, rfl, rfl, rfl⟩⟩

/-! ## The cohort -/

/-- The walk takes a prefix of the queue and sums its tokens. -/
theorem token_cut_prefix (tokenBatchSize cut running : Nat) (entries : List (Placed Scalar)) :
    ∃ taken, tokenCut tokenBatchSize cut running entries =
      (cut + taken, running + ((entries.take taken).map (fun entry => entry.2.numTotalTokens)).sum) := by
  induction entries generalizing cut running with
  | nil => exact ⟨0, rfl⟩
  | cons entry rest inductionHypothesis =>
    rw [tokenCut]
    split
    · refine ⟨1, ?_⟩
      simp
    · obtain ⟨taken, isCut⟩ := inductionHypothesis (cut + 1) (running + entry.2.numTotalTokens)
      refine ⟨taken + 1, ?_⟩
      rw [isCut, List.take_succ_cons, List.map_cons, List.sum_cons, Nat.add_assoc running,
        Nat.add_assoc cut, Nat.add_comm 1]

/-- Tokens of rollouts that are read are those of their places. -/
theorem read_tokens (sink : TrainSink Scalar) (places : List Nat)
    (present : ∀ place ∈ places, place < sink.rollouts.length) :
    (sink.read places).map (fun entry => entry.2.numTotalTokens) =
      places.map (fun place => (sink.fixed[place]?.map Fixed.numTotalTokens).getD 0) := by
  have tokens : (sink.read places).map (fun entry => entry.2.numTotalTokens) =
      ((sink.read places).map Prod.fst).map
        (fun place => (sink.fixed[place]?.map Fixed.numTotalTokens).getD 0) := by
    rw [List.map_map]
    apply List.map_congr_left
    intro entry member
    rw [Function.comp_apply, read_fixed sink places entry member]
    rfl
  rw [tokens, read_places sink places present]

/-- A cohort is cut off the front of the queue, and the count drops by its tokens. -/
theorem pop_cohort_cuts (config : Config Scalar) (sink : TrainSink Scalar)
    (present : ∀ place ∈ sink.pendingBatch, place < sink.rollouts.length) :
    (popCohort config sink).1.rollouts = sink.rollouts ∧
      (popCohort config sink).1.pendingGroups = sink.pendingGroups ∧
      (popCohort config sink).1.pendingRollouts = sink.pendingRollouts ∧
      (popCohort config sink).2 ++ (popCohort config sink).1.pendingBatch = sink.pendingBatch ∧
      (popCohort config sink).1.pendingTokens =
        sink.pendingTokens - countedTokens config sink.fixed (popCohort config sink).2 := by
  rw [popCohort, countedTokens]
  cases config.threshold with
  | batchSize batchSize =>
    exact ⟨rfl, rfl, rfl, List.take_append_drop batchSize sink.pendingBatch, (Int.sub_zero _).symm⟩
  | tokenBatchSize tokenBatchSize =>
    obtain ⟨taken, isCut⟩ := token_cut_prefix tokenBatchSize 0 0 (sink.read sink.pendingBatch)
    have tokens := read_tokens sink sink.pendingBatch present
    rw [Nat.zero_add, Nat.zero_add, List.map_take, tokens, ← List.map_take] at isCut
    dsimp only
    rw [isCut]
    exact ⟨rfl, rfl, rfl, List.take_append_drop taken sink.pendingBatch, rfl⟩

/-! ## The batch -/

/-- The rollouts of a cohort that are not filtered. -/
def TrainSink.unfiltered (sink : TrainSink Scalar) (cohort : List Nat) : List (Placed Scalar) :=
  (sink.read cohort).filter (fun entry => !entry.2.isFiltered)

/-- A batch ships the samples of the cohort's rollouts that no post-filter caught,
and its version is the oldest that scored them. -/
structure Ships (config : Config Scalar) (cohort : List Nat) (next : TrainSink Scalar)
    (batch : TrainBatch Scalar) : Prop where
  verdicts : ∃ asked : List (Placed Scalar), asked.map core = (next.read cohort).map core ∧
    (next.read cohort).map (fun entry => entry.2.isFiltered) =
      asked.map (fun entry => caught config.postFilters entry.2)
  samples : batch.samples = (next.unfiltered cohort).flatMap (fun entry => entry.2.samples)
  version : batch.shippedValueVersionMin =
    ((next.unfiltered cohort).filterMap (fun entry => entry.2.valueVersion)).min?

/-- A batch took this cohort off the queue and its rollouts out of the window. -/
structure Batched (config : Config Scalar) (cohort : List Nat) (sink next : TrainSink Scalar)
    (batch : TrainBatch Scalar) : Prop where
  touches : Touches cohort sink next
  groups : next.pendingGroups = sink.pendingGroups
  queue : cohort ++ next.pendingBatch = sink.pendingBatch
  tokens : next.pendingTokens = sink.pendingTokens - countedTokens config sink.fixed cohort
  arrivals : (batch.rollouts ++ next.pendingRollouts).Perm sink.pendingRollouts
  ships : Ships config cohort next batch

theorem process_batch_batched (config : Config Scalar) (sink : TrainSink Scalar)
    (distinct : sink.pendingBatch.Nodup)
    (present : ∀ place ∈ sink.pendingBatch, place < sink.rollouts.length)
    (clean : ∀ place ∈ sink.pendingBatch, sink.Clean place) :
    Batched config (processBatch config sink).2.2 sink (processBatch config sink).1
      (processBatch config sink).2.1 := by
  obtain ⟨sameRollouts, sameGroups, sameWindow, queue, tokens⟩ := pop_cohort_cuts config sink present
  rw [processBatch]
  generalize popCohort config sink = result at sameRollouts sameGroups sameWindow queue tokens
  obtain ⟨popped, cohort⟩ := result
  dsimp only at sameRollouts sameGroups sameWindow queue tokens ⊢
  have inQueue : ∀ place ∈ cohort, place ∈ sink.pendingBatch :=
    fun place member => queue ▸ List.mem_append_left popped.pendingBatch member
  have cohortDistinct : cohort.Nodup := by
    rw [← queue] at distinct
    exact (List.nodup_append.mp distinct).1
  have sameRead : popped.read cohort = sink.read cohort := by
    rw [TrainSink.read, TrainSink.read, sameRollouts]
  have cohortRead := read_places sink cohort (fun place member => present place (inQueue place member))
  obtain ⟨judgedCore, judgedFlags⟩ := run_filters_judge config.postFilters (sink.read cohort)
  rw [sameRead]
  generalize isJudged : runFilters config.postFilters (sink.read cohort) = judged at judgedCore judgedFlags
  have flags := judgedFlags (by
    intro entry member
    obtain ⟨listed, found⟩ := (mem_read sink cohort entry.1 entry.2).mp member
    exact clean entry.1 (inQueue entry.1 listed) entry.2 found)
  have judgedPlaces := (places_of_core judgedCore).trans cohortRead
  have fixedJudged : ∀ entry ∈ judged, popped.fixed[entry.1]? = some entry.2.fixed := by
    have same := core_fixed sink cohort judged (judgedCore ▸ List.Sublist.refl _)
    rw [TrainSink.fixed, sameRollouts]
    exact same
  have touches := write_touches popped judged fixedJudged
  rw [judgedPlaces] at touches
  have readBack : (popped.write judged).read cohort = judged := by
    rw [← judgedPlaces]
    apply read_write
    · rw [judgedPlaces]
      exact cohortDistinct
    · intro entry member
      rw [sameRollouts]
      have listed : entry.1 ∈ cohort := judgedPlaces ▸ List.mem_map_of_mem member
      exact present entry.1 (inQueue entry.1 listed)
  have consumes (empty : Bool) : Consumes
      (if empty then popSettledRollouts 1 (popped.write judged)
        else ({ popped.write judged with pendingRollouts := [] }, (popped.write judged).pendingRollouts)).2
      (popped.write judged)
      (if empty then popSettledRollouts 1 (popped.write judged)
        else ({ popped.write judged with pendingRollouts := [] },
          (popped.write judged).pendingRollouts)).1 := by
    cases empty with
    | true => exact pop_settled_consumes 1 (popped.write judged)
    | false => exact ⟨rfl, rfl, rfl, rfl, by rw [if_neg Bool.false_ne_true, List.append_nil]⟩
  have consumed := consumes ((judged.filter (fun entry => !entry.2.isFiltered)).flatMap
    (fun entry => entry.2.samples)).isEmpty
  generalize (if ((judged.filter (fun entry => !entry.2.isFiltered)).flatMap
    (fun entry => entry.2.samples)).isEmpty = true then popSettledRollouts 1 (popped.write judged)
    else ({ popped.write judged with pendingRollouts := [] }, (popped.write judged).pendingRollouts))
      = result at consumed ⊢
  obtain ⟨next, window⟩ := result
  dsimp only at consumed ⊢
  have nextRead : TrainSink.read { next with lastEmptyBatchProgress := queuedBatchProgress config next }
      cohort = judged := by
    rw [← readBack, TrainSink.read, TrainSink.read, consumed.rollouts]
  constructor
  · refine ⟨?_, ?_⟩
    · have same := touches.fixed
      rw [TrainSink.fixed, TrainSink.fixed, ← consumed.rollouts, sameRollouts] at same
      exact same
    · intro place outside
      have same := touches.others place outside
      rw [← consumed.rollouts, sameRollouts] at same
      exact same
  · exact consumed.groups.trans sameGroups
  · rw [← queue]
    exact congrArg (cohort ++ ·) consumed.queue
  · exact consumed.tokens.trans tokens
  · rw [← sameWindow]
    exact consumed.arrivals
  · constructor
    · rw [nextRead]
      exact ⟨sink.read cohort, judgedCore.symm, flags⟩
    · rw [TrainSink.unfiltered, nextRead]
    · rw [TrainSink.unfiltered, nextRead]

end PrimeRl.Orchestrator.Sink
