import PrimeRl.Orchestrator.Sink
import PrimeRl.Support.Fallible

/-!
# What finalizing a group does

Finalizing touches the members of the group only, and nothing by which a rollout
is grouped, counted or judged to survive. It takes the group off the pending
ones and appends to the queue the survivors that no pre-filter caught.
-/

namespace PrimeRl.Orchestrator.Sink

open PrimeRl.Transport

variable {Scalar : Type}

/-- What no step after the arrival of a rollout changes. -/
structure Fixed where
  envName : String
  groupId : Nat
  hasError : Bool
  sampleless : Bool
  numTotalTokens : Nat
deriving DecidableEq, Repr

def Rollout.fixed (rollout : Rollout Scalar) : Fixed where
  envName := rollout.envName
  groupId := rollout.groupId
  hasError := rollout.hasError
  sampleless := rollout.samples.isEmpty
  numTotalTokens := rollout.numTotalTokens

def TrainSink.fixed (sink : TrainSink Scalar) : List Fixed := sink.rollouts.map Rollout.fixed

/-- A rollout with its place, as far as it stays the same. -/
def core (entry : Placed Scalar) : Nat × Fixed := (entry.1, entry.2.fixed)

/-- At most the rollouts at these places have changed, and nothing fixed of them. -/
structure Touches (places : List Nat) (sink next : TrainSink Scalar) : Prop where
  fixed : next.fixed = sink.fixed
  others : ∀ place ∉ places, next.rollouts[place]? = sink.rollouts[place]?

theorem touches_same (places : List Nat) {sink next : TrainSink Scalar}
    (same : next.rollouts = sink.rollouts) : Touches places sink next :=
  ⟨by rw [TrainSink.fixed, TrainSink.fixed, same], fun _ _ => by rw [same]⟩

theorem Touches.trans {places : List Nat} {first second third : TrainSink Scalar}
    (earlier : Touches places first second) (later : Touches places second third) :
    Touches places first third :=
  ⟨later.fixed.trans earlier.fixed,
    fun place outside => (later.others place outside).trans (earlier.others place outside)⟩

theorem Touches.mono {places more : List Nat} {sink next : TrainSink Scalar}
    (touches : Touches places sink next) (inside : ∀ place ∈ places, place ∈ more) :
    Touches more sink next :=
  ⟨touches.fixed, fun place outside =>
    touches.others place (fun member => outside (inside place member))⟩

/-- A rollout at this place, if there is one, is not filtered. -/
def TrainSink.Clean (sink : TrainSink Scalar) (place : Nat) : Prop :=
  ∀ rollout, sink.rollouts[place]? = some rollout → rollout.isFiltered = false

/-! ## Reading and writing -/

theorem mem_read (sink : TrainSink Scalar) (places : List Nat) (place : Nat)
    (rollout : Rollout Scalar) :
    (place, rollout) ∈ sink.read places ↔ place ∈ places ∧ sink.rollouts[place]? = some rollout := by
  simp only [TrainSink.read, List.mem_filterMap, Option.map_eq_some_iff, Prod.mk.injEq]
  constructor
  · rintro ⟨other, member, held, found, rfl, rfl⟩
    exact ⟨member, found⟩
  · rintro ⟨member, found⟩
    exact ⟨place, member, rollout, found, rfl, rfl⟩

/-- Reading lists the places that exist, in order. -/
theorem read_places (sink : TrainSink Scalar) (places : List Nat)
    (present : ∀ place ∈ places, place < sink.rollouts.length) :
    (sink.read places).map Prod.fst = places := by
  induction places with
  | nil => rfl
  | cons place rest inductionHypothesis =>
    have found := List.getElem?_eq_getElem (present place List.mem_cons_self)
    have tail := inductionHypothesis (fun other member => present other (List.mem_cons_of_mem place member))
    rw [TrainSink.read, List.filterMap_cons, found, Option.map_some, List.map_cons]
    exact congrArg (place :: ·) tail

theorem write_length (sink : TrainSink Scalar) (placed : List (Placed Scalar)) :
    (sink.write placed).rollouts.length = sink.rollouts.length := by
  have general (rollouts : List (Rollout Scalar)) :
      (placed.foldl (fun rollouts entry => rollouts.set entry.1 entry.2) rollouts).length =
        rollouts.length := by
    induction placed generalizing rollouts with
    | nil => rfl
    | cons entry rest inductionHypothesis =>
      rw [List.foldl_cons, inductionHypothesis, List.length_set]
  exact general sink.rollouts

/-- Writing back rollouts that are fixed alike touches their places. -/
theorem write_touches (sink : TrainSink Scalar) (placed : List (Placed Scalar))
    (same : ∀ entry ∈ placed, sink.fixed[entry.1]? = some entry.2.fixed) :
    Touches (placed.map Prod.fst) sink (sink.write placed) := by
  have general (rollouts : List (Rollout Scalar))
      (alike : ∀ entry ∈ placed, (rollouts.map Rollout.fixed)[entry.1]? = some entry.2.fixed) :
      (placed.foldl (fun rollouts entry => rollouts.set entry.1 entry.2) rollouts).map Rollout.fixed =
          rollouts.map Rollout.fixed ∧
        ∀ place ∉ placed.map Prod.fst,
          (placed.foldl (fun rollouts entry => rollouts.set entry.1 entry.2) rollouts)[place]? =
            rollouts[place]? := by
    induction placed generalizing rollouts with
    | nil => exact ⟨rfl, fun _ _ => rfl⟩
    | cons entry rest inductionHypothesis =>
      have unchanged : (rollouts.set entry.1 entry.2).map Rollout.fixed = rollouts.map Rollout.fixed := by
        obtain ⟨bound, value⟩ := List.getElem?_eq_some_iff.mp (alike entry List.mem_cons_self)
        rw [List.map_set, ← value, List.set_getElem_self]
      obtain ⟨fixed, others⟩ := inductionHypothesis
        (fun other member => same other (List.mem_cons_of_mem entry member))
        (rollouts.set entry.1 entry.2)
        (by
          intro other member
          rw [unchanged]
          exact alike other (List.mem_cons_of_mem entry member))
      refine ⟨fixed.trans unchanged, ?_⟩
      intro place outside
      rw [List.map_cons, List.mem_cons, not_or] at outside
      rw [List.foldl_cons, others place outside.2, List.getElem?_set_ne (Ne.symm outside.1)]
  obtain ⟨fixed, others⟩ := general sink.rollouts same
  exact ⟨fixed, others⟩

/-- Reading back what was written. -/
theorem read_write (sink : TrainSink Scalar) (placed : List (Placed Scalar))
    (distinct : (placed.map Prod.fst).Nodup)
    (present : ∀ entry ∈ placed, entry.1 < sink.rollouts.length) :
    (sink.write placed).read (placed.map Prod.fst) = placed := by
  have written (rollouts : List (Rollout Scalar))
      (inside : ∀ entry ∈ placed, entry.1 < rollouts.length) :
      ∀ entry ∈ placed, (placed.foldl (fun rollouts entry => rollouts.set entry.1 entry.2)
        rollouts)[entry.1]? = some entry.2 := by
    induction placed generalizing rollouts with
    | nil => exact fun entry impossible => absurd impossible List.not_mem_nil
    | cons first rest inductionHypothesis =>
      rw [List.map_cons, List.nodup_cons] at distinct
      have later := inductionHypothesis distinct.2
        (fun entry member => present entry (List.mem_cons_of_mem first member))
      have kept (rollouts : List (Rollout Scalar)) (place : Nat) (outside : place ∉ rest.map Prod.fst) :
          (rest.foldl (fun rollouts entry => rollouts.set entry.1 entry.2) rollouts)[place]? =
            rollouts[place]? := by
        clear later inductionHypothesis distinct present inside
        induction rest generalizing rollouts with
        | nil => rfl
        | cons entry others inductionHypothesis =>
          rw [List.map_cons, List.mem_cons, not_or] at outside
          rw [List.foldl_cons, inductionHypothesis _ outside.2,
            List.getElem?_set_ne (Ne.symm outside.1)]
      intro entry member
      rw [List.foldl_cons]
      rcases List.mem_cons.mp member with rfl | listed
      · rw [kept _ _ distinct.1, List.getElem?_set_self (inside entry List.mem_cons_self)]
      · refine later _ ?_ entry listed
        intro other inRest
        rw [List.length_set]
        exact inside other (List.mem_cons_of_mem first inRest)
  have found := written sink.rollouts present
  clear written distinct present
  rw [TrainSink.read]
  change (placed.map Prod.fst).filterMap (fun place =>
    (placed.foldl (fun rollouts entry => rollouts.set entry.1 entry.2) sink.rollouts)[place]?.map
      (fun rollout => (place, rollout))) = placed
  generalize placed.foldl (fun rollouts entry => rollouts.set entry.1 entry.2) sink.rollouts =
    rollouts at found
  induction placed with
  | nil => rfl
  | cons entry rest inductionHypothesis =>
    rw [List.map_cons, List.filterMap_cons, found entry List.mem_cons_self, Option.map_some]
    exact congrArg (entry :: ·)
      (inductionHypothesis (fun other member => found other (List.mem_cons_of_mem entry member)))

/-- What is read is fixed as the sink has it. -/
theorem read_fixed (sink : TrainSink Scalar) (places : List Nat) (entry : Placed Scalar)
    (member : entry ∈ sink.read places) : sink.fixed[entry.1]? = some entry.2.fixed := by
  obtain ⟨-, found⟩ := (mem_read sink places entry.1 entry.2).mp member
  rw [TrainSink.fixed, List.getElem?_map, found, Option.map_some]

/-- Rollouts with the same core as rollouts read from a sink can be written back. -/
theorem core_fixed (sink : TrainSink Scalar) (places : List Nat) (placed : List (Placed Scalar))
    (same : (placed.map core).Sublist ((sink.read places).map core)) :
    ∀ entry ∈ placed, sink.fixed[entry.1]? = some entry.2.fixed := by
  intro entry member
  obtain ⟨original, read, isCore⟩ := List.mem_map.mp (same.subset (List.mem_map_of_mem member))
  obtain ⟨samePlace, sameFixed⟩ := Prod.mk.inj isCore
  rw [← samePlace, ← sameFixed]
  exact read_fixed sink places original read

/-! ## Scoring and judging -/

/-- What identifies a rollout before it is judged. -/
def unjudged (entry : Placed Scalar) : (Nat × Fixed) × Bool := (core entry, entry.2.isFiltered)

theorem core_of_unjudged {placed others : List (Placed Scalar)}
    (same : placed.map unjudged = others.map unjudged) : placed.map core = others.map core := by
  have firsts := congrArg (List.map Prod.fst) same
  rwa [List.map_map, List.map_map] at firsts

theorem places_of_core {placed others : List (Placed Scalar)}
    (same : placed.map core = others.map core) : placed.map Prod.fst = others.map Prod.fst := by
  have firsts := congrArg (List.map Prod.fst) same
  rwa [List.map_map, List.map_map] at firsts

theorem score_fixed (rollout : Rollout Scalar) (scores : Scores Scalar) :
    (rollout.score scores).fixed = rollout.fixed := by
  have sampleless : (rollout.samples.mapIdx scores.stamp).isEmpty = rollout.samples.isEmpty := by
    rw [Bool.eq_iff_iff, List.isEmpty_iff, List.isEmpty_iff, List.mapIdx_eq_nil_iff]
  simp only [Rollout.fixed, Rollout.score, sampleless]

theorem stamp_temperature_fixed (temperature : Scalar) (rollout : Rollout Scalar) :
    (stampTemperature temperature rollout).fixed = rollout.fixed := by
  simp only [Rollout.fixed, stampTemperature, List.isEmpty_map]

theorem score_member_unjudged (config : Config Scalar) (scoringTasks : List Nat)
    (entry scored : Placed Scalar) (accepted : scoreMember config scoringTasks entry = .ok scored) :
    unjudged scored = unjudged entry := by
  rw [scoreMember] at accepted
  split at accepted
  · obtain ⟨env, -, accepted⟩ := Fallible.bind_ok accepted
    obtain ⟨scores, -, accepted⟩ := Fallible.bind_ok accepted
    obtain rfl := Except.ok.inj accepted
    simp only [unjudged, core, score_fixed]
    rfl
  · obtain rfl := Except.ok.inj accepted
    rfl

theorem await_scoring_unjudged (config : Config Scalar) (scoringTasks : List Nat)
    (members scored : List (Placed Scalar))
    (accepted : awaitScoring config scoringTasks members = .ok scored) :
    scored.map unjudged = members.map unjudged := by
  induction members generalizing scored with
  | nil =>
    obtain rfl := Except.ok.inj accepted
    rfl
  | cons entry rest inductionHypothesis =>
    rw [awaitScoring] at accepted
    obtain ⟨first, awaited, accepted⟩ := Fallible.bind_ok accepted
    obtain ⟨others, behind, accepted⟩ := Fallible.bind_ok accepted
    obtain rfl := Except.ok.inj accepted
    rw [List.map_cons, List.map_cons, score_member_unjudged config scoringTasks entry first awaited,
      inductionHypothesis others behind]

theorem attach_context_unjudged (config : Config Scalar) (env : TrainEnv Scalar)
    (survivors conditioned : List (Placed Scalar))
    (accepted : attachGroupContext config env survivors = .ok conditioned) :
    conditioned.map unjudged = survivors.map unjudged := by
  rw [attachGroupContext] at accepted
  split at accepted
  · obtain ⟨prefixes, -, accepted⟩ := Fallible.bind_ok accepted
    split at accepted
    · cases accepted
    · split at accepted
      · cases accepted
      · rename_i sameLength
        obtain rfl := Except.ok.inj accepted
        have first : List.zipWith (fun entry (_ : ValueContext.TokenPrefix) => unjudged entry) survivors
            prefixes = survivors.map unjudged := by
          rw [← List.map_uncurry_zip_eq_zipWith]
          have firsts : (survivors.zip prefixes).map Prod.fst = survivors :=
            List.map_fst_zip (not_not.mp sameLength).ge
          conv_rhs => rw [← firsts]
          rw [List.map_map]
          rfl
        rw [List.map_zipWith]
        exact first
  · obtain rfl := Except.ok.inj accepted
    rfl

/-- Whether the first filter that detects a rollout enforces its verdict. -/
def caught (filters : List (RolloutFilter Scalar)) (rollout : Rollout Scalar) : Bool :=
  (filters.find? (fun filter => filter.check (clearAnnotations filters rollout))).any
    RolloutFilter.enforce

theorem detect_flag (filters : List (RolloutFilter Scalar)) (rollout : Rollout Scalar) :
    (detect rollout filters).fixed = rollout.fixed ∧
      (detect rollout filters).isFiltered =
        ((filters.find? (fun filter => filter.check rollout)).map RolloutFilter.enforce).getD
          rollout.isFiltered := by
  induction filters with
  | nil => exact ⟨rfl, rfl⟩
  | cons filter rest inductionHypothesis =>
    rw [detect, List.find?_cons]
    split
    · rename_i detected
      rw [detected]
      exact ⟨rfl, rfl⟩
    · rename_i passes
      rw [Bool.not_eq_true] at passes
      rw [passes]
      exact inductionHypothesis

/-- Filters keep what is fixed. They drop what the first detecting filter enforces;
without filters, a rollout with clean annotations passes. -/
theorem run_filters_judge (filters : List (RolloutFilter Scalar)) (rollouts : List (Placed Scalar)) :
    (runFilters filters rollouts).map core = rollouts.map core ∧
      ((∀ entry ∈ rollouts, entry.2.isFiltered = false) →
        (runFilters filters rollouts).map (fun entry => entry.2.isFiltered) =
          rollouts.map (fun entry => caught filters entry.2)) := by
  rw [runFilters]
  split
  · rename_i none
    refine ⟨rfl, fun clean => List.map_congr_left ?_⟩
    intro entry member
    rw [clean entry member, List.isEmpty_iff.mp none]
    rfl
  · rw [applyFilters, List.map_map, List.map_map]
    refine ⟨List.map_congr_left ?_, fun _ => List.map_congr_left ?_⟩
    · intro entry _
      have same := (detect_flag filters (clearAnnotations filters entry.2)).1
      exact congrArg (Prod.mk entry.1) same
    · intro entry _
      have flag := (detect_flag filters (clearAnnotations filters entry.2)).2
      rw [Function.comp_apply, flag, caught]
      cases filters.find? (fun filter => filter.check (clearAnnotations filters entry.2)) with
      | none => rfl
      | some filter => rfl

/-! ## Queueing -/

/-- The survivors that no pre-filter caught. -/
def Finalized.kept (finalized : Finalized Scalar) : List Nat :=
  (finalized.judged.filter (fun entry => !entry.2.isFiltered)).map Prod.fst

/-- Tokens of the rollouts at these places. -/
def tokensOf (fixed : List Fixed) (places : List Nat) : Nat :=
  (places.map (fun place => (fixed[place]?.map Fixed.numTotalTokens).getD 0)).sum

/-- Tokens that queueing these rollouts counts. -/
def countedTokens (config : Config Scalar) (fixed : List Fixed) (places : List Nat) : Nat :=
  match config.threshold with
  | .batchSize _ => 0
  | .tokenBatchSize _ => tokensOf fixed places

theorem counted_append (config : Config Scalar) (fixed : List Fixed) (places others : List Nat) :
    countedTokens config fixed (places ++ others) =
      countedTokens config fixed places + countedTokens config fixed others := by
  rw [countedTokens, countedTokens, countedTokens]
  cases config.threshold with
  | batchSize _ => rfl
  | tokenBatchSize _ =>
    simp only [tokensOf, List.map_append, List.sum_append]

/-- The queue has grown by some rollouts and the token count by theirs; windows
and groups are as before. -/
structure Queues (config : Config Scalar) (places kept : List Nat) (sink next : TrainSink Scalar) :
    Prop where
  touches : Touches places sink next
  window : next.pendingRollouts = sink.pendingRollouts
  groups : next.pendingGroups = sink.pendingGroups
  queue : next.pendingBatch = sink.pendingBatch ++ kept
  tokens : next.pendingTokens = sink.pendingTokens + countedTokens config sink.fixed kept

theorem queues_nothing (config : Config Scalar) (places : List Nat) {sink next : TrainSink Scalar}
    (touches : Touches places sink next) (window : next.pendingRollouts = sink.pendingRollouts)
    (groups : next.pendingGroups = sink.pendingGroups) (queue : next.pendingBatch = sink.pendingBatch)
    (tokens : next.pendingTokens = sink.pendingTokens) : Queues config places [] sink next where
  touches := touches
  window := window
  groups := groups
  queue := by rw [queue, List.append_nil]
  tokens := by
    have none : countedTokens config sink.fixed [] = 0 := by
      rw [countedTokens]
      cases config.threshold with
      | batchSize _ => rfl
      | tokenBatchSize _ => rfl
    rw [tokens, none]
    simp

theorem Queues.trans {config : Config Scalar} {places kept others : List Nat}
    {first second third : TrainSink Scalar} (earlier : Queues config places kept first second)
    (later : Queues config places others second third) :
    Queues config places (kept ++ others) first third where
  touches := earlier.touches.trans later.touches
  window := later.window.trans earlier.window
  groups := later.groups.trans earlier.groups
  queue := by rw [later.queue, earlier.queue, List.append_assoc]
  tokens := by
    rw [later.tokens, earlier.tokens, earlier.touches.fixed, counted_append, Nat.cast_add,
      Int.add_assoc]

theorem Queues.mono {config : Config Scalar} {places kept : List Nat}
    {sink next : TrainSink Scalar} (more : List Nat) (queues : Queues config places kept sink next)
    (inside : ∀ place ∈ places, place ∈ more) : Queues config more kept sink next :=
  { queues with touches := queues.touches.mono inside }

/-- Writing back changed rollouts queues nothing. -/
theorem write_queues (config : Config Scalar) (sink : TrainSink Scalar) (placed : List (Placed Scalar))
    (same : ∀ entry ∈ placed, sink.fixed[entry.1]? = some entry.2.fixed) :
    Queues config (placed.map Prod.fst) [] sink (sink.write placed) :=
  queues_nothing config _ (write_touches sink placed same) rfl rfl rfl rfl

theorem queue_survivor_queues (config : Config Scalar) (sink : TrainSink Scalar)
    (entry : Placed Scalar) (same : sink.fixed[entry.1]? = some entry.2.fixed) :
    Queues config [entry.1] (if entry.2.isFiltered then [] else [entry.1]) sink
      (queueSurvivor config sink entry) := by
  rw [queueSurvivor]
  split
  · exact queues_nothing config _ (touches_same _ rfl) rfl rfl rfl rfl
  · have touches := write_touches sink
      [(entry.1, { entry.2 with filterResults := [], isFiltered := false })] (by
        intro other member
        rw [List.mem_singleton.mp member]
        exact same)
    constructor
    · exact ⟨touches.fixed, touches.others⟩
    · rfl
    · rfl
    · rfl
    · simp only [countedTokens, tokensOf, List.map_singleton, List.sum_singleton, same,
        Option.map_some, Option.getD_some]
      cases config.threshold with
      | batchSize _ => exact (Int.add_zero _).symm
      | tokenBatchSize _ => rfl

theorem queue_survivors_queues (config : Config Scalar) (judged : List (Placed Scalar))
    (sink : TrainSink Scalar)
    (same : ∀ entry ∈ judged, sink.fixed[entry.1]? = some entry.2.fixed) :
    Queues config (judged.map Prod.fst)
      ((judged.filter (fun entry => !entry.2.isFiltered)).map Prod.fst) sink
      (judged.foldl (queueSurvivor config) sink) := by
  induction judged generalizing sink with
  | nil => exact queues_nothing config _ (touches_same _ rfl) rfl rfl rfl rfl
  | cons entry rest inductionHypothesis =>
    have first := queue_survivor_queues config sink entry (same entry List.mem_cons_self)
    have others := inductionHypothesis (queueSurvivor config sink entry) (by
      intro other member
      rw [first.touches.fixed]
      exact same other (List.mem_cons_of_mem entry member))
    have both := (first.mono ((entry :: rest).map Prod.fst) (by
      intro place member
      rw [List.mem_singleton.mp member]
      exact List.mem_cons_self)).trans (others.mono ((entry :: rest).map Prod.fst) (by
      intro place member
      exact List.mem_cons_of_mem entry.1 member))
    rw [List.foldl_cons]
    cases flag : entry.2.isFiltered with
    | true =>
      rw [flag] at both
      rw [List.filter_cons_of_neg (by simp [flag])]
      exact both
    | false =>
      rw [flag] at both
      rw [List.filter_cons_of_pos (by simp [flag])]
      exact both

/-- Queueing filters nothing, and a queued rollout is not filtered. -/
theorem queue_survivor_clean (config : Config Scalar) (sink : TrainSink Scalar)
    (entry : Placed Scalar) :
    (∀ place, sink.Clean place → (queueSurvivor config sink entry).Clean place) ∧
      (entry.2.isFiltered = false → (queueSurvivor config sink entry).Clean entry.1) := by
  rw [queueSurvivor]
  split
  · rename_i filtered
    exact ⟨fun _ clean => clean, fun passes => absurd filtered (by rw [passes]; exact Bool.false_ne_true)⟩
  · have written (place : Nat) (rollout : Rollout Scalar)
        (found : (sink.rollouts.set entry.1
          { entry.2 with filterResults := [], isFiltered := false })[place]? = some rollout) :
        rollout.isFiltered = false ∨ (place ≠ entry.1 ∧ sink.rollouts[place]? = some rollout) := by
      rw [List.getElem?_set] at found
      split at found
      · split at found
        · obtain rfl := Option.some.inj found
          exact Or.inl rfl
        · cases found
      · rename_i different
        exact Or.inr ⟨Ne.symm different, found⟩
    constructor
    · intro place clean rollout found
      rcases written place rollout found with isClean | ⟨-, before⟩
      · exact isClean
      · exact clean rollout before
    · intro _ rollout found
      rcases written entry.1 rollout found with isClean | ⟨different, -⟩
      · exact isClean
      · exact absurd rfl different

theorem queue_survivors_clean (config : Config Scalar) (judged : List (Placed Scalar))
    (sink : TrainSink Scalar) :
    (∀ place, sink.Clean place → (judged.foldl (queueSurvivor config) sink).Clean place) ∧
      ∀ place ∈ (judged.filter (fun entry => !entry.2.isFiltered)).map Prod.fst,
        (judged.foldl (queueSurvivor config) sink).Clean place := by
  induction judged generalizing sink with
  | nil => exact ⟨fun _ clean => clean, fun _ impossible => absurd impossible List.not_mem_nil⟩
  | cons entry rest inductionHypothesis =>
    obtain ⟨keeps, queued⟩ := queue_survivor_clean config sink entry
    obtain ⟨later, others⟩ := inductionHypothesis (queueSurvivor config sink entry)
    refine ⟨fun place clean => later place (keeps place clean), ?_⟩
    intro place member
    cases flag : entry.2.isFiltered with
    | true =>
      rw [List.filter_cons_of_neg (by simp [flag])] at member
      exact others place member
    | false =>
      rw [List.filter_cons_of_pos (by simp [flag])] at member
      rcases List.mem_cons.mp member with rfl | listed
      · exact later entry.1 (queued flag)
      · exact others place listed

/-! ## Finalizing -/

/-- The members that have no error and some sample. -/
def survivorsOf (fixed : List Fixed) (members : List Nat) : List Nat :=
  members.filter (fun place => fixed[place]?.any (fun entry => !entry.hasError && !entry.sampleless))

/-- The environment of a group is that of its first member. -/
def groupEnv (config : Config Scalar) (fixed : List Fixed) (members : List Nat) :
    Option (TrainEnv Scalar) :=
  (members.head?.bind (fun place => fixed[place]?)).bind (fun entry => config.trainEnvs entry.envName)

/-- The survivors of a group are judged unless the whole group is dropped, each by
the first filter that detects it. -/
structure Judged (config : Config Scalar) (fixed : List Fixed) (finalized : Finalized Scalar) :
    Prop where
  survivors : ∃ env, groupEnv config fixed finalized.members = some env ∧
    finalized.judged.map Prod.fst =
      if dropsGroup config env finalized.members.length
          (survivorsOf fixed finalized.members).length then []
      else survivorsOf fixed finalized.members
  verdicts : ∃ asked : List (Placed Scalar), asked.map core = finalized.judged.map core ∧
    finalized.judged.map (fun entry => entry.2.isFiltered) =
      asked.map (fun entry => caught config.preFilters entry.2)

theorem survivors_read (sink : TrainSink Scalar) (places : List Nat)
    (members : List (Placed Scalar)) (same : members.map core = (sink.read places).map core) :
    (members.filter (fun entry => survives entry.2)).map Prod.fst = survivorsOf sink.fixed places := by
  have usable (placed : List (Placed Scalar)) :
      (placed.filter (fun entry => survives entry.2)).map Prod.fst =
        ((placed.map core).filter (fun entry => !entry.2.hasError && !entry.2.sampleless)).map
          Prod.fst := by
    rw [List.filter_map, List.map_map]
    rfl
  rw [usable, same, ← usable]
  clear same usable
  induction places with
  | nil => rfl
  | cons place rest inductionHypothesis =>
    have read : sink.fixed[place]? = sink.rollouts[place]?.map Rollout.fixed := by
      rw [TrainSink.fixed, List.getElem?_map]
    cases found : sink.rollouts[place]? with
    | none =>
      rw [found] at read
      have skipped : sink.read (place :: rest) = sink.read rest := by
        rw [TrainSink.read, List.filterMap_cons, found]
        rfl
      have dropped : survivorsOf sink.fixed (place :: rest) = survivorsOf sink.fixed rest := by
        rw [survivorsOf, List.filter_cons_of_neg (by simp [read])]
        rfl
      rw [skipped, dropped, inductionHypothesis]
    | some rollout =>
      rw [found] at read
      have listed : sink.read (place :: rest) = (place, rollout) :: sink.read rest := by
        rw [TrainSink.read, List.filterMap_cons, found]
        rfl
      rw [listed]
      by_cases usable : survives rollout = true
      · have kept : survivorsOf sink.fixed (place :: rest) = place :: survivorsOf sink.fixed rest := by
          rw [survivorsOf, List.filter_cons_of_pos (by rw [read]; exact usable)]
          rfl
        rw [List.filter_cons_of_pos (by exact usable), List.map_cons, inductionHypothesis, kept]
      · have dropped : survivorsOf sink.fixed (place :: rest) = survivorsOf sink.fixed rest := by
          rw [survivorsOf, List.filter_cons_of_neg (by rw [read]; exact usable)]
          rfl
        rw [List.filter_cons_of_neg (by exact usable), inductionHypothesis, dropped]

theorem group_env_read {config : Config Scalar} {env : TrainEnv Scalar} (sink : TrainSink Scalar)
    (places : List Nat) {first : Placed Scalar} {rest : List (Placed Scalar)}
    (isRead : sink.read places = first :: rest)
    (isEnv : trainEnv config first.2.envName = .ok env)
    (placesRead : (sink.read places).map Prod.fst = places) :
    groupEnv config sink.fixed places = some env := by
  have head : places.head? = some first.1 := by
    rw [← placesRead, isRead]
    rfl
  have found := read_fixed sink places first (isRead ▸ List.mem_cons_self)
  rw [groupEnv, head, Option.bind_some, found, Option.bind_some]
  rw [trainEnv] at isEnv
  split at isEnv
  · rename_i known
    rw [← Except.ok.inj isEnv]
    exact known
  · cases isEnv

theorem score_survivors_unjudged (scores : Nat → Scores Scalar) (survivors : List (Placed Scalar)) :
    (scoreSurvivors scores survivors).map unjudged = survivors.map unjudged := by
  apply List.ext_getElem?
  intro position
  rw [scoreSurvivors, List.getElem?_map, List.getElem?_mapIdx, List.getElem?_map]
  cases survivors[position]? with
  | none => rfl
  | some entry =>
    simp only [Option.map_some, unjudged, core, score_fixed]
    rfl

theorem publish_survivors_queues [Zero Scalar] (config : Config Scalar) (places : List Nat)
    {sink next : TrainSink Scalar} {survivors : List (Placed Scalar)}
    (accepted : publishSurvivors config sink survivors = .ok next) :
    Queues config places [] sink next := by
  rw [publishSurvivors] at accepted
  split at accepted
  · cases accepted
  · obtain rfl := Except.ok.inj accepted
    exact queues_nothing config places (touches_same places rfl) rfl rfl rfl rfl

section Finalizing
variable [Zero Scalar] {config : Config Scalar}

theorem finalize_survivors_queues {sink next : TrainSink Scalar} {env : TrainEnv Scalar}
    {survivors judged : List (Placed Scalar)}
    (accepted : finalizeSurvivors config sink env survivors = .ok (next, judged))
    (same : ∀ entry ∈ survivors, sink.fixed[entry.1]? = some entry.2.fixed)
    (clean : ∀ entry ∈ survivors, entry.2.isFiltered = false) :
    judged.map core = survivors.map core ∧
      (∃ asked : List (Placed Scalar), asked.map core = judged.map core ∧
        judged.map (fun entry => entry.2.isFiltered) =
          asked.map (fun entry => caught config.preFilters entry.2)) ∧
      Queues config (survivors.map Prod.fst)
        ((judged.filter (fun entry => !entry.2.isFiltered)).map Prod.fst) sink next ∧
      ∀ place ∈ (judged.filter (fun entry => !entry.2.isFiltered)).map Prod.fst, next.Clean place := by
  rw [finalizeSurvivors] at accepted
  obtain ⟨conditioned, attached, accepted⟩ := Fallible.bind_ok accepted
  obtain ⟨scores, -, accepted⟩ := Fallible.bind_ok accepted
  obtain ⟨published, publishes, accepted⟩ := Fallible.bind_ok accepted
  obtain ⟨stamped, isStamped⟩ : ∃ stamped, stamped = (scoreSurvivors scores conditioned).map
    (fun entry => (entry.1, stampTemperature env.temperature entry.2)) := ⟨_, rfl⟩
  obtain ⟨isNext, isJudged⟩ := Prod.mk.inj (Except.ok.inj accepted)
  rw [← isStamped] at isNext isJudged
  rw [isJudged] at isNext
  have unjudgedSame : stamped.map unjudged = survivors.map unjudged := by
    rw [isStamped, List.map_map, ← attach_context_unjudged config env survivors conditioned attached,
      ← score_survivors_unjudged scores conditioned]
    refine List.map_congr_left (fun entry _ => ?_)
    simp only [Function.comp_apply, unjudged, core, stamp_temperature_fixed]
    rfl
  have coreSame := core_of_unjudged unjudgedSame
  have cleanStamped : ∀ entry ∈ stamped, entry.2.isFiltered = false := by
    intro entry member
    obtain ⟨original, listed, same⟩ := List.mem_map.mp
      (unjudgedSame ▸ List.mem_map_of_mem (f := unjudged) member)
    have flags : original.2.isFiltered = entry.2.isFiltered := congrArg Prod.snd same
    rw [← flags, clean original listed]
  obtain ⟨judgedCore, judgedFlags⟩ := run_filters_judge config.preFilters stamped
  rw [isJudged] at judgedCore judgedFlags
  have places := places_of_core (judgedCore.trans coreSame)
  have fixedJudged : ∀ entry ∈ judged, sink.fixed[entry.1]? = some entry.2.fixed := by
    intro entry member
    obtain ⟨original, listed, isCore⟩ := List.mem_map.mp
      ((judgedCore.trans coreSame) ▸ List.mem_map_of_mem (f := core) member)
    obtain ⟨samePlace, sameFixed⟩ := Prod.mk.inj isCore
    rw [← samePlace, ← sameFixed]
    exact same original listed
  refine ⟨judgedCore.trans coreSame, ⟨stamped, judgedCore.symm, judgedFlags cleanStamped⟩, ?_⟩
  have publishing := publish_survivors_queues config (survivors.map Prod.fst) publishes
  have writing := write_queues config published judged (by
    intro entry member
    rw [publishing.touches.fixed]
    exact fixedJudged entry member)
  have queueing := queue_survivors_queues config judged (published.write judged) (by
    intro entry member
    rw [writing.touches.fixed, publishing.touches.fixed]
    exact fixedJudged entry member)
  rw [places] at writing queueing
  rw [← isNext]
  exact ⟨publishing.trans (writing.trans queueing),
    (queue_survivors_clean config judged (published.write judged)).2⟩

/-- Finalizing a group appends what it keeps to the queue and takes the group off. -/
theorem process_group_queues {sink next : TrainSink Scalar} {groupId : Nat}
    {finalized : Finalized Scalar} {group : List Nat}
    (accepted : processGroup config sink groupId = .ok (next, finalized))
    (isGroup : sink.pendingGroups.get? groupId = some group) (nonempty : group ≠ [])
    (present : ∀ place ∈ group, place < sink.rollouts.length)
    (clean : ∀ place ∈ group, sink.Clean place) :
    finalized.groupId = groupId ∧ finalized.members = group ∧
      Judged config sink.fixed finalized ∧
      Queues config group finalized.kept
        { sink with pendingGroups := sink.pendingGroups.erase groupId } next ∧
      ∀ place ∈ finalized.kept, next.Clean place := by
  have placesRead := read_places sink group present
  simp only [processGroup, isGroup, Option.getD_some] at accepted
  split at accepted
  · rename_i empty
    rw [empty, List.map_nil] at placesRead
    exact absurd placesRead.symm nonempty
  rename_i first rest isRead
  rw [← isRead] at accepted
  obtain ⟨members, awaited, accepted⟩ := Fallible.bind_ok accepted
  obtain ⟨env, isEnv, accepted⟩ := Fallible.bind_ok accepted
  have unjudgedSame := await_scoring_unjudged config sink.scoringTasks _ members awaited
  have coreSame := core_of_unjudged unjudgedSame
  have survivorPlaces := survivors_read sink group members coreSame
  have countMembers : members.length = group.length := by
    have lengths := congrArg List.length coreSame
    rw [List.length_map, List.length_map] at lengths
    rw [lengths, ← List.length_map (f := Prod.fst), placesRead]
  have countSurvivors : (members.filter (fun entry => survives entry.2)).length =
      (survivorsOf sink.fixed group).length := by
    rw [← survivorPlaces, List.length_map]
  have isGroupEnv : groupEnv config sink.fixed group = some env :=
    group_env_read sink group isRead isEnv placesRead
  have fixedMembers : ∀ entry ∈ members, sink.fixed[entry.1]? = some entry.2.fixed := by
    refine core_fixed sink group members ?_
    rw [coreSame]
  have memberPlaces : members.map Prod.fst = group := by
    rw [← placesRead]
    exact places_of_core coreSame
  have awaiting : Queues config group []
      { sink with pendingGroups := sink.pendingGroups.erase groupId }
      { ({ sink with pendingGroups := sink.pendingGroups.erase groupId } : TrainSink Scalar).write
          members with
        scoringTasks := sink.scoringTasks.filter (fun place => decide (place ∉ group)) } := by
    have writing := write_queues config
      { sink with pendingGroups := sink.pendingGroups.erase groupId } members fixedMembers
    rw [memberPlaces] at writing
    exact writing.trans (queues_nothing config group (touches_same group rfl) rfl rfl rfl rfl)
  split at accepted
  · cases accepted
  split at accepted
  · rename_i dropped
    obtain ⟨rfl, rfl⟩ := Prod.mk.inj (Except.ok.inj accepted)
    refine ⟨rfl, rfl, ⟨⟨env, isGroupEnv, ?_⟩, ⟨[], rfl, rfl⟩⟩, awaiting, ?_⟩
    rw [countMembers, countSurvivors] at dropped
    · rw [if_pos dropped]
      rfl
    · exact fun place impossible => absurd impossible List.not_mem_nil
  · rename_i continues
    rw [countMembers, countSurvivors] at continues
    obtain ⟨⟨queued, judged⟩, finalizing, accepted⟩ := Fallible.bind_ok accepted
    obtain ⟨rfl, rfl⟩ := Prod.mk.inj (Except.ok.inj accepted)
    obtain ⟨judgedCore, verdicts, queueing, queuedClean⟩ := finalize_survivors_queues finalizing
      (by
        intro entry member
        rw [awaiting.touches.fixed]
        exact fixedMembers entry (List.mem_of_mem_filter member))
      (by
        intro entry member
        obtain ⟨original, listed, same⟩ := List.mem_map.mp
          (unjudgedSame ▸ List.mem_map_of_mem (f := unjudged) (List.mem_of_mem_filter member))
        obtain ⟨inGroup, found⟩ := (mem_read sink group original.1 original.2).mp listed
        have flags : original.2.isFiltered = entry.2.isFiltered := congrArg Prod.snd same
        rw [← flags]
        exact clean original.1 inGroup original.2 found)
    refine ⟨rfl, rfl, ⟨⟨env, isGroupEnv, ?_⟩, verdicts⟩, ?_, queuedClean⟩
    · rw [if_neg continues, ← survivorPlaces]
      exact places_of_core judgedCore
    · refine awaiting.trans (queueing.mono group ?_)
      intro place member
      rw [survivorPlaces, survivorsOf] at member
      exact List.mem_of_mem_filter member

end Finalizing

end PrimeRl.Orchestrator.Sink
