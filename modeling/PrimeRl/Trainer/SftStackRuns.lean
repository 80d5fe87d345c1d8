import PrimeRl.Trainer.SftStackBuckets

/-!
# Batches of a stacking dataset and its checkpoints

Every sample goes into one bucket and leaves it in one batch. A checkpoint is exact
unless it is taken at a yield: there the handed out bucket is still full, so a restored
iteration hands its rows out once more.
-/

namespace PrimeRl.Trainer.SftData.StackDataset

variable {dataset : StackDataset}

/-- What a batch is made of: the bucket it was, the samples and the number of dummy rows. -/
structure Stack where
  bucketIdx : Nat
  own : List Sample
  dummies : Nat

/-- The rows of a batch. -/
def Stack.items (stack : Stack) : List Sample :=
  stack.own ++ List.replicate stack.dummies dummySample

def Stack.width (dataset : StackDataset) (stack : Stack) : Nat :=
  dataset.sizes.getD stack.bucketIdx 0

/-- A batch fills the area and its samples fit into its rows. -/
structure Stack.Whole (dataset : StackDataset) (stack : Stack) : Prop where
  inside : stack.bucketIdx < dataset.sizes.length
  full : stack.own.length + stack.dummies = dataset.rows stack.bucketIdx
  narrow : Narrow (stack.width dataset) stack.own

theorem Stack.Whole.area {stack : Stack} (whole : stack.Whole dataset) :
    stack.items.length * stack.width dataset = dataset.maxArea := by
  rw [Stack.items, List.length_append, List.length_replicate, whole.full, Nat.mul_comm]
  exact dataset.sizes_rows whole.inside

/-- Items that fit give rows of one width. -/
theorem pack_rows {width : Nat} {items : List Sample} (narrow : Narrow width items) :
    (∀ row ∈ (packSamples width items).inputIds, row.length = width) ∧
    (∀ row ∈ (packSamples width items).targetIds, row.length = width) ∧
    (∀ row ∈ (packSamples width items).lossMask, row.length = width) ∧
    (∀ row ∈ (packSamples width items).positionIds, row.length = width) := by
  refine ⟨?_, ?_, ?_, ?_⟩ <;>
  · intro row member
    obtain ⟨item, listed, rfl⟩ := List.mem_map.mp member
    obtain ⟨within, fits⟩ := narrow item listed
    have := within.targetIds
    have := within.lossMask
    have := within.positionIds
    rw [List.length_append, List.length_replicate]
    omega

theorem Stack.Whole.items_narrow {stack : Stack} (whole : stack.Whole dataset) :
    Narrow (stack.width dataset) stack.items := by
  intro item member
  rcases List.mem_append.mp member with own | dummy
  · exact whole.narrow item own
  · rw [List.eq_of_mem_replicate dummy]
    exact ⟨⟨le_rfl, le_rfl, le_rfl⟩, dataset.sizes_pos whole.inside⟩

/-- Between two samples every bucket is short of the area. -/
def Kept (dataset : StackDataset) (iterator : StackIterator) : Prop :=
  dataset.Held dataset.sizes.length (settle iterator).buckets

theorem kept_init : dataset.Kept { state := dataset.init } := by
  refine ⟨List.length_replicate, ?_, ?_⟩
  · intro bucketIdx inside _
    simp [settle, init, inside, rows]
  · intro bucketIdx inside item member
    simp [settle, init, inside] at member

/-- The bucket of a sample, with the sample in it. -/
theorem append_held {iterator : StackIterator} (kept : dataset.Kept iterator) {sample : Sample}
    (within : sample.Within) :
    let bucketIdx := findBucketIdx dataset.sizes (dataset.truncate sample).inputIds.length
    let items := (settle iterator).bucket bucketIdx ++ [dataset.truncate sample]
    bucketIdx < dataset.sizes.length ∧ items.length ≤ dataset.rows bucketIdx ∧
      dataset.Held bucketIdx ((settle iterator).buckets.set bucketIdx items) ∧
      ((settle iterator).buckets.set bucketIdx items).getD bucketIdx [] = items ∧
      ((settle iterator).buckets.set bucketIdx items).flatten.Perm
        ((settle iterator).buckets.flatten ++ [dataset.truncate sample]) := by
  intro bucketIdx items
  obtain ⟨withinCut, bounded⟩ := dataset.truncate_within within
  obtain ⟨inside, fits⟩ := find_bucket dataset.sizes (dataset.truncate sample).inputIds.length
    dataset.sizes_ne (by rw [dataset.widest]; exact bounded)
  have short := kept.short bucketIdx inside (Nat.ne_of_lt inside)
  have here : bucketIdx < (settle iterator).buckets.length := kept.length ▸ inside
  refine ⟨inside, ?_, ?_, getD_set_self here, ?_⟩
  · rw [List.length_append, List.length_singleton]
    exact short
  · refine Held.set (Held.rest kept fun outside => absurd outside (Nat.lt_irrefl _)) _ inside ?_
    intro item member
    rcases List.mem_append.mp member with earlier | new
    · exact kept.narrow bucketIdx inside item earlier
    · rw [List.mem_singleton.mp new]
      exact ⟨withinCut, fits⟩
  · have moved := Buckets.set_perm (settle iterator).buckets bucketIdx items here
    have turned : ((settle iterator).buckets.flatten ++ items).Perm
        (((settle iterator).buckets.flatten ++ [dataset.truncate sample]) ++
          (settle iterator).buckets.getD bucketIdx []) := by
      rw [List.append_assoc]
      exact List.perm_append_comm.append_left _
    exact (List.perm_append_right_iff _).mp (moved.trans turned)

/-- Handing a bucket out takes its samples away. -/
theorem hand_out {bucketIdx : Nat} {buckets : List (List Sample)}
    (held : dataset.Held bucketIdx buckets) (inside : bucketIdx < dataset.sizes.length) :
    dataset.Held dataset.sizes.length (buckets.set bucketIdx []) ∧
      buckets.flatten.Perm
        (buckets.getD bucketIdx [] ++ (buckets.set bucketIdx []).flatten) := by
  have here : bucketIdx < buckets.length := held.length ▸ inside
  constructor
  · refine Held.rest (held.set [] inside (by simp [Narrow])) fun _ => ?_
    rw [getD_set_self here]
    exact Nat.two_pow_pos _
  · have moved := Buckets.set_perm buckets bucketIdx [] here
    rw [List.append_nil] at moved
    exact moved.symm.trans List.perm_append_comm

/-- What one sample does: it waits in its bucket, or a batch is handed out. -/
theorem pass_cases {iterator : StackIterator} (kept : dataset.Kept iterator) {sample : Sample}
    (within : sample.Within) :
    (∃ state, dataset.pass iterator sample = (⟨state, none⟩, none) ∧ dataset.Kept ⟨state, none⟩ ∧
      state.buckets.flatten.Perm
        ((settle iterator).buckets.flatten ++ [dataset.truncate sample])) ∨
    ∃ (state : StackState) (stack : Stack), dataset.pass iterator sample =
        (⟨state, some stack.bucketIdx⟩,
          some (packSamples (stack.width dataset) stack.items)) ∧
      stack.Whole dataset ∧ state.bucket stack.bucketIdx = stack.items ∧
      dataset.Kept ⟨state, some stack.bucketIdx⟩ ∧
      (stack.own ++ (settle ⟨state, some stack.bucketIdx⟩).buckets.flatten).Perm
        ((settle iterator).buckets.flatten ++ [dataset.truncate sample]) := by
  obtain ⟨inside, bounded, held, content, moved⟩ := append_held kept within
  obtain ⟨bucketIdx, isIdx⟩ : ∃ bucketIdx, bucketIdx =
    findBucketIdx dataset.sizes (dataset.truncate sample).inputIds.length := ⟨_, rfl⟩
  obtain ⟨placed, isPlaced⟩ : ∃ placed, placed = (settle iterator).setBucket bucketIdx
    ((settle iterator).bucket bucketIdx ++ [dataset.truncate sample]) := ⟨_, rfl⟩
  have buckets : placed.buckets = (settle iterator).buckets.set bucketIdx
      ((settle iterator).bucket bucketIdx ++ [dataset.truncate sample]) := by
    rw [isPlaced]
    rfl
  simp only [← isIdx, ← buckets] at inside held content moved bounded
  have bounded : (placed.bucket bucketIdx).length ≤ dataset.rows bucketIdx := by
    rw [StackState.bucket, content]
    exact bounded
  obtain ⟨hit, isHit⟩ : ∃ hit, hit = (placed.bucketTimers.getD bucketIdx none).any (fun timer =>
    decide (timer + stackingDatasetBucketTimeout < placed.step)) := ⟨_, rfl⟩
  unfold pass
  simp only [← isIdx, ← isPlaced, ← isHit]
  cases hit with
  | true =>
    right
    obtain ⟨merged, isMerged⟩ : ∃ merged, merged =
      placed.mergeUp dataset.sizes dataset.maxArea dataset.sizes.length bucketIdx := ⟨_, rfl⟩
    have merging := merge_up dataset.sizes.length held inside bounded
    simp only [← isMerged] at merging
    obtain ⟨heldMerged, insideMerged, boundedMerged, same⟩ := merging
    obtain ⟨heldLeft, given⟩ := hand_out heldMerged insideMerged
    have filled : fillUp (dataset.sizes.getD merged.1 0) dataset.maxArea dataset.maxArea
        (merged.2.bucket merged.1) = merged.2.bucket merged.1 ++ List.replicate
          (dataset.rows merged.1 - (merged.2.bucket merged.1).length) dummySample := by
      refine fill_up _ _ _ _ _ (dataset.sizes_rows insideMerged) (dataset.sizes_pos insideMerged)
        boundedMerged ?_
      have scale := dataset.sizes_rows insideMerged
      have wide := dataset.sizes_pos insideMerged
      have := Nat.le_mul_of_pos_left (dataset.rows merged.1) wide
      omega
    have here : merged.1 < merged.2.buckets.length := heldMerged.length ▸ insideMerged
    obtain ⟨items, isItems⟩ : ∃ items, items = merged.2.bucket merged.1 ++ List.replicate
      (dataset.rows merged.1 - (merged.2.bucket merged.1).length) dummySample := ⟨_, rfl⟩
    have left : (settle ⟨merged.2.setBucket merged.1 items, some merged.1⟩).buckets =
        merged.2.buckets.set merged.1 [] := List.set_set _
    refine ⟨merged.2.setBucket merged.1 items, ⟨merged.1, merged.2.bucket merged.1,
      dataset.rows merged.1 - (merged.2.bucket merged.1).length⟩, ?_, ?_, ?_, ?_, ?_⟩
    · simp only [Bool.or_true, if_true, ← isMerged, filled, Stack.width, Stack.items, ← isItems]
      congr 3
      exact getD_set_self here
    · exact ⟨insideMerged, Nat.add_sub_cancel' boundedMerged, heldMerged.narrow _ insideMerged⟩
    · rw [Stack.items, ← isItems]
      exact getD_set_self here
    · rw [Kept, left]
      exact heldLeft
    · rw [left]
      exact given.symm.trans (same.trans moved)
  | false =>
    by_cases full : dataset.maxArea ≤
        dataset.sizes.getD bucketIdx 0 * (placed.bucket bucketIdx).length
    · right
      have rows : (placed.bucket bucketIdx).length = dataset.rows bucketIdx := by
        have enough := mt (dataset.area_lt_iff inside _).mpr (Nat.not_lt.mpr full)
        omega
      obtain ⟨heldLeft, given⟩ := hand_out held inside
      refine ⟨placed, ⟨bucketIdx, placed.bucket bucketIdx, 0⟩, ?_, ?_, ?_, heldLeft, ?_⟩
      · simp only [decide_eq_true full, Bool.true_or, if_true, Bool.false_eq_true, if_false,
          Stack.width, Stack.items, List.replicate_zero, List.append_nil]
      · exact ⟨inside, rows, held.narrow _ inside⟩
      · simp [Stack.items]
      · exact given.symm.trans moved
    · left
      have few := (dataset.area_lt_iff inside _).mp (Nat.not_le.mp full)
      have same : (if (placed.bucketTimers.getD bucketIdx none).isNone then
          placed.setTimer bucketIdx (some placed.step) else placed).buckets = placed.buckets := by
        split <;> rfl
      refine ⟨if (placed.bucketTimers.getD bucketIdx none).isNone then
        placed.setTimer bucketIdx (some placed.step) else placed, ?_, ?_, ?_⟩
      · simp only [decide_eq_false full, Bool.false_or, Bool.false_eq_true, if_false]
      · rw [Kept, settle]
        simp only [same]
        exact Held.rest held fun _ => few
      · rw [same]
        exact moved

/-- Whatever is held as handed out is a batch that fills the area. -/
def Handed (dataset : StackDataset) (iterator : StackIterator) (batches : List PackedSamples) : Prop :=
  ∀ bucketIdx, iterator.yielded = some bucketIdx →
    ∃ stack : Stack, stack.Whole dataset ∧ stack.bucketIdx = bucketIdx ∧
      iterator.state.bucket bucketIdx = stack.items ∧
      batches.getLast? = some (packSamples (stack.width dataset) stack.items)

/-- The batches of a run, and where its samples are. -/
theorem iterate_stacks (samples : List Sample) {iterator : StackIterator}
    (kept : dataset.Kept iterator) (within : ∀ sample ∈ samples, sample.Within) :
    ∃ handed : List Stack,
      (dataset.iterate iterator samples).2 =
        handed.map (fun stack => packSamples (stack.width dataset) stack.items) ∧
      (∀ stack ∈ handed, stack.Whole dataset) ∧
      (handed.flatMap Stack.own ++
          (settle (dataset.iterate iterator samples).1).buckets.flatten).Perm
        ((settle iterator).buckets.flatten ++ samples.map dataset.truncate) ∧
      dataset.Kept (dataset.iterate iterator samples).1 := by
  induction samples generalizing iterator with
  | nil =>
    refine ⟨[], rfl, by simp, ?_, kept⟩
    simp [iterate]
  | cons sample samples inductionHypothesis =>
    obtain ⟨first, others⟩ := List.forall_mem_cons.mp within
    have turn : ∀ state : StackState, state.buckets.flatten.Perm
        ((settle iterator).buckets.flatten ++ [dataset.truncate sample]) →
        (state.buckets.flatten ++ samples.map dataset.truncate).Perm
          ((settle iterator).buckets.flatten ++ (sample :: samples).map dataset.truncate) := by
      intro state moved
      have longer := moved.append_right (samples.map dataset.truncate)
      rwa [List.append_assoc] at longer
    rcases pass_cases kept first with
      ⟨state, passes, keptAfter, moved⟩ | ⟨state, stack, passes, whole, _, keptAfter, moved⟩
    · obtain ⟨handed, batches, wholes, conserved, keptEnd⟩ := inductionHypothesis keptAfter others
      simp only [iterate, passes, Option.toList_none, List.nil_append]
      exact ⟨handed, batches, wholes, conserved.trans (turn state moved), keptEnd⟩
    · obtain ⟨handed, batches, wholes, conserved, keptEnd⟩ := inductionHypothesis keptAfter others
      simp only [iterate, passes, Option.toList_some]
      refine ⟨stack :: handed, by simp [batches], List.forall_mem_cons.mpr ⟨whole, wholes⟩, ?_,
        keptEnd⟩
      rw [List.flatMap_cons, List.append_assoc]
      refine (conserved.append_left stack.own).trans ?_
      rw [← List.append_assoc]
      have longer := moved.append_right (samples.map dataset.truncate)
      rwa [List.append_assoc _ [dataset.truncate sample]] at longer

theorem iterate_append (iterator : StackIterator) (before after : List Sample) :
    dataset.iterate iterator (before ++ after) =
      ((dataset.iterate (dataset.iterate iterator before).1 after).1,
        (dataset.iterate iterator before).2 ++
          (dataset.iterate (dataset.iterate iterator before).1 after).2) := by
  induction before generalizing iterator with
  | nil => rfl
  | cons sample before inductionHypothesis =>
    simp only [List.cons_append, iterate, inductionHypothesis, List.append_assoc]

/-- Where a run stands, what it handed out last is what it holds as handed out. -/
theorem iterate_handed (samples : List Sample) (within : ∀ sample ∈ samples, sample.Within) :
    dataset.Handed (dataset.iterate { state := dataset.init } samples).1
      (dataset.iterate { state := dataset.init } samples).2 := by
  rcases List.eq_nil_or_concat samples with rfl | ⟨before, sample, rfl⟩
  · intro bucketIdx impossible
    cases impossible
  · rw [List.concat_eq_append] at within ⊢
    have initial : dataset.Kept { state := dataset.init } := kept_init
    obtain ⟨_, _, _, _, kept⟩ := iterate_stacks before initial
      fun sample listed => within sample (List.mem_append_left _ listed)
    have last := within sample (by simp)
    rw [iterate_append]
    intro bucketIdx yielded
    rcases pass_cases kept last with
      ⟨state, passes, _⟩ | ⟨state, stack, passes, whole, content, _⟩
    · simp [iterate, passes] at yielded
    · simp only [iterate, passes, Option.some.injEq] at yielded
      refine ⟨stack, whole, yielded, ?_, ?_⟩
      · simp only [iterate, passes]
        rw [← yielded]
        exact content
      · simp [iterate, passes]

/-! ## Checkpoints -/

theorem fill_full {size maxArea : Nat} (fuel : Nat) {bucket : List Sample}
    (full : maxArea ≤ size * bucket.length) : fillUp size maxArea fuel bucket = bucket := by
  cases fuel with
  | zero => rfl
  | succ fuel => rw [fillUp, if_neg (Nat.not_lt.mpr full)]

/-- An iteration that goes on with a bucket as if it had not been handed out. -/
structure Restored (dataset : StackDataset) (stack : Stack) (iterator : StackIterator) : Prop where
  length : (settle iterator).buckets.length = dataset.sizes.length
  content : (settle iterator).bucket stack.bucketIdx = stack.items

theorem settle_bucket {iterator : StackIterator} {bucketIdx : Nat}
    (other : iterator.yielded ≠ some bucketIdx) :
    (settle iterator).bucket bucketIdx = iterator.state.bucket bucketIdx ∧
      (settle iterator).buckets.length = iterator.state.buckets.length := by
  unfold settle
  split
  · exact ⟨rfl, rfl⟩
  · rename_i yielded isYielded
    have different : yielded ≠ bucketIdx := fun same => other (same ▸ isYielded)
    exact ⟨getD_set_ne different, List.length_set⟩

theorem restored_intro {stack : Stack} {iterator : StackIterator}
    (other : iterator.yielded ≠ some stack.bucketIdx)
    (length : iterator.state.buckets.length = dataset.sizes.length)
    (content : iterator.state.bucket stack.bucketIdx = stack.items) :
    Restored dataset stack iterator := by
  obtain ⟨same, sameLength⟩ := settle_bucket other
  exact ⟨sameLength.trans length, same.trans content⟩

/-- A sample of another bucket leaves that bucket alone. -/
theorem pass_restored {stack : Stack} (whole : stack.Whole dataset) {iterator : StackIterator}
    (restored : Restored dataset stack iterator) {sample : Sample}
    (other : findBucketIdx dataset.sizes (dataset.truncate sample).inputIds.length ≠
      stack.bucketIdx) :
    Restored dataset stack (dataset.pass iterator sample).1 := by
  obtain ⟨bucketIdx, isIdx⟩ : ∃ bucketIdx, bucketIdx =
    findBucketIdx dataset.sizes (dataset.truncate sample).inputIds.length := ⟨_, rfl⟩
  obtain ⟨placed, isPlaced⟩ : ∃ placed, placed = (settle iterator).setBucket bucketIdx
    ((settle iterator).bucket bucketIdx ++ [dataset.truncate sample]) := ⟨_, rfl⟩
  rw [← isIdx] at other
  have length : placed.buckets.length = dataset.sizes.length := by
    rw [isPlaced]
    exact List.length_set.trans restored.length
  have content : placed.bucket stack.bucketIdx = stack.items := by
    rw [isPlaced]
    exact (getD_set_ne other).trans restored.content
  obtain ⟨hit, isHit⟩ : ∃ hit, hit = (placed.bucketTimers.getD bucketIdx none).any (fun timer =>
    decide (timer + stackingDatasetBucketTimeout < placed.step)) := ⟨_, rfl⟩
  unfold pass
  simp only [← isIdx, ← isPlaced, ← isHit]
  split
  · cases hit with
    | true =>
      have full : dataset.maxArea ≤
          dataset.sizes.getD stack.bucketIdx 0 * (placed.bucket stack.bucketIdx).length := by
        have area := whole.area
        rw [Nat.mul_comm] at area
        rw [content]
        exact area.ge
      obtain ⟨otherMerged, same, sameLength⟩ := merge_up_frame dataset.sizes.length full other
      refine restored_intro (fun handed => otherMerged (Option.some.inj handed)) ?_ ?_
      · exact List.length_set.trans (sameLength.trans length)
      · exact (getD_set_ne otherMerged).trans (same.trans content)
    | false => exact restored_intro (fun handed => other (Option.some.inj handed)) length content
  · refine restored_intro (Option.some_ne_none _).symm ?_ ?_
    · dsimp only
      split
      · exact length
      · exact length
    · dsimp only
      split
      · exact content
      · exact content

theorem iterate_restored {stack : Stack} (whole : stack.Whole dataset) {iterator : StackIterator}
    (restored : Restored dataset stack iterator) (samples : List Sample)
    (others : ∀ sample ∈ samples,
      findBucketIdx dataset.sizes (dataset.truncate sample).inputIds.length ≠ stack.bucketIdx) :
    Restored dataset stack (dataset.iterate iterator samples).1 := by
  induction samples generalizing iterator with
  | nil => exact restored
  | cons sample samples inductionHypothesis =>
    obtain ⟨other, rest⟩ := List.forall_mem_cons.mp others
    exact inductionHypothesis (pass_restored whole restored other) rest

/-- A restored iteration hands the rows of the last batch out again, in a batch that does not
fit the area, with the first sample of the same bucket. -/
theorem pass_repeats {stack : Stack} (whole : stack.Whole dataset) {iterator : StackIterator}
    (restored : Restored dataset stack iterator) (sample : Sample)
    (same : findBucketIdx dataset.sizes (dataset.truncate sample).inputIds.length =
      stack.bucketIdx) :
    (dataset.pass iterator sample).2 =
      some (packSamples (stack.width dataset) (stack.items ++ [dataset.truncate sample])) := by
  obtain ⟨length, content⟩ := restored
  have here : stack.bucketIdx < (settle iterator).buckets.length := length ▸ whole.inside
  obtain ⟨placed, isPlaced⟩ : ∃ placed, placed = (settle iterator).setBucket stack.bucketIdx
    (stack.items ++ [dataset.truncate sample]) := ⟨_, rfl⟩
  have placedContent : placed.bucket stack.bucketIdx = stack.items ++ [dataset.truncate sample] := by
    rw [isPlaced]
    exact getD_set_self here
  have rows : (placed.bucket stack.bucketIdx).length = dataset.rows stack.bucketIdx + 1 := by
    rw [placedContent, List.length_append, Stack.items, List.length_append, List.length_replicate,
      whole.full, List.length_singleton]
  have scale := dataset.sizes_rows whole.inside
  have full : dataset.maxArea ≤
      dataset.sizes.getD stack.bucketIdx 0 * (placed.bucket stack.bucketIdx).length := by
    rw [rows, Nat.mul_succ]
    omega
  have placedLength : placed.buckets.length = dataset.sizes.length := by
    rw [isPlaced, StackState.setBucket, List.length_set, length]
  have stays : ∀ fuel, placed.mergeUp dataset.sizes dataset.maxArea fuel stack.bucketIdx =
      (stack.bucketIdx, placed) := by
    intro fuel
    cases fuel with
    | zero => rfl
    | succ fuel =>
      rw [StackState.mergeUp, if_neg]
      rintro ⟨upper, small⟩
      have next : stack.bucketIdx + 1 < dataset.sizes.length := by
        rw [placedLength] at upper
        omega
      have wider := Nat.mul_le_mul_right (placed.bucket stack.bucketIdx).length
        (dataset.sizes_le_next next)
      rw [Nat.mul_add] at small
      omega
  unfold pass
  simp only [same, content, ← isPlaced]
  rw [if_pos (by rw [decide_eq_true full, Bool.true_or])]
  simp only [Option.some.injEq]
  split
  · rw [stays]
    simp only [Stack.width, fill_full _ full]
    rw [← placedContent]
    congr 1
    exact getD_set_self (placedLength ▸ whole.inside)
  · rw [placedContent]
    rfl

/-- Every bucket has a sample that fills one of its rows. -/
theorem sample_of_bucket {stack : Stack} (whole : stack.Whole dataset) :
    ∃ sample : Sample, sample.Even ∧ dataset.truncate sample = sample ∧
      sample.inputIds.length = stack.width dataset ∧
      findBucketIdx dataset.sizes sample.inputIds.length = stack.bucketIdx := by
  obtain ⟨width, isWidth⟩ : ∃ width, width = stack.width dataset := ⟨_, rfl⟩
  obtain ⟨sample, isSample⟩ : ∃ sample : Sample, sample = ⟨List.replicate width 1,
    List.replicate width 1, List.replicate width true, List.replicate width 1⟩ := ⟨_, rfl⟩
  have long : sample.inputIds.length = width := by rw [isSample, List.length_replicate]
  have narrow : width ≤ dataset.maxArea := by
    rw [isWidth, ← dataset.sizes_rows whole.inside]
    exact Nat.le_mul_of_pos_right _ (Nat.two_pow_pos _)
  refine ⟨sample, ?_, ?_, long.trans isWidth, ?_⟩
  · rw [isSample]
    exact ⟨by simp, by simp, by simp⟩
  · rw [truncate, if_neg (by omega)]
  · rw [long, isWidth]
    exact find_own_width _ _ whole.inside dataset.sizes_increasing

/-- A batch with one more row than it has room for is no batch that fills the area. -/
theorem repeated_differs {stack other : Stack} (whole : stack.Whole dataset)
    (otherWhole : other.Whole dataset) {added : Sample} (within : added.Within)
    (fits : added.inputIds.length ≤ stack.width dataset) :
    packSamples (stack.width dataset) (stack.items ++ [added]) ≠
      packSamples (other.width dataset) other.items := by
  intro equal
  have inputs := congrArg PackedSamples.inputIds equal
  have narrow : Narrow (stack.width dataset) (stack.items ++ [added]) := by
    intro item member
    rcases List.mem_append.mp member with earlier | new
    · exact whole.items_narrow item earlier
    · rw [List.mem_singleton.mp new]
      exact ⟨within, fits⟩
  have counts := congrArg List.length inputs
  simp only [packSamples, List.length_map, List.length_append, List.length_singleton] at counts
  have widths : stack.width dataset = other.width dataset := by
    obtain ⟨row, member⟩ := List.exists_mem_of_length_pos
      (l := (packSamples (other.width dataset) other.items).inputIds) (by
        rw [packSamples, List.length_map, ← counts]
        exact Nat.succ_pos _)
    rw [← (pack_rows otherWhole.items_narrow).1 row member]
    exact ((pack_rows narrow).1 row (inputs ▸ member)).symm
  have area := whole.area
  have otherArea := otherWhole.area
  rw [← counts, ← widths, Nat.succ_mul, area] at otherArea
  have wide : 0 < stack.width dataset := dataset.sizes_pos whole.inside
  omega

/-- A checkpoint at a yield holds the batch that was handed out. Behind samples of other buckets
the first one of its bucket brings it out again. -/
theorem checkpoint_repeats (samples : List Sample) (within : ∀ sample ∈ samples, sample.Within)
    {bucketIdx : Nat}
    (yielded : (dataset.iterate { state := dataset.init } samples).1.yielded = some bucketIdx) :
    ∃ stack : Stack, stack.Whole dataset ∧ stack.bucketIdx = bucketIdx ∧
      (dataset.iterate { state := dataset.init } samples).2.getLast? =
        some (packSamples (stack.width dataset) stack.items) ∧
      ∀ others, (∀ sample ∈ others,
        findBucketIdx dataset.sizes (dataset.truncate sample).inputIds.length ≠ bucketIdx) →
      ∀ sample,
        findBucketIdx dataset.sizes (dataset.truncate sample).inputIds.length = bucketIdx →
        (dataset.pass (dataset.iterate
          (load (save (dataset.iterate { state := dataset.init } samples).1)) others).1 sample).2 =
            some (packSamples (stack.width dataset) (stack.items ++ [dataset.truncate sample])) := by
  have initial : dataset.Kept { state := dataset.init } := kept_init
  obtain ⟨_, _, _, _, kept⟩ := iterate_stacks samples initial within
  obtain ⟨stack, whole, rfl, content, last⟩ := iterate_handed samples within _ yielded
  have length := kept.length
  rw [settle, yielded] at length
  simp only [StackState.setTimer, StackState.setBucket, List.length_set] at length
  refine ⟨stack, whole, rfl, last, fun others otherBuckets sample same => ?_⟩
  have restored : Restored dataset stack (load (save
      (dataset.iterate { state := dataset.init } samples).1)) :=
    restored_intro (Option.some_ne_none _).symm length content
  exact pass_repeats whole (iterate_restored whole restored others otherBuckets) sample same

theorem load_save {iterator : StackIterator} (rest : iterator.yielded = none) :
    load (save iterator) = iterator := by
  cases iterator
  cases rest
  rfl

/-- Every batch of a run fills the area with rows of one width. Its rows are samples that fit and
dummy rows that count for nothing. The samples of all batches and those that wait in the buckets are
together the samples of the stream, each once. -/
theorem stack_batches_exact (dataset : StackDataset) (samples : List Sample)
    (within : ∀ sample ∈ samples, sample.Within) :
    let run := dataset.iterate { state := dataset.init } samples
    (∀ batch ∈ run.2, ∃ width, batch.inputIds.length * width = dataset.maxArea ∧
      (∀ row ∈ batch.inputIds, row.length = width) ∧ (∀ row ∈ batch.targetIds, row.length = width) ∧
      (∀ row ∈ batch.lossMask, row.length = width) ∧
      ∀ row ∈ batch.positionIds, row.length = width) ∧
    ∃ handed : List Stack,
      run.2 = handed.map (fun stack => packSamples (stack.width dataset)
        (stack.own ++ List.replicate stack.dummies dummySample)) ∧
      (handed.flatMap Stack.own ++ (settle run.1).buckets.flatten).Perm
        (samples.map dataset.truncate) := by
  intro run
  have initial : dataset.Kept { state := dataset.init } := kept_init
  obtain ⟨handed, batches, wholes, conserved, _⟩ := iterate_stacks samples initial within
  refine ⟨fun batch listed => ?_, handed, batches, ?_⟩
  · rw [show run.2 = _ from batches] at listed
    obtain ⟨stack, member, rfl⟩ := List.mem_map.mp listed
    have whole := wholes stack member
    obtain ⟨inputs, targets, masks, positions⟩ := pack_rows whole.items_narrow
    refine ⟨stack.width dataset, ?_, inputs, targets, masks, positions⟩
    rw [packSamples, List.length_map]
    exact whole.area
  · have empty : (settle { state := dataset.init }).buckets.flatten = [] := by
      simp [settle, init]
    rw [empty, List.nil_append] at conserved
    exact conserved

def twoBuckets : StackDataset := ⟨512, by decide, by decide⟩

def shortSample : Sample := ⟨[7], [8], [true], [0]⟩

/-- A sample with input ids beyond its mask and positions. -/
def looseSample : Sample := ⟨[7, 8], [8, 9], [true], [0]⟩

theorem short_samples_within : ∀ sample ∈ [shortSample, looseSample], sample.Within := by
  intro sample listed
  simp only [List.mem_cons, List.not_mem_nil, or_false] at listed
  rcases listed with rfl | rfl
  · exact ⟨by decide, by decide, by decide⟩
  · exact ⟨by decide, by decide, by decide⟩

/-- Two short samples fill the narrower one of two buckets. -/
theorem stack_batches_exact_two_samples :
    (twoBuckets.iterate { state := twoBuckets.init } [shortSample, looseSample]).2.length = 1 ∧
      ∀ batch ∈ (twoBuckets.iterate { state := twoBuckets.init } [shortSample, looseSample]).2,
        ∃ width, batch.inputIds.length * width = 512 ∧ ∀ row ∈ batch.lossMask, row.length = width := by
  refine ⟨by decide +kernel, fun batch listed => ?_⟩
  obtain ⟨width, area, _, _, masks, _⟩ := (stack_batches_exact twoBuckets
    [shortSample, looseSample] short_samples_within).1 batch listed
  exact ⟨width, area, masks⟩

/-- When a checkpoint restores a run exactly: at no yield. A checkpoint at a yield still holds the
rows of the batch that was handed out. Whatever samples of other buckets come before it, the first
sample of that bucket brings them all out again, in a batch that is larger than the area by one
row. -/
theorem stack_checkpoint_exact_iff (dataset : StackDataset) (samples : List Sample)
    (within : ∀ sample ∈ samples, sample.Within) :
    let run := dataset.iterate { state := dataset.init } samples
    ((∀ later, (∀ sample ∈ later, sample.Even) →
      (dataset.iterate (load (save run.1)) later).2 = (dataset.iterate run.1 later).2) ↔
        run.1.yielded = none) ∧
    ∀ bucketIdx, run.1.yielded = some bucketIdx →
      ∃ stack : Stack, stack.Whole dataset ∧ stack.bucketIdx = bucketIdx ∧
        run.2.getLast? = some (packSamples (stack.width dataset) stack.items) ∧
        ∀ others, (∀ sample ∈ others,
          findBucketIdx dataset.sizes (dataset.truncate sample).inputIds.length ≠ bucketIdx) →
        ∀ sample,
          findBucketIdx dataset.sizes (dataset.truncate sample).inputIds.length = bucketIdx →
          (dataset.pass (dataset.iterate (load (save run.1)) others).1 sample).2 = some
            (packSamples (stack.width dataset) (stack.items ++ [dataset.truncate sample])) := by
  intro run
  refine ⟨⟨fun resumes => ?_, fun rest later _ => ?_⟩,
    fun bucketIdx yielded => checkpoint_repeats samples within yielded⟩
  · cases yielded : run.1.yielded with
    | none => rfl
    | some bucketIdx =>
      exfalso
      obtain ⟨stack, whole, rfl, _, again⟩ := checkpoint_repeats samples within yielded
      obtain ⟨sample, even, uncut, wide, same⟩ := sample_of_bucket whole
      have equal := resumes [sample] (by simpa using even)
      have once : (dataset.pass (load (save run.1)) sample).2 =
          some (packSamples (stack.width dataset) (stack.items ++ [sample])) := by
        have first := again [] (by simp) sample (by rw [uncut, same])
        rwa [iterate, uncut] at first
      simp only [iterate, once, Option.toList_some, List.append_nil] at equal
      have initial : dataset.Kept { state := dataset.init } := kept_init
      obtain ⟨_, _, _, _, kept⟩ := iterate_stacks samples initial within
      rcases pass_cases kept even.within with
        ⟨_, passes, _⟩ | ⟨_, other, passes, otherWhole, _⟩
      · rw [passes] at equal
        simp at equal
      · rw [passes, Option.toList_some, List.cons.injEq] at equal
        exact repeated_differs whole otherWhole even.within wide.le equal.1
  · rw [load_save rest]

/-- A sample of the wider bucket. -/
def wideSample : Sample :=
  ⟨List.replicate 300 7, List.replicate 300 8, List.replicate 300 true, List.range 300⟩

/-- A checkpoint taken where two short samples have been handed out. Behind a wide one, the next
short sample comes in a batch of three rows. -/
theorem stack_checkpoint_exact_iff_two_samples :
    let run := twoBuckets.iterate { state := twoBuckets.init } [shortSample, looseSample]
    (¬∀ later, (∀ sample ∈ later, sample.Even) →
      (twoBuckets.iterate (load (save run.1)) later).2 = (twoBuckets.iterate run.1 later).2) ∧
    run.2.map (fun batch => batch.inputIds.length) = [2] ∧
    ∃ batch, (twoBuckets.pass (twoBuckets.iterate (load (save run.1)) [wideSample]).1
      shortSample).2 = some batch ∧ batch.inputIds.length = 3 := by
  intro run
  obtain ⟨resumes, repeats⟩ :=
    stack_checkpoint_exact_iff twoBuckets [shortSample, looseSample] short_samples_within
  have rows : run.2.map (fun batch => batch.inputIds.length) = [2] := by decide +kernel
  refine ⟨?_, rows, ?_⟩
  · rw [resumes]
    decide +kernel
  · obtain ⟨stack, _, _, last, again⟩ := repeats 0 (by decide +kernel)
    refine ⟨_, again [wideSample] ?_ shortSample (by decide +kernel), ?_⟩
    · intro sample listed
      rw [List.mem_singleton.mp listed]
      decide +kernel
    · have lastRows := congrArg (Option.map (fun batch => batch.inputIds.length)) last
      rw [← List.getLast?_map, rows] at lastRows
      have two : 2 = stack.items.length :=
        (Option.some.inj lastRows).trans (List.length_map _)
      rw [packSamples, List.length_map, List.length_append, List.length_singleton, ← two]

end PrimeRl.Trainer.SftData.StackDataset
