import Mathlib.Algebra.Ring.Int.Defs
import Mathlib.Algebra.Ring.Nat
import Mathlib.Data.List.GetD
import PrimeRl.Support.Buckets
import PrimeRl.Trainer.SftStack

/-!
# The buckets of a stacking dataset

The widths double from bucket to bucket, so a bucket that fills the area has a whole
number of rows. Merging upwards and filling up keep every other bucket short of that
and move samples into wider buckets only.
-/

namespace PrimeRl.Trainer.SftData

/-- No key of a sample has values beyond its input ids. -/
structure Sample.Within (sample : Sample) : Prop where
  targetIds : sample.targetIds.length ≤ sample.inputIds.length
  lossMask : sample.lossMask.length ≤ sample.inputIds.length
  positionIds : sample.positionIds.length ≤ sample.inputIds.length

/-- All keys of a sample have values for the same tokens. -/
structure Sample.Even (sample : Sample) : Prop where
  targetIds : sample.targetIds.length = sample.inputIds.length
  lossMask : sample.lossMask.length = sample.inputIds.length
  positionIds : sample.positionIds.length = sample.inputIds.length

theorem Sample.Even.within {sample : Sample} (even : sample.Even) : sample.Within :=
  ⟨even.targetIds.le, even.lossMask.le, even.positionIds.le⟩

/-! ## Widths -/

theorem halves_scale (fuel maxArea index : Nat) (inside : index < (halves fuel maxArea).length) :
    (halves fuel maxArea).getD index 0 * 2 ^ ((halves fuel maxArea).length - 1 - index) = maxArea := by
  induction fuel generalizing maxArea index with
  | zero => simp [halves] at inside
  | succ fuel inductionHypothesis =>
    unfold halves at inside ⊢
    split at inside
    · rename_i divides
      rw [if_pos divides]
      rw [List.length_append, List.length_singleton] at inside ⊢
      by_cases last : index = (halves fuel (maxArea / 2)).length
      · rw [List.getD_append_right _ _ _ _ last.ge, last]
        simp
      · have earlier : index < (halves fuel (maxArea / 2)).length := by omega
        have exponent : (halves fuel (maxArea / 2)).length + 1 - 1 - index =
            (halves fuel (maxArea / 2)).length - 1 - index + 1 := by omega
        rw [List.getD_append _ _ _ _ earlier, exponent, Nat.pow_succ, ← Nat.mul_assoc,
          inductionHypothesis _ _ earlier]
        omega
    · simp at inside

theorem halves_increasing (fuel maxArea : Nat) (positive : 0 < maxArea) :
    (halves fuel maxArea).Pairwise (· < ·) ∧ ∀ size ∈ halves fuel maxArea, size ≤ maxArea := by
  induction fuel generalizing maxArea with
  | zero => exact ⟨List.Pairwise.nil, by simp [halves]⟩
  | succ fuel inductionHypothesis =>
    unfold halves
    split
    · obtain ⟨increasing, bounded⟩ := inductionHypothesis (maxArea / 2) (by omega)
      refine ⟨List.pairwise_append.mpr ⟨increasing, List.pairwise_singleton _ _, ?_⟩, ?_⟩
      · intro smaller member size last
        rw [List.mem_singleton.mp last]
        have := bounded smaller member
        omega
      · intro size member
        rcases List.mem_append.mp member with earlier | last
        · have := bounded size earlier
          omega
        · exact (List.mem_singleton.mp last).le
    · exact ⟨List.Pairwise.nil, by simp⟩

theorem find_bucket (sizes : List Nat) (lenSample : Nat) (some_ : sizes ≠ [])
    (fits : lenSample ≤ sizes.getD (sizes.length - 1) 0) :
    findBucketIdx sizes lenSample < sizes.length ∧
      lenSample ≤ sizes.getD (findBucketIdx sizes lenSample) 0 := by
  induction sizes with
  | nil => exact absurd rfl some_
  | cons size rest inductionHypothesis =>
    cases rest with
    | nil => exact ⟨Nat.one_pos, fits⟩
    | cons next rest =>
      unfold findBucketIdx
      split
      · obtain ⟨inside, wide⟩ := inductionHypothesis (List.cons_ne_nil _ _) (by simpa using fits)
        exact ⟨Nat.succ_lt_succ inside, by simpa using wide⟩
      · rename_i narrow
        exact ⟨Nat.succ_pos _, by simpa using narrow⟩

theorem find_own_width (sizes : List Nat) (index : Nat) (inside : index < sizes.length)
    (increasing : sizes.Pairwise (· < ·)) : findBucketIdx sizes (sizes.getD index 0) = index := by
  induction sizes generalizing index with
  | nil => simp at inside
  | cons size rest inductionHypothesis =>
    obtain ⟨above, later⟩ := List.pairwise_cons.mp increasing
    cases rest with
    | nil =>
      have : index = 0 := by simpa using inside
      subst this
      rfl
    | cons next rest =>
      cases index with
      | zero => simp [findBucketIdx]
      | succ index =>
        have listed : index < (next :: rest).length := by simpa using inside
        have wider : size < (next :: rest).getD index 0 := by
          rw [List.getD_eq_getElem _ _ listed]
          exact above _ (List.getElem_mem listed)
        rw [List.getD_cons_succ, findBucketIdx, if_pos wider, inductionHypothesis index listed later]

namespace StackDataset

variable (dataset : StackDataset)

theorem sizes_ne : dataset.sizes ≠ [] := by
  have one : dataset.maxArea = (dataset.maxArea - 1) + 1 := by
    have := dataset.positive
    omega
  unfold sizes bucketSizes
  rw [one, halves, ← one, if_pos dataset.whole]
  simp

/-- Rows of a bucket that fills the area. -/
def rows (bucketIdx : Nat) : Nat := 2 ^ (dataset.sizes.length - 1 - bucketIdx)

theorem sizes_rows {bucketIdx : Nat} (inside : bucketIdx < dataset.sizes.length) :
    dataset.sizes.getD bucketIdx 0 * dataset.rows bucketIdx = dataset.maxArea :=
  halves_scale _ _ _ inside

theorem sizes_pos {bucketIdx : Nat} (inside : bucketIdx < dataset.sizes.length) :
    0 < dataset.sizes.getD bucketIdx 0 := by
  have scale := dataset.sizes_rows inside
  have positive := dataset.positive
  exact Nat.pos_of_mul_pos_right (scale ▸ positive)

theorem sizes_increasing : dataset.sizes.Pairwise (· < ·) :=
  (halves_increasing _ _ dataset.positive).1

theorem widest : dataset.sizes.getD (dataset.sizes.length - 1) 0 = dataset.maxArea := by
  have some_ := List.length_pos_iff.mpr dataset.sizes_ne
  have scale := dataset.sizes_rows (Nat.sub_lt some_ Nat.one_pos)
  rwa [rows, Nat.sub_self, Nat.pow_zero, Nat.mul_one] at scale

theorem area_lt_iff {bucketIdx : Nat} (inside : bucketIdx < dataset.sizes.length) (count : Nat) :
    dataset.sizes.getD bucketIdx 0 * count < dataset.maxArea ↔ count < dataset.rows bucketIdx := by
  rw [← dataset.sizes_rows inside]
  exact Nat.mul_lt_mul_left (dataset.sizes_pos inside)

theorem sizes_le_next {bucketIdx : Nat} (inside : bucketIdx + 1 < dataset.sizes.length) :
    dataset.sizes.getD bucketIdx 0 ≤ dataset.sizes.getD (bucketIdx + 1) 0 := by
  have here : bucketIdx < dataset.sizes.length := by omega
  rw [List.getD_eq_getElem _ _ here, List.getD_eq_getElem _ _ inside]
  exact (List.pairwise_iff_getElem.mp dataset.sizes_increasing _ _ here inside
    (Nat.lt_succ_self _)).le

/-! ## Truncated samples -/

theorem truncate_within {sample : Sample} (within : sample.Within) :
    (dataset.truncate sample).Within ∧
      (dataset.truncate sample).inputIds.length ≤ dataset.maxArea := by
  unfold truncate
  split
  · refine ⟨⟨?_, ?_, ?_⟩, List.length_take_le _ _⟩ <;>
      simp only [Sample.truncate, List.length_take]
    · exact min_le_min_left _ within.targetIds
    · exact min_le_min_left _ within.lossMask
    · exact min_le_min_left _ within.positionIds
  · exact ⟨within, by omega⟩

/-! ## What a bucket holds -/

/-- Items that fit into rows of a width. -/
def Narrow (width : Nat) (items : List Sample) : Prop :=
  ∀ item ∈ items, item.Within ∧ item.inputIds.length ≤ width

/-- Every bucket but one is short of the area, and each holds what fits into its rows. -/
structure Held (busy : Nat) (buckets : List (List Sample)) : Prop where
  length : buckets.length = dataset.sizes.length
  short : ∀ bucketIdx < dataset.sizes.length, bucketIdx ≠ busy →
    (buckets.getD bucketIdx []).length < dataset.rows bucketIdx
  narrow : ∀ bucketIdx < dataset.sizes.length,
    Narrow (dataset.sizes.getD bucketIdx 0) (buckets.getD bucketIdx [])

variable {dataset}

theorem getD_set_self {Value : Type} {items : List Value} {index : Nat} {value other : Value}
    (inside : index < items.length) : (items.set index value).getD index other = value := by
  rw [List.getD_eq_getElem?_getD, List.getElem?_set_self inside, Option.getD_some]

theorem getD_set_ne {Value : Type} {items : List Value} {index place : Nat} {value other : Value}
    (different : index ≠ place) : (items.set index value).getD place other = items.getD place other := by
  rw [List.getD_eq_getElem?_getD, List.getElem?_set_ne different, List.getD_eq_getElem?_getD]

/-- Another content of the busy bucket. -/
theorem Held.set {busy : Nat} {buckets : List (List Sample)} (held : dataset.Held busy buckets)
    (items : List Sample) (inside : busy < dataset.sizes.length)
    (fits : Narrow (dataset.sizes.getD busy 0) items) :
    dataset.Held busy (buckets.set busy items) where
  length := by rw [List.length_set, held.length]
  short := by
    intro bucketIdx present other
    rw [getD_set_ne (Ne.symm other)]
    exact held.short bucketIdx present other
  narrow := by
    intro bucketIdx present
    by_cases same : busy = bucketIdx
    · subst same
      rwa [getD_set_self (held.length ▸ inside)]
    · rw [getD_set_ne same]
      exact held.narrow bucketIdx present

/-- A bucket that is short may become the busy one. -/
theorem Held.rest {busy other : Nat} {buckets : List (List Sample)}
    (held : dataset.Held busy buckets)
    (short : busy < dataset.sizes.length → (buckets.getD busy []).length < dataset.rows busy) :
    dataset.Held other buckets where
  length := held.length
  short := by
    intro bucketIdx present _
    by_cases same : bucketIdx = busy
    · subst same
      exact short present
    · exact held.short bucketIdx present same
  narrow := held.narrow

/-- Merging leaves a bucket with the samples of all that it took in. -/
theorem merge_up (fuel : Nat) {busy : Nat} {state : StackState}
    (held : dataset.Held busy state.buckets) (inside : busy < dataset.sizes.length)
    (bounded : (state.bucket busy).length ≤ dataset.rows busy) :
    let merged := state.mergeUp dataset.sizes dataset.maxArea fuel busy
    dataset.Held merged.1 merged.2.buckets ∧ merged.1 < dataset.sizes.length ∧
      (merged.2.bucket merged.1).length ≤ dataset.rows merged.1 ∧
      merged.2.buckets.flatten.Perm state.buckets.flatten := by
  induction fuel generalizing busy state with
  | zero => exact ⟨held, inside, bounded, List.Perm.refl _⟩
  | succ fuel inductionHypothesis =>
    unfold StackState.mergeUp
    split
    · rename_i room
      obtain ⟨upper, small⟩ := room
      have next : busy + 1 < dataset.sizes.length := by
        rw [held.length] at upper
        omega
      have few := (dataset.area_lt_iff next _).mp small
      have here : busy < state.buckets.length := held.length ▸ inside
      have above : busy + 1 < state.buckets.length := held.length ▸ next
      obtain ⟨after, isAfter⟩ : ∃ after, after =
        ((state.setBucket (busy + 1)
            (state.bucket (busy + 1) ++ state.bucket busy)).setBucket busy []).setTimer busy none :=
        ⟨_, rfl⟩
      have buckets : after.buckets =
          (state.buckets.set (busy + 1) (state.bucket (busy + 1) ++ state.bucket busy)).set busy [] := by
        rw [isAfter]
        rfl
      have wide : Narrow (dataset.sizes.getD (busy + 1) 0)
          (state.bucket (busy + 1) ++ state.bucket busy) := by
        intro item member
        rcases List.mem_append.mp member with upper | lower
        · exact held.narrow (busy + 1) next item upper
        · have own := held.narrow busy inside item lower
          exact ⟨own.1, own.2.trans (dataset.sizes_le_next next)⟩
      have heldAfter : dataset.Held (busy + 1) after.buckets := by
        rw [buckets, List.set_comm _ _ (Nat.succ_ne_self busy)]
        refine Held.set (Held.rest (held.set [] inside (by simp [Narrow])) ?_) _ next wide
        intro _
        rw [getD_set_self here]
        exact Nat.two_pow_pos _
      have content : after.bucket (busy + 1) = state.bucket (busy + 1) ++ state.bucket busy := by
        rw [StackState.bucket, buckets, getD_set_ne (Nat.ne_of_lt (Nat.lt_succ_self busy)),
          getD_set_self above]
      have moved : after.buckets.flatten.Perm state.buckets.flatten := by
        have lower := Buckets.set_perm (state.buckets.set (busy + 1)
          (state.bucket (busy + 1) ++ state.bucket busy)) busy [] (by rwa [List.length_set])
        have upper := Buckets.set_perm state.buckets (busy + 1)
          (state.bucket (busy + 1) ++ state.bucket busy) above
        rw [← buckets, getD_set_ne (Nat.succ_ne_self busy), List.append_nil] at lower
        have both : (after.buckets.flatten ++
            (state.bucket (busy + 1) ++ state.bucket busy)).Perm
            (state.buckets.flatten ++ (state.bucket (busy + 1) ++ state.bucket busy)) := by
          refine (List.perm_append_comm.append_left _).trans ?_
          rw [← List.append_assoc]
          exact (lower.append_right _).trans upper
        exact (List.perm_append_right_iff _).mp both
      rw [← isAfter]
      obtain ⟨heldEnd, insideEnd, boundedEnd, permEnd⟩ :=
        inductionHypothesis heldAfter next (by
          rw [content, List.length_append, Nat.add_comm]
          exact few.le)
      exact ⟨heldEnd, insideEnd, boundedEnd, permEnd.trans moved⟩
    · exact ⟨held, inside, bounded, List.Perm.refl _⟩

/-- Merging from another bucket does not reach one that fills the area. -/
theorem merge_up_frame (fuel : Nat) {busy bucketIdx : Nat} {state : StackState}
    (full : dataset.maxArea ≤ dataset.sizes.getD bucketIdx 0 * (state.bucket bucketIdx).length)
    (other : busy ≠ bucketIdx) :
    let merged := state.mergeUp dataset.sizes dataset.maxArea fuel busy
    merged.1 ≠ bucketIdx ∧ merged.2.bucket bucketIdx = state.bucket bucketIdx ∧
      merged.2.buckets.length = state.buckets.length := by
  induction fuel generalizing busy state with
  | zero => exact ⟨other, rfl, rfl⟩
  | succ fuel inductionHypothesis =>
    unfold StackState.mergeUp
    split
    · rename_i room
      have above : busy + 1 ≠ bucketIdx := by
        rintro rfl
        have small := room.2
        rw [Nat.mul_add] at small
        omega
      obtain ⟨after, isAfter⟩ : ∃ after, after =
        ((state.setBucket (busy + 1)
            (state.bucket (busy + 1) ++ state.bucket busy)).setBucket busy []).setTimer busy none :=
        ⟨_, rfl⟩
      have same : after.bucket bucketIdx = state.bucket bucketIdx := by
        rw [isAfter]
        exact (getD_set_ne other).trans (getD_set_ne above)
      have length : after.buckets.length = state.buckets.length := by
        rw [isAfter]
        exact List.length_set.trans List.length_set
      rw [← isAfter]
      obtain ⟨otherEnd, sameEnd, lengthEnd⟩ := inductionHypothesis (same.symm ▸ full) above
      exact ⟨otherEnd, sameEnd.trans same, lengthEnd.trans length⟩
    · exact ⟨other, rfl, rfl⟩

theorem fill_up (size maxArea count fuel : Nat) (bucket : List Sample) (exact_ : size * count = maxArea)
    (positive : 0 < size) (bounded : bucket.length ≤ count) (enough : count ≤ bucket.length + fuel) :
    fillUp size maxArea fuel bucket =
      bucket ++ List.replicate (count - bucket.length) dummySample := by
  induction fuel generalizing bucket with
  | zero =>
    have full : count - bucket.length = 0 := by omega
    rw [fillUp, full, List.replicate_zero, List.append_nil]
  | succ fuel inductionHypothesis =>
    unfold fillUp
    rw [← exact_]
    by_cases short : bucket.length < count
    · have left : count - bucket.length = (count - (bucket.length + 1)) + 1 := by omega
      rw [if_pos (Nat.mul_lt_mul_left positive |>.mpr short), exact_, inductionHypothesis
        (bucket ++ [dummySample]) (by rw [List.length_append, List.length_singleton]; exact short)
        (by rw [List.length_append, List.length_singleton]; omega), List.length_append,
        List.length_singleton, left, List.replicate_succ, List.append_assoc, List.singleton_append]
    · have full : count - bucket.length = 0 := by omega
      rw [if_neg (fun below => short (Nat.mul_lt_mul_left positive |>.mp below)), full,
        List.replicate_zero, List.append_nil]

end StackDataset

end PrimeRl.Trainer.SftData
