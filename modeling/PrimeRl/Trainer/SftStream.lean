import Mathlib.Data.List.Nodup
import Mathlib.Data.Nat.Init
import PrimeRl.Trainer.SftData

/-!
# Sharding and resuming the SFT stream

The iteration is a function of the number of passes it has made: after a pass at
position `t` the step is `t + 1`, the stored epoch is that of the position, and the
order is the one of that epoch. Both the shards and the resumption follow from this.
-/

namespace PrimeRl.Trainer.SftData

open Generator (Event Checkpoint observed taken)

universe u v
variable {Example : Type u}

namespace SFTDataset

variable (dataset : SFTDataset Example)

/-- The iteration after so many passes. -/
def stateAt (passes : Nat) : SFTIterator :=
  ⟨⟨passes, (passes - 1) / dataset.numExamples⟩,
    dataset.order ((passes - 1) / dataset.numExamples)⟩

theorem start_eq : dataset.start = dataset.stateAt 0 := by
  rw [start, iter, stateAt, Nat.zero_sub, Nat.zero_div]

theorem advance_state (position : Nat) :
    dataset.advance (dataset.stateAt position) = dataset.stateAt (position + 1) := by
  by_cases later : (position - 1) / dataset.numExamples < (position + 1 - 1) / dataset.numExamples
  · exact if_pos later
  · have earlier : (position - 1) / dataset.numExamples ≤ (position + 1 - 1) / dataset.numExamples :=
      Nat.div_le_div_right (by omega)
    have same : (position - 1) / dataset.numExamples = (position + 1 - 1) / dataset.numExamples := by
      omega
    refine (if_neg later).trans ?_
    dsimp only [stateAt]
    rw [same]

/-- A pass of an epoch that is not cut off goes on to the next position. -/
theorem pass_state (position : Nat) (open_ : ¬dataset.Reached (position / dataset.numExamples)) :
    (dataset.pass (dataset.stateAt position)).1 = dataset.stateAt (position + 1) ∧
      (dataset.pass (dataset.stateAt position)).2 ≠ .stopped := by
  have reached : ¬dataset.Reached ((position + 1 - 1) / dataset.numExamples) := by
    rw [Nat.add_sub_cancel]
    exact open_
  unfold pass
  dsimp only
  rw [show (dataset.stateAt position).state.step = position from rfl, if_neg reached,
    advance_state]
  split
  · exact ⟨rfl, fun impossible => nomatch impossible⟩
  · exact ⟨rfl, fun impossible => nomatch impossible⟩

theorem pass_stops (iterator : SFTIterator)
    (reached : dataset.Reached (iterator.state.step / dataset.numExamples)) :
    dataset.pass iterator =
      ({ iterator with state := { iterator.state with step := iterator.state.step + 1 } }, .stopped) := by
  unfold pass
  dsimp only
  rw [Nat.add_sub_cancel, if_pos reached]

theorem Reached.later {dataset : SFTDataset Example} {epoch later : Nat}
    (reached : dataset.Reached epoch) (order : epoch ≤ later) : dataset.Reached later := by
  obtain ⟨maxEpochs, isMax, bound⟩ := reached
  exact ⟨maxEpochs, isMax, by omega⟩

/-- The states of the passes before the first cut-off epoch. -/
theorem passes_eq (position count : Nat)
    (open_ : ∀ t < count, ¬dataset.Reached ((position + t) / dataset.numExamples)) (more : Nat) :
    ∃ rest, Generator.passes dataset.pass (count + more) (dataset.stateAt position) =
        (List.range' position count).map (fun t => dataset.stateAt (t + 1)) ++ rest ∧
      rest = Generator.passes dataset.pass more (dataset.stateAt (position + count)) := by
  refine ⟨_, ?_, rfl⟩
  induction count generalizing position with
  | zero => rw [Nat.zero_add, Nat.add_zero]; rfl
  | succ count inductionHypothesis =>
    obtain ⟨isNext, goesOn⟩ := dataset.pass_state position (open_ 0 (by omega))
    have unfolded : Generator.passes dataset.pass (count + 1 + more) (dataset.stateAt position) =
        dataset.stateAt (position + 1) ::
          Generator.passes dataset.pass (count + more) (dataset.stateAt (position + 1)) := by
      rw [Nat.add_right_comm, Generator.passes]
      split
      · rename_i isPass
        rw [isPass] at goesOn
        exact absurd rfl goesOn
      · rename_i after event _ isPass
        rw [isPass] at isNext
        obtain rfl : after = _ := isNext
        rfl
    have later : ∀ t < count, ¬dataset.Reached ((position + 1 + t) / dataset.numExamples) := by
      intro t below
      have := open_ (t + 1) (by omega)
      rwa [← Nat.add_assoc, Nat.add_right_comm] at this
    rw [unfolded, inductionHypothesis (position + 1) later, List.range'_succ, List.map_cons,
      List.cons_append, Nat.add_right_comm position 1 count]
    rfl

/-- Later passes are at later positions. -/
theorem passes_later (position count : Nat) {iterator : SFTIterator}
    (member : iterator ∈ Generator.passes dataset.pass count (dataset.stateAt position)) :
    ∃ later, position ≤ later ∧ iterator = dataset.stateAt (later + 1) := by
  induction count generalizing position with
  | zero => cases member
  | succ count inductionHypothesis =>
    by_cases reached : dataset.Reached (position / dataset.numExamples)
    · rw [Generator.passes, dataset.pass_stops (dataset.stateAt position) reached] at member
      cases member
    · obtain ⟨isNext, goesOn⟩ := dataset.pass_state position reached
      rw [Generator.passes] at member
      split at member
      · cases member
      · rename_i after event _ isPass
        rw [isPass] at isNext
        obtain rfl : after = _ := isNext
        rcases List.mem_cons.mp member with rfl | inRest
        · exact ⟨position, Nat.le_refl position, rfl⟩
        · obtain ⟨later, order, isLater⟩ := inductionHypothesis (position + 1) inRest
          exact ⟨later, by omega, isLater⟩

/-- A data rank of the dataset. -/
def ranked (rank : Nat) : SFTDataset Example := { dataset with dataRank := rank }

/-- The indices that a data rank visits in an epoch, within so many passes. -/
def visitedIn (rank epoch count : Nat) : List Nat :=
  ((Generator.passes (dataset.ranked rank).pass count (dataset.ranked rank).start).filter
    (fun iterator => iterator.state.epoch = epoch)).filterMap (dataset.ranked rank).visited

/-- A rank visits its positions of an epoch, in the order of the epoch. -/
theorem visited_in_eq (rank epoch count : Nat) (open_ : ¬dataset.Reached epoch)
    (enough : (epoch + 1) * dataset.numExamples ≤ count) :
    dataset.visitedIn rank epoch count =
      (List.range dataset.numExamples).filterMap (fun position =>
        if (epoch * dataset.numExamples + position) % dataset.dataWorldSize ≠ rank then none
        else (dataset.order epoch)[position]?) := by
  obtain ⟨size, isSize⟩ : ∃ size, size = dataset.numExamples := ⟨_, rfl⟩
  have positive : 0 < size := isSize ▸ dataset.nonempty
  obtain ⟨more, rfl⟩ := Nat.exists_eq_add_of_le enough
  have isRanked : (dataset.ranked rank).numExamples = size := isSize.symm
  have openBefore : ∀ t < (epoch + 1) * size,
      ¬(dataset.ranked rank).Reached ((0 + t) / (dataset.ranked rank).numExamples) := by
    intro t below reached
    rw [isRanked, Nat.zero_add] at reached
    refine open_ ((show dataset.Reached (t / size) from reached).later ?_)
    have : t / size < epoch + 1 := Nat.div_lt_of_lt_mul (by rw [Nat.mul_comm]; exact below)
    omega
  obtain ⟨rest, isPasses, isRest⟩ :=
    (dataset.ranked rank).passes_eq 0 ((epoch + 1) * size) openBefore more
  have epochOf (t : Nat) : ((dataset.ranked rank).stateAt (t + 1)).state.epoch = t / size := by
    rw [stateAt, Nat.add_sub_cancel, isRanked]
  have nothingLater : rest.filter (fun iterator => iterator.state.epoch = epoch) = [] := by
    rw [List.filter_eq_nil_iff]
    intro iterator member
    rw [isRest] at member
    obtain ⟨later, order, rfl⟩ := (dataset.ranked rank).passes_later _ more member
    rw [epochOf, decide_eq_true_eq]
    have : epoch + 1 ≤ later / size := (Nat.le_div_iff_mul_le positive).mpr (by omega)
    omega
  have positions : (List.range' 0 ((epoch + 1) * size)).filter (fun t => t / size = epoch) =
      (List.range size).map (fun position => epoch * size + position) := by
    have split : List.range' 0 ((epoch + 1) * size) =
        List.range' 0 (epoch * size) ++ List.range' (epoch * size) size := by
      rw [Nat.succ_mul, ← List.range'_append_1, Nat.zero_add]
    have before : (List.range' 0 (epoch * size)).filter (fun t => t / size = epoch) = [] := by
      rw [List.filter_eq_nil_iff]
      intro t member
      have below := (List.mem_range'_1.mp member).2
      rw [decide_eq_true_eq]
      have : t / size < epoch := Nat.div_lt_of_lt_mul (by rw [Nat.mul_comm]; omega)
      omega
    have within : (List.range' (epoch * size) size).filter (fun t => t / size = epoch) =
        List.range' (epoch * size) size := by
      rw [List.filter_eq_self]
      intro t member
      obtain ⟨low, high⟩ := List.mem_range'_1.mp member
      rw [decide_eq_true_eq]
      have : t / size < epoch + 1 := Nat.div_lt_of_lt_mul (by rw [Nat.mul_comm, Nat.succ_mul]; omega)
      have : epoch ≤ t / size := (Nat.le_div_iff_mul_le positive).mpr low
      omega
    rw [split, List.filter_append, before, within, List.nil_append, List.range'_eq_map_range]
  rw [visitedIn, start_eq, ← isSize, isPasses, List.filter_append, nothingLater, List.append_nil,
    List.filter_map, List.filterMap_map]
  have sameFilter : ((fun iterator : SFTIterator => decide (iterator.state.epoch = epoch)) ∘
      fun t => (dataset.ranked rank).stateAt (t + 1)) = (fun t => decide (t / size = epoch)) := by
    funext t
    rw [Function.comp_apply, epochOf]
  rw [sameFilter, positions, List.filterMap_map]
  apply List.filterMap_congr
  intro position member
  have below : position < size := List.mem_range.mp member
  have isEpoch : (epoch * size + position) / size = epoch := by
    rw [Nat.mul_comm, Nat.mul_add_div positive, Nat.div_eq_of_lt below, Nat.add_zero]
  have isPosition : (epoch * size + position) % size = position := by
    rw [Nat.mul_comm, Nat.mul_add_mod, Nat.mod_eq_of_lt below]
  dsimp only [Function.comp_apply, visited, stateAt]
  rw [Nat.add_sub_cancel, isRanked, isEpoch, isPosition]
  rfl

theorem order_perm (epoch : Nat) : (dataset.order epoch).Perm (List.range dataset.numExamples) := by
  unfold order
  split
  · exact dataset.permutes _
  · exact List.Perm.refl _

theorem filter_map_positions {Item : Type v} (items : List Item) :
    (List.range items.length).filterMap (fun position => items[position]?) = items := by
  induction items with
  | nil => rfl
  | cons item rest inductionHypothesis =>
    rw [List.length_cons, List.range_succ_eq_map, List.filterMap_cons_some List.getElem?_cons_zero,
      List.filterMap_map]
    exact congrArg (item :: ·) inductionHypothesis

/-- The ranks visit the order of an epoch in order, and every index is visited by one rank. -/
theorem visited_in_partition (epoch count : Nat) (ranks : 0 < dataset.dataWorldSize)
    (open_ : ¬dataset.Reached epoch) (enough : (epoch + 1) * dataset.numExamples ≤ count) :
    (∀ rank, (dataset.visitedIn rank epoch count).Sublist (dataset.order epoch)) ∧
      ∀ index < dataset.numExamples,
        ∃! rank, rank < dataset.dataWorldSize ∧ index ∈ dataset.visitedIn rank epoch count := by
  have perm := dataset.order_perm epoch
  have length : (dataset.order epoch).length = dataset.numExamples := by
    rw [perm.length_eq, List.length_range]
  have nodup : (dataset.order epoch).Nodup := perm.nodup_iff.mpr List.nodup_range
  have mem (rank index : Nat) : index ∈ dataset.visitedIn rank epoch count ↔
      ∃ position, (epoch * dataset.numExamples + position) % dataset.dataWorldSize = rank ∧
        (dataset.order epoch)[position]? = some index := by
    rw [dataset.visited_in_eq rank epoch count open_ enough, List.mem_filterMap]
    constructor
    · rintro ⟨position, -, found⟩
      split at found
      · cases found
      · rename_i isRank
        exact ⟨position, not_not.mp isRank, found⟩
    · rintro ⟨position, isRank, found⟩
      refine ⟨position, List.mem_range.mpr (length ▸ (List.getElem?_eq_some_iff.mp found).1), ?_⟩
      rw [if_neg (not_not.mpr isRank)]
      exact found
  refine ⟨fun rank => ?_, fun index below => ?_⟩
  · have selected : dataset.visitedIn rank epoch count =
        ((List.range (dataset.order epoch).length).filter (fun position => decide
          ((epoch * dataset.numExamples + position) % dataset.dataWorldSize = rank))).filterMap
            (fun position => (dataset.order epoch)[position]?) := by
      rw [dataset.visited_in_eq rank epoch count open_ enough, List.filterMap_filter, length]
      apply List.filterMap_congr
      intro position _
      split
      · rename_i other
        rw [if_neg (by rw [decide_eq_true_eq]; exact other)]
      · rename_i isRank
        rw [if_pos (by rw [decide_eq_true_eq]; exact not_not.mp isRank)]
    have whole := filter_map_positions (dataset.order epoch)
    rw [selected]
    apply (List.filter_sublist.filterMap _).trans
    rw [whole]
  · obtain ⟨position, inside, isIndex⟩ :=
      List.getElem_of_mem (perm.symm.subset (List.mem_range.mpr below))
    have found : (dataset.order epoch)[position]? = some index := by
      rw [List.getElem?_eq_getElem inside, isIndex]
    refine ⟨(epoch * dataset.numExamples + position) % dataset.dataWorldSize,
      ⟨Nat.mod_lt _ ranks, (mem _ index).mpr ⟨position, rfl, found⟩⟩, ?_⟩
    rintro other ⟨-, isVisited⟩
    obtain ⟨otherPosition, rfl, otherFound⟩ := (mem other index).mp isVisited
    obtain ⟨otherInside, otherIndex⟩ := List.getElem?_eq_some_iff.mp otherFound
    have same : otherPosition = position :=
      (List.Nodup.getElem_inj_iff nodup).mp (otherIndex.trans isIndex.symm)
    rw [same]

/-! ## Resuming -/

/-- The order is always that of the stored epoch. -/
def InOrder (iterator : SFTIterator) : Prop := iterator.order = dataset.order iterator.state.epoch

theorem pass_in_order (iterator : SFTIterator) (inOrder : dataset.InOrder iterator) :
    dataset.InOrder (dataset.pass iterator).1 := by
  have advanced : dataset.InOrder (dataset.advance iterator) := by
    unfold advance
    dsimp only
    split
    · rfl
    · exact inOrder
  unfold pass
  dsimp only
  split
  · exact inOrder
  · split
    · exact advanced
    · exact advanced

/-- A checkpoint of the dataset restores its iteration. -/
def checkpoint : Checkpoint dataset.pass save dataset.load dataset.start where
  Good := dataset.InOrder
  AtRest := fun _ => True
  starts := rfl
  startsAtRest := trivial
  passes := dataset.pass_in_order
  rests := fun _ _ _ _ _ => trivial
  restores := by
    rintro ⟨state, order⟩ inOrder _
    obtain rfl : order = dataset.order state.epoch := inOrder
    rfl

/-- A stream that has ended stays ended when it is restored. -/
theorem stopped_stays {iterator after : SFTIterator}
    (stops : dataset.pass iterator = (after, .stopped)) :
    (dataset.pass (dataset.load (save after))).2 = .stopped := by
  have reached : dataset.Reached (iterator.state.step / dataset.numExamples) := by
    by_contra open_
    have open_ : ¬dataset.Reached ((iterator.state.step + 1 - 1) / dataset.numExamples) := by
      rw [Nat.add_sub_cancel]
      exact open_
    unfold pass at stops
    dsimp only at stops
    rw [if_neg open_] at stops
    split at stops
    · cases stops
    · cases stops
  rw [dataset.pass_stops iterator reached] at stops
  obtain rfl := (Prod.mk.inj stops).1
  rw [pass_stops]
  exact reached.later (Nat.div_le_div_right (Nat.le_succ _))

end SFTDataset

namespace CatDataset

variable {State : Type u} {Saved : Type v} {inner : State → State × Event Sample}
  {save : State → Saved} {load : Saved → State} {start : State}

/-- Between two items nothing is packed, so a checkpoint of the consumed dataset restores
the concatenation. -/
def checkpoint (consumed : Checkpoint inner save load start) (seqLen : Nat) :
    Checkpoint (pass inner seqLen) (CatDataset.save save) (CatDataset.load load) { inner := start } where
  Good := fun iterator => consumed.Good iterator.inner
  AtRest := fun iterator => consumed.AtRest iterator.inner ∧ iterator = { inner := iterator.inner }
  starts := consumed.starts
  startsAtRest := ⟨consumed.startsAtRest, rfl⟩
  passes := by
    intro iterator good
    have after := consumed.passes iterator.inner good
    unfold pass
    split
    · rename_i isPass
      rw [isPass] at after
      exact after
    · rename_i isPass
      rw [isPass] at after
      exact after
    · rename_i isPass
      rw [isPass] at after
      dsimp only
      split
      · exact after
      · exact after
  rests := by
    intro iterator after item good passes
    unfold pass at passes
    split at passes
    · cases passes
    · cases passes
    · rename_i next sample isPass
      have rest := consumed.rests iterator.inner next sample good isPass
      dsimp only at passes
      split at passes
      · obtain rfl := (Prod.mk.inj passes).1
        exact ⟨rest, rfl⟩
      · cases passes
  restores := by
    intro iterator good rest
    have restored := consumed.restores iterator.inner good rest.1
    rw [rest.2]
    exact congrArg (fun inner => ({ inner := inner } : CatIterator State)) restored

end CatDataset

/-- The ranks share the order of every epoch, and both datasets resume where they were
suspended: a freshly built one that loads the checkpoint shows the same items and the same
later checkpoints. A stream that has ended stays ended. -/
theorem sft_stream_exact (dataset : SFTDataset Example) :
    (∀ epoch count, 0 < dataset.dataWorldSize → ¬dataset.Reached epoch →
      (epoch + 1) * dataset.numExamples ≤ count →
      (dataset.order epoch).Perm (List.range dataset.numExamples) ∧
      (∀ rank, (dataset.visitedIn rank epoch count).Sublist (dataset.order epoch)) ∧
      ∀ index < dataset.numExamples,
        ∃! rank, rank < dataset.dataWorldSize ∧ index ∈ dataset.visitedIn rank epoch count) ∧
    (∀ fuel count iterator, taken dataset.pass fuel count dataset.start = some iterator →
      ∀ later requests,
        observed dataset.pass SFTDataset.save later requests
            (dataset.load (SFTDataset.save iterator)) =
          observed dataset.pass SFTDataset.save later requests iterator) ∧
    (∀ iterator after, dataset.pass iterator = (after, .stopped) →
      (dataset.pass (dataset.load (SFTDataset.save after))).2 = .stopped) ∧
    ∀ seqLen fuel count iterator,
      taken (CatDataset.pass dataset.pass seqLen) fuel count { inner := dataset.start } =
        some iterator →
      ∀ later requests,
        observed (CatDataset.pass dataset.pass seqLen) (CatDataset.save SFTDataset.save) later requests
            (CatDataset.load dataset.load (CatDataset.save SFTDataset.save iterator)) =
          observed (CatDataset.pass dataset.pass seqLen) (CatDataset.save SFTDataset.save) later
            requests iterator := by
  refine ⟨fun epoch count ranks open_ enough => ?_, fun fuel count iterator suspended => ?_,
    fun iterator after stops => dataset.stopped_stays stops,
    fun seqLen fuel count iterator suspended => ?_⟩
  · exact ⟨dataset.order_perm epoch, dataset.visited_in_partition epoch count ranks open_ enough⟩
  · exact dataset.checkpoint.resumes suspended
  · exact (CatDataset.checkpoint dataset.checkpoint seqLen).resumes suspended

/-- Three examples for two ranks, shuffled differently in each of two epochs. The second
example is refused. -/
def threeExamples : SFTDataset Nat where
  examples := [0, 1, 2]
  nonempty := by decide
  shuffle := true
  permutation := fun seed => if seed = 7 then [2, 0, 1] else [1, 2, 0]
  permutes := by
    intro seed
    split
    · decide
    · decide
  seed := 7
  maxEpochs := some 2
  dataRank := 0
  dataWorldSize := 2
  process := fun example_ =>
    if example_ = 1 then none else some ⟨[example_, 9], [9, 0], [true, true], [0, 1]⟩

/-- In the second epoch the ranks visit `[2]` and `[1, 0]`, and a concatenation that is
suspended at its first item, across the border of the epochs, resumes there. -/
theorem sft_stream_three_examples :
    threeExamples.visitedIn 0 1 6 = [2] ∧ threeExamples.visitedIn 1 1 6 = [1, 0] ∧
      (∀ index < 3, ∃! rank, rank < 2 ∧ index ∈ threeExamples.visitedIn rank 1 6) ∧
      ∃ iterator, taken (CatDataset.pass threeExamples.pass 3) 9 1 { inner := threeExamples.start } =
          some iterator ∧
        (CatDataset.save SFTDataset.save iterator).dataset = ⟨5, 1⟩ ∧
        observed (CatDataset.pass threeExamples.pass 3) (CatDataset.save SFTDataset.save) 9 2
            (CatDataset.load threeExamples.load (CatDataset.save SFTDataset.save iterator)) =
          observed (CatDataset.pass threeExamples.pass 3) (CatDataset.save SFTDataset.save) 9 2
            iterator := by
  obtain ⟨shards, -, -, resumes⟩ := sft_stream_exact threeExamples
  obtain ⟨iterator, suspended, saved⟩ := Option.map_eq_some_iff.mp
    (show (taken (CatDataset.pass threeExamples.pass 3) 9 1 { inner := threeExamples.start }).map
        (fun iterator => (CatDataset.save SFTDataset.save iterator).dataset) = some ⟨5, 1⟩ by
      decide +kernel)
  exact ⟨by decide +kernel, by decide +kernel,
    (shards 1 6 (by decide) (by decide +kernel) (by decide)).2.2, iterator, suspended, saved,
    resumes 3 9 1 iterator suspended 9 2⟩

end PrimeRl.Trainer.SftData
