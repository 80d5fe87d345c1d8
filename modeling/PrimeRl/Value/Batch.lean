import Mathlib.Algebra.Ring.Int.Defs
import Mathlib.Algebra.Ring.Nat
import Mathlib.Data.List.GetD
import PrimeRl.Support.Buckets
import PrimeRl.Support.FirstFit
import PrimeRl.Value.Types

/-!
# Packing critic sequences into rows

Sequences are placed longest first into the first row with room, rows are padded
with dummies to a multiple of the world size and dealt to the ranks in turn. The
remaining capacities the loop maintains are those of first-fit placement under
the row length, so the packing laws are the ones of `FirstFit`.
-/

namespace PrimeRl.Value.Batch

universe u
variable {Scalar : Type u}

structure ValueMicroBatch (Scalar : Type u) where
  inputIds : List Nat
  positionIds : List Nat
  mask : List Bool
  targets : List Scalar
  sequenceLengths : List Nat
  sampleIndices : List Int
deriving DecidableEq, Repr

structure ValueInputMicroBatch where
  inputIds : List Nat
  positionIds : List Nat
  sequenceLengths : List Nat
  sampleIndices : List Int
deriving DecidableEq, Repr

/-- Sample indices, longest first; equal lengths keep their original order. -/
def orderedIndices (lengths : List Nat) : List Nat :=
  (List.range lengths.length).insertionSort
    (fun first second => lengths.getD second 0 ≤ lengths.getD first 0)

/-- Put an index into the first bin whose remaining capacity takes its length;
otherwise open a new bin. Each bin is listed with its remaining capacity. -/
def placeIndex (seqLen length index : Nat) : List (List Nat × Nat) → List (List Nat × Nat)
  | [] => [([index], seqLen - length)]
  | (bin, capacity) :: rest =>
      if length ≤ capacity then (bin ++ [index], capacity - length) :: rest
      else (bin, capacity) :: placeIndex seqLen length index rest

/-- First-fit decreasing bins, or one bin for each sequence for models that
cannot attend within packed rows. -/
def packBins (lengths : List Nat) (seqLen : Nat) (packSequences : Bool) : List (List Nat) :=
  if packSequences then
    ((orderedIndices lengths).foldl
      (fun bins index => placeIndex seqLen (lengths.getD index 0) index bins) []).map Prod.fst
  else (orderedIndices lengths).map (fun index => [index])

/-- Append dummy bins until the count is a multiple of the world size. The fuel
bounds the appended bins by the world size. -/
def padBins (worldSize : Nat) : Nat → List (List Nat) → List (List Nat)
  | 0, bins => bins
  | fuel + 1, bins =>
      if bins.length % worldSize ≠ 0 then padBins worldSize fuel (bins ++ [[]]) else bins

/-- Deal bin `index` to rank `index % world_size`. -/
def dealBins (worldSize : Nat) (bins : List (List Nat)) : List (List (List Nat)) :=
  Buckets.collect worldSize (fun packed => packed.2 % worldSize) Prod.fst bins.zipIdx

def packIndices (lengths : List Nat) (seqLen worldSize : Nat) (packSequences : Bool) :
    Except String (List (List (List Nat))) :=
  if lengths.isEmpty then .error "cannot pack an empty value batch"
  else if worldSize < 1 then .error "value packing world_size must be positive"
  else
    match lengths.find? (fun length => decide (length = 0) || decide (seqLen < length)) with
    | some length => .error s!"value sample length {length} is outside [1, {seqLen}]"
    | none => .ok (dealBins worldSize (padBins worldSize worldSize
        (packBins lengths seqLen packSequences)))

/-- The training row of a bin. A dummy row holds one masked padding token. -/
def materializeSamples (sampleIndices : List Nat) (samples : List (ValueTrainingSample Scalar))
    [Zero Scalar] (padTokenId : Nat) : ValueMicroBatch Scalar :=
  if sampleIndices.isEmpty then ⟨[padTokenId], [0], [false], [0], [1], [-1]⟩
  else
    let placed := sampleIndices.filterMap (fun index => samples[index]?)
    { inputIds := placed.flatMap ValueTrainingSample.tokenIds
      positionIds := placed.flatMap (fun sample => List.range sample.tokenIds.length)
      mask := placed.flatMap ValueTrainingSample.mask
      targets := placed.flatMap ValueTrainingSample.targets
      sequenceLengths := placed.map (fun sample => sample.tokenIds.length)
      sampleIndices := sampleIndices.map Int.ofNat }

/-- The inference row of a bin. -/
def materializeInputs (sampleIndices : List Nat) (tokenIds : List (List Nat)) (padTokenId : Nat) :
    ValueInputMicroBatch :=
  if sampleIndices.isEmpty then ⟨[padTokenId], [0], [1], [-1]⟩
  else
    let placed := sampleIndices.filterMap (fun index => tokenIds[index]?)
    { inputIds := placed.flatten
      positionIds := placed.flatMap (fun tokens => List.range tokens.length)
      sequenceLengths := placed.map List.length
      sampleIndices := sampleIndices.map Int.ofNat }

/-- Build an equal microbatch count per rank, optionally using packing. -/
def packValueSamples [Zero Scalar] (samples : List (ValueTrainingSample Scalar))
    (seqLen worldSize padTokenId : Nat) (packSequences : Bool) :
    Except String (List (List (ValueMicroBatch Scalar))) :=
  if samples.any (fun sample => decide (sample.mask.length ≠ sample.tokenIds.length) ||
      decide (sample.targets.length ≠ sample.tokenIds.length)) then
    .error "value sample token, mask, and target streams must align"
  else
    (packIndices (samples.map (fun sample => sample.tokenIds.length)) seqLen worldSize
      packSequences).map
        (fun grid => grid.map (fun rank => rank.map
          (fun indices => materializeSamples indices samples padTokenId)))

/-- Pack inference inputs without manufacturing training masks or targets. -/
def packValueInputs (tokenIds : List (List Nat)) (seqLen worldSize padTokenId : Nat)
    (packSequences : Bool) : Except String (List (List ValueInputMicroBatch)) :=
  (packIndices (tokenIds.map List.length) seqLen worldSize packSequences).map
    (fun grid => grid.map (fun rank => rank.map
      (fun indices => materializeInputs indices tokenIds padTokenId)))

/-! ## Packing moves indices and nothing else -/

/-- Capacity test of the row length over the placed lengths. -/
def fits (lengths : List Nat) (seqLen : Nat) (bin : List Nat) (index : Nat) : Bool :=
  decide (lengths.getD index 0 + (bin.map (fun placed => lengths.getD placed 0)).sum ≤ seqLen)

/-- A listed bin whose capacity is what its lengths leave of the row. -/
def Exact (lengths : List Nat) (seqLen : Nat) (listed : List Nat × Nat) : Prop :=
  listed.2 + (listed.1.map (fun placed => lengths.getD placed 0)).sum = seqLen

/-- The maintained capacities decide exactly as the lengths in each bin do, and
remain exact. -/
theorem place_index_refines (lengths : List Nat) (seqLen index : Nat)
    (bins : List (List Nat × Nat)) (bounded : lengths.getD index 0 ≤ seqLen)
    (exact : ∀ listed ∈ bins, Exact lengths seqLen listed) :
    (placeIndex seqLen (lengths.getD index 0) index bins).map Prod.fst =
        FirstFit.place (fits lengths seqLen) index (bins.map Prod.fst) ∧
      ∀ listed ∈ placeIndex seqLen (lengths.getD index 0) index bins,
        Exact lengths seqLen listed := by
  induction bins with
  | nil =>
    refine ⟨rfl, ?_⟩
    intro listed member
    obtain rfl := List.mem_singleton.mp member
    simp only [Exact, List.map_cons, List.map_nil, List.sum_singleton]
    omega
  | cons first rest inductionHypothesis =>
    obtain ⟨bin, capacity⟩ := first
    obtain ⟨same, restExact⟩ := inductionHypothesis
      (fun listed member => exact listed (List.mem_cons_of_mem _ member))
    have firstExact : capacity + (bin.map (fun placed => lengths.getD placed 0)).sum = seqLen :=
      exact (bin, capacity) List.mem_cons_self
    by_cases room : lengths.getD index 0 ≤ capacity
    · have accepted : fits lengths seqLen bin index = true := by
        rw [fits, decide_eq_true_eq]
        omega
      refine ⟨by simp only [placeIndex, room, if_true, List.map_cons, FirstFit.place, accepted], ?_⟩
      intro listed member
      simp only [placeIndex, room, if_true] at member
      rcases List.mem_cons.mp member with rfl | later
      · simp only [Exact, List.map_append, List.map_cons, List.map_nil, List.sum_append,
          List.sum_singleton]
        omega
      · exact exact listed (List.mem_cons_of_mem _ later)
    · have refused : fits lengths seqLen bin index = false := by
        rw [fits, decide_eq_false_iff_not]
        omega
      refine ⟨?_, ?_⟩
      · simp only [placeIndex, room, if_false, List.map_cons, FirstFit.place, refused, same,
          Bool.false_eq_true]
      · intro listed member
        simp only [placeIndex, room, if_false] at member
        rcases List.mem_cons.mp member with rfl | later
        · exact firstExact
        · exact restExact listed later

theorem ordered_indices_perm (lengths : List Nat) :
    (orderedIndices lengths).Perm (List.range lengths.length) :=
  List.perm_insertionSort _ _

/-- The packing loop is first-fit placement of the ordered indices. -/
theorem pack_bins_eq (lengths : List Nat) (seqLen : Nat)
    (bounded : ∀ length ∈ lengths, length ≤ seqLen) :
    packBins lengths seqLen true =
      FirstFit.pack (fits lengths seqLen) (orderedIndices lengths) := by
  have general (indices : List Nat) (bins : List (List Nat × Nat))
      (inside : ∀ index ∈ indices, lengths.getD index 0 ≤ seqLen)
      (exact : ∀ listed ∈ bins, Exact lengths seqLen listed) :
      (indices.foldl (fun bins index => placeIndex seqLen (lengths.getD index 0) index bins)
          bins).map Prod.fst =
        indices.foldl (fun bins index => FirstFit.place (fits lengths seqLen) index bins)
          (bins.map Prod.fst) := by
    induction indices generalizing bins with
    | nil => rfl
    | cons index rest inductionHypothesis =>
      obtain ⟨same, nextExact⟩ := place_index_refines lengths seqLen index bins
        (inside index List.mem_cons_self) exact
      rw [List.foldl_cons, List.foldl_cons,
        inductionHypothesis _ (fun other member => inside other (List.mem_cons_of_mem _ member))
          nextExact, same]
  have inside : ∀ index ∈ orderedIndices lengths, lengths.getD index 0 ≤ seqLen := by
    intro index member
    have inRange := List.mem_range.mp ((ordered_indices_perm lengths).mem_iff.mp member)
    rw [List.getD_eq_getElem _ _ inRange]
    exact bounded _ (List.getElem_mem inRange)
  exact general (orderedIndices lengths) [] inside
    (fun listed impossible => absurd impossible List.not_mem_nil)

/-- Both packing modes place every sample index exactly once. -/
theorem pack_bins_perm (lengths : List Nat) (seqLen : Nat) (packSequences : Bool)
    (bounded : ∀ length ∈ lengths, length ≤ seqLen) :
    (packBins lengths seqLen packSequences).flatten.Perm (List.range lengths.length) := by
  refine List.Perm.trans ?_ (ordered_indices_perm lengths)
  cases packSequences with
  | true =>
    rw [pack_bins_eq lengths seqLen bounded]
    exact FirstFit.pack_perm _ _
  | false =>
    have singles : (packBins lengths seqLen false).flatten = orderedIndices lengths := by
      simp only [packBins, Bool.false_eq_true, if_false]
      rw [← List.flatMap_def, List.flatMap_singleton']
    rw [singles]

/-- Unpacked bins hold one sequence each. -/
theorem unpacked_singletons (lengths : List Nat) (seqLen : Nat) :
    ∀ bin ∈ packBins lengths seqLen false, bin.length = 1 := by
  intro bin member
  simp only [packBins, Bool.false_eq_true, if_false, List.mem_map] at member
  obtain ⟨index, -, rfl⟩ := member
  rfl

/-- Padding appends dummy bins. -/
theorem pad_bins_cases (worldSize fuel : Nat) (bins : List (List Nat)) :
    ∃ dummies, padBins worldSize fuel bins = bins ++ List.replicate dummies [] := by
  induction fuel generalizing bins with
  | zero => exact ⟨0, by simp [padBins]⟩
  | succ fuel inductionHypothesis =>
    obtain ⟨dummies, appended⟩ := inductionHypothesis (bins ++ [[]])
    by_cases aligned : bins.length % worldSize ≠ 0
    · refine ⟨dummies + 1, ?_⟩
      simp only [padBins, aligned, ne_eq, not_false_eq_true, if_true, appended,
        List.append_assoc, List.replicate_succ, List.singleton_append]
    · exact ⟨0, by simp only [padBins, aligned, if_false, List.replicate_zero, List.append_nil]⟩

/-- Dealing only distributes bins over the ranks, of which there are as many as
the world size. -/
theorem deal_bins_perm (worldSize : Nat) (bins : List (List Nat)) (positive : 1 ≤ worldSize) :
    (dealBins worldSize bins).length = worldSize ∧
      (dealBins worldSize bins).flatten.Perm bins := by
  have dealt := Buckets.collect_perm worldSize (fun packed => packed.2 % worldSize) Prod.fst
    bins.zipIdx (fun packed _ => Nat.mod_lt _ positive)
  rw [List.zipIdx_map_fst] at dealt
  exact ⟨Buckets.collect_length _ _ _ _, dealt⟩

/-- Padding stops at a multiple of the world size. -/
theorem pad_bins_even {worldSize : Nat} (positive : 1 ≤ worldSize) (bins : List (List Nat)) :
    ∃ rounds, (padBins worldSize worldSize bins).length = rounds * worldSize := by
  have reaches : ∀ (fuel missing : Nat) (bins : List (List Nat)), missing ≤ fuel →
      (bins.length + missing) % worldSize = 0 →
        (padBins worldSize fuel bins).length % worldSize = 0 := by
    intro fuel
    induction fuel with
    | zero =>
      intro missing bins none reached
      obtain rfl := Nat.le_zero.mp none
      exact reached
    | succ fuel inductionHypothesis =>
      intro missing bins within reached
      rw [padBins]
      split
      · rename_i uneven
        cases missing with
        | zero => exact absurd reached uneven
        | succ missing =>
          apply inductionHypothesis missing _ (Nat.le_of_succ_le_succ within)
          rw [List.length_append, List.length_singleton, Nat.add_assoc, Nat.add_comm 1]
          exact reached
      · rename_i even
        exact Decidable.not_not.mp even
  have below := Nat.mod_lt bins.length positive
  have missing : (bins.length + (worldSize - bins.length % worldSize)) % worldSize = 0 := by
    have split := Nat.div_add_mod bins.length worldSize
    have whole : bins.length + (worldSize - bins.length % worldSize) =
        worldSize * (bins.length / worldSize + 1) := by
      rw [Nat.mul_succ]
      omega
    rw [whole, Nat.mul_mod_right]
  have even := reaches worldSize _ bins (Nat.sub_le _ _) missing
  exact ⟨_, (Nat.div_mul_cancel (Nat.dvd_of_mod_eq_zero even)).symm⟩

/-- Accepted lengths are packed, padded and dealt. -/
theorem pack_indices_eq (lengths : List Nat) (seqLen worldSize : Nat) (packSequences : Bool)
    (nonempty : lengths ≠ []) (positive : 1 ≤ worldSize)
    (bounded : ∀ length ∈ lengths, 1 ≤ length ∧ length ≤ seqLen) :
    packIndices lengths seqLen worldSize packSequences =
      .ok (dealBins worldSize (padBins worldSize worldSize
        (packBins lengths seqLen packSequences))) := by
  have noError : lengths.find? (fun length => decide (length = 0) || decide (seqLen < length)) =
      none := by
    rw [List.find?_eq_none]
    intro length member
    have inside := bounded length member
    simp only [Bool.or_eq_true, decide_eq_true_eq]
    omega
  have notEmpty : lengths.isEmpty = false := by simpa using nonempty
  have worldPositive : ¬ worldSize < 1 := Nat.not_lt.mpr positive
  simp only [packIndices, notEmpty, worldPositive, noError, Bool.false_eq_true, if_false]

/-- Accepted lengths give one list of bins for each rank. Together the ranks
hold the packed bins and some dummy bins. -/
theorem pack_indices_cases (lengths : List Nat) (seqLen worldSize : Nat) (packSequences : Bool)
    (nonempty : lengths ≠ []) (positive : 1 ≤ worldSize)
    (bounded : ∀ length ∈ lengths, 1 ≤ length ∧ length ≤ seqLen) :
    ∃ grid dummies, packIndices lengths seqLen worldSize packSequences = .ok grid ∧
      grid.length = worldSize ∧
      grid.flatten.Perm (packBins lengths seqLen packSequences ++ List.replicate dummies []) := by
  obtain ⟨dummies, padded⟩ :=
    pad_bins_cases worldSize worldSize (packBins lengths seqLen packSequences)
  obtain ⟨width, dealt⟩ := deal_bins_perm worldSize
    (padBins worldSize worldSize (packBins lengths seqLen packSequences)) positive
  exact ⟨_, dummies, pack_indices_eq lengths seqLen worldSize packSequences nonempty positive bounded,
    width, padded ▸ dealt⟩

/-- Every rank has as many bins as the others. -/
theorem pack_indices_even {lengths : List Nat} {seqLen worldSize : Nat} {packSequences : Bool}
    (nonempty : lengths ≠ []) (positive : 1 ≤ worldSize)
    (bounded : ∀ length ∈ lengths, 1 ≤ length ∧ length ≤ seqLen) {grid : List (List (List Nat))}
    (packed : packIndices lengths seqLen worldSize packSequences = .ok grid) :
    ∃ rounds, ∀ rank ∈ grid, rank.length = rounds := by
  rw [pack_indices_eq lengths seqLen worldSize packSequences nonempty positive bounded] at packed
  obtain rfl := Except.ok.inj packed
  obtain ⟨rounds, total⟩ := pad_bins_even positive (packBins lengths seqLen packSequences)
  exact ⟨rounds, Buckets.deal_even worldSize rounds _ total⟩

/-- The lengths in a bin. -/
def binLoad (lengths : List Nat) (bin : List Nat) : Nat :=
  (bin.map (fun placed => lengths.getD placed 0)).sum

/-- No bin exceeds the row length. -/
theorem pack_bins_short (lengths : List Nat) (seqLen : Nat) (packSequences : Bool)
    (bounded : ∀ length ∈ lengths, length ≤ seqLen) :
    ∀ bin ∈ packBins lengths seqLen packSequences, binLoad lengths bin ≤ seqLen := by
  have inside : ∀ index ∈ orderedIndices lengths, lengths.getD index 0 ≤ seqLen := by
    intro index member
    have inRange := List.mem_range.mp ((ordered_indices_perm lengths).mem_iff.mp member)
    rw [List.getD_eq_getElem _ _ inRange]
    exact bounded _ (List.getElem_mem inRange)
  cases packSequences with
  | true =>
    rw [pack_bins_eq lengths seqLen bounded]
    apply FirstFit.pack_invariant
    · intro index member
      simpa [binLoad] using inside index member
    · intro bin index _ _ accepted
      have room := of_decide_eq_true accepted
      simp only [binLoad, List.map_append, List.map_cons, List.map_nil, List.sum_append,
        List.sum_singleton]
      omega
  | false =>
    intro bin member
    simp only [packBins, Bool.false_eq_true, if_false, List.mem_map] at member
    obtain ⟨index, isIndex, rfl⟩ := member
    simpa [binLoad] using inside index isIndex

/-- Any two packed bins together exceed the row length. An item opens a bin only where no
earlier bin has room for it, and bins only grow. -/
theorem pack_bins_full (lengths : List Nat) (seqLen : Nat)
    (bounded : ∀ length ∈ lengths, length ≤ seqLen) :
    (packBins lengths seqLen true).Pairwise
      (fun bin other => seqLen < binLoad lengths bin + binLoad lengths other) := by
  rw [pack_bins_eq lengths seqLen bounded]
  have grows (bin : List Nat) (index : Nat) :
      binLoad lengths (bin ++ [index]) = binLoad lengths bin + lengths.getD index 0 := by
    simp only [binLoad, List.map_append, List.map_cons, List.map_nil, List.sum_append,
      List.sum_singleton]
  apply FirstFit.pack_pairwise
  · intro bin index _ refused
    have full := of_decide_eq_false refused
    have single : binLoad lengths [index] = lengths.getD index 0 := by simp [binLoad]
    rw [single]
    simp only [binLoad]
    omega
  · intro bin other index _ full
    rw [grows]
    omega
  · intro bin other index _ full
    rw [grows]
    omega

end PrimeRl.Value.Batch
