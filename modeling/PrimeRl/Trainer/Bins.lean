import PrimeRl.Support.FirstFit
import PrimeRl.Support.Pool
import PrimeRl.Trainer.Batch

/-!
# Packing and splitting only move samples

The packing loop is first-fit placement under the acceptance test of the bins,
and a split deals the samples of one bin to two. Both keep every sample, the
capacity of a row and the separation of multimodal samples. A split leaves
neither side empty when single samples have a positive cost.
-/

namespace PrimeRl.Trainer.Batch

open PrimeRl.Transport

variable {Scalar : Type}

/-- The acceptance test of a bin over its samples. -/
def accepts (maxSeqLen : Nat) (samples : List (Slotted Scalar)) (sample : Slotted Scalar) : Bool :=
  (MicroBatchBin.mk samples (samples.map tokenCount).sum).canAdd sample maxSeqLen

/-- The recorded length of a bin is what its samples add up to. -/
def MicroBatchBin.Exact (bin : MicroBatchBin Scalar) : Prop :=
  bin.length = (bin.samples.map tokenCount).sum

/-- What packing guarantees of the samples of one row. -/
structure Packed (maxSeqLen : Nat) (samples : List (Slotted Scalar)) : Prop where
  nonempty : samples ≠ []
  fits : (samples.map tokenCount).sum ≤ maxSeqLen
  alone : ∀ sample ∈ samples, isMultimodalSample sample.2 = true → samples = [sample]
  experts : ∀ sample ∈ samples, ∀ other ∈ samples,
    sample.2.routedExperts.isNone = other.2.routedExperts.isNone

/-- A sample that fits a row is packed alone. -/
theorem packed_singleton (maxSeqLen : Nat) (sample : Slotted Scalar)
    (fits : tokenCount sample ≤ maxSeqLen) : Packed maxSeqLen [sample] where
  nonempty := List.cons_ne_nil _ _
  fits := by simpa using fits
  alone := by
    intro other member _
    rw [List.mem_singleton.mp member]
  experts := by
    intro first firstMember second secondMember
    rw [List.mem_singleton.mp firstMember, List.mem_singleton.mp secondMember]

/-- An accepted sample keeps a row packed. -/
theorem packed_add (maxSeqLen : Nat) (samples : List (Slotted Scalar)) (sample : Slotted Scalar)
    (packed : Packed maxSeqLen samples) (accepted : accepts maxSeqLen samples sample = true) :
    Packed maxSeqLen (samples ++ [sample]) := by
  cases samples with
  | nil => exact absurd rfl packed.nonempty
  | cons first rest =>
    simp only [accepts, MicroBatchBin.canAdd, Bool.and_eq_true, Bool.not_eq_true',
      decide_eq_true_eq, beq_iff_eq] at accepted
    obtain ⟨⟨⟨firstText, sampleText⟩, room⟩, sameExperts⟩ := accepted
    have allText : ∀ other ∈ first :: rest, isMultimodalSample other.2 = false := by
      intro other member
      cases multimodal : isMultimodalSample other.2 with
      | false => rfl
      | true =>
        obtain ⟨rfl, -⟩ : first = other ∧ rest = [] := by
          simpa using packed.alone other member multimodal
        rw [firstText] at multimodal
        exact multimodal.symm
    have sameAsFirst : ∀ other ∈ (first :: rest) ++ [sample],
        other.2.routedExperts.isNone = first.2.routedExperts.isNone := by
      intro other member
      rcases List.mem_append.mp member with earlier | last
      · exact packed.experts other earlier first List.mem_cons_self
      · rw [List.mem_singleton.mp last, sameExperts]
    constructor
    case nonempty => simp
    case fits =>
      rw [List.map_append, List.sum_append]
      simpa using room
    case alone =>
      intro other member multimodal
      rcases List.mem_append.mp member with earlier | last
      · rw [allText other earlier] at multimodal
        exact absurd multimodal Bool.false_ne_true
      · rw [List.mem_singleton.mp last, sampleText] at multimodal
        exact absurd multimodal Bool.false_ne_true
    case experts =>
      intro one oneMember other otherMember
      rw [sameAsFirst one oneMember, sameAsFirst other otherMember]

/-- A row with several samples stays packed when samples are taken out. -/
theorem packed_part (maxSeqLen : Nat) (samples part others : List (Slotted Scalar))
    (packed : Packed maxSeqLen samples) (several : 1 < samples.length) (nonempty : part ≠ [])
    (split : samples.Perm (part ++ others)) : Packed maxSeqLen part where
  nonempty := nonempty
  fits := by
    have total := (split.map tokenCount).sum_eq
    rw [List.map_append, List.sum_append] at total
    have whole := packed.fits
    omega
  alone := by
    intro sample member multimodal
    have single := packed.alone sample
      (split.mem_iff.mpr (List.mem_append_left others member)) multimodal
    rw [single] at several
    exact absurd several (by simp)
  experts := by
    intro one oneMember other otherMember
    exact packed.experts one (split.mem_iff.mpr (List.mem_append_left others oneMember)) other
      (split.mem_iff.mpr (List.mem_append_left others otherMember))

/-! ## Packing -/

theorem can_add_exact (maxSeqLen : Nat) (bin : MicroBatchBin Scalar) (sample : Slotted Scalar)
    (exact : bin.Exact) : bin.canAdd sample maxSeqLen = accepts maxSeqLen bin.samples sample := by
  obtain ⟨samples, length⟩ := bin
  rw [MicroBatchBin.Exact] at exact
  dsimp only at exact
  rw [exact]
  rfl

/-- Placing into bins is first-fit placement of their samples. -/
theorem place_sample_refines (maxSeqLen : Nat) (sample : Slotted Scalar)
    (bins : List (MicroBatchBin Scalar)) (exact : ∀ bin ∈ bins, bin.Exact) :
    (placeSample maxSeqLen sample bins).map MicroBatchBin.samples =
        FirstFit.place (accepts maxSeqLen) sample (bins.map MicroBatchBin.samples) ∧
      ∀ bin ∈ placeSample maxSeqLen sample bins, bin.Exact := by
  induction bins with
  | nil =>
    refine ⟨rfl, ?_⟩
    intro bin member
    rw [List.mem_singleton.mp member]
    simp only [MicroBatchBin.Exact, MicroBatchBin.fromSample, List.map_cons, List.map_nil,
      List.sum_singleton]
  | cons first rest inductionHypothesis =>
    obtain ⟨same, restExact⟩ := inductionHypothesis
      (fun bin member => exact bin (List.mem_cons_of_mem first member))
    have firstExact := exact first List.mem_cons_self
    simp only [placeSample, can_add_exact maxSeqLen first sample firstExact, List.map_cons,
      FirstFit.place]
    split
    · refine ⟨rfl, ?_⟩
      intro bin member
      rcases List.mem_cons.mp member with rfl | later
      · rw [MicroBatchBin.Exact] at firstExact ⊢
        simp only [MicroBatchBin.add, List.map_append, List.sum_append, List.map_cons,
          List.map_nil, List.sum_singleton, firstExact]
      · exact exact bin (List.mem_cons_of_mem first later)
    · refine ⟨by rw [List.map_cons, same], ?_⟩
      intro bin member
      rcases List.mem_cons.mp member with rfl | later
      · exact firstExact
      · exact restExact bin later

theorem pack_bins_eq_pack (samples : List (Slotted Scalar)) (maxSeqLen : Nat) :
    (packBins samples maxSeqLen).map MicroBatchBin.samples =
      FirstFit.pack (accepts maxSeqLen) (sortSamples samples) := by
  have general (remaining : List (Slotted Scalar)) (bins : List (MicroBatchBin Scalar))
      (exact : ∀ bin ∈ bins, bin.Exact) :
      (remaining.foldl (fun bins sample => placeSample maxSeqLen sample bins) bins).map
          MicroBatchBin.samples =
        remaining.foldl (fun bins sample => FirstFit.place (accepts maxSeqLen) sample bins)
          (bins.map MicroBatchBin.samples) := by
    induction remaining generalizing bins with
    | nil => rfl
    | cons sample rest inductionHypothesis =>
      obtain ⟨same, nextExact⟩ := place_sample_refines maxSeqLen sample bins exact
      rw [List.foldl_cons, List.foldl_cons, inductionHypothesis _ nextExact, same]
  exact general (sortSamples samples) []
    (fun bin impossible => absurd impossible List.not_mem_nil)

/-- Bins hold the given samples, each once, in packed rows. -/
structure Holds (maxSeqLen : Nat) (samples : List (Slotted Scalar))
    (bins : List (MicroBatchBin Scalar)) : Prop where
  every : (bins.flatMap MicroBatchBin.samples).Perm samples
  packed : ∀ bin ∈ bins, Packed maxSeqLen bin.samples

theorem pack_bins_holds (samples : List (Slotted Scalar)) (maxSeqLen : Nat)
    (bounded : ∀ sample ∈ samples, tokenCount sample ≤ maxSeqLen) :
    Holds maxSeqLen samples (packBins samples maxSeqLen) := by
  have sorted : (sortSamples samples).Perm samples := List.perm_insertionSort _ _
  constructor
  case every =>
    rw [List.flatMap_def, pack_bins_eq_pack]
    exact (FirstFit.pack_perm _ _).trans sorted
  case packed =>
    intro bin member
    have listed : bin.samples ∈ FirstFit.pack (accepts maxSeqLen) (sortSamples samples) := by
      rw [← pack_bins_eq_pack]
      exact List.mem_map_of_mem member
    refine FirstFit.pack_invariant (accepts maxSeqLen) (Packed maxSeqLen) (sortSamples samples)
      ?_ ?_ bin.samples listed
    · intro sample inside
      exact packed_singleton maxSeqLen sample (bounded sample (sorted.mem_iff.mp inside))
    · intro row sample _ packed accepted
      exact packed_add maxSeqLen row sample packed accepted

/-! ## Splitting -/

theorem sides_perm (binCost : List Nat → Int) (samples : List (Slotted Scalar))
    (sides : MicroBatchBin.Sides Scalar) :
    ((samples.foldl (MicroBatchBin.Sides.put binCost) sides).left ++
      (samples.foldl (MicroBatchBin.Sides.put binCost) sides).right).Perm
        (sides.left ++ sides.right ++ samples) := by
  induction samples generalizing sides with
  | nil => simp
  | cons sample rest inductionHypothesis =>
    rw [List.foldl_cons]
    refine (inductionHypothesis (sides.put binCost sample)).trans ?_
    rw [MicroBatchBin.Sides.put]
    split
    · simp only [List.append_assoc, List.singleton_append]
      exact List.Perm.append_left sides.left List.perm_middle.symm
    · simp only [List.append_assoc, List.singleton_append]
      exact List.Perm.refl _

theorem sides_nonempty (binCost : List Nat → Int) (samples : List (Slotted Scalar))
    (sides : MicroBatchBin.Sides Scalar) (left : sides.left ≠ []) (right : sides.right ≠ []) :
    (samples.foldl (MicroBatchBin.Sides.put binCost) sides).left ≠ [] ∧
      (samples.foldl (MicroBatchBin.Sides.put binCost) sides).right ≠ [] := by
  induction samples generalizing sides with
  | nil => exact ⟨left, right⟩
  | cons sample rest inductionHypothesis =>
    rw [List.foldl_cons]
    apply inductionHypothesis
    · rw [MicroBatchBin.Sides.put]
      split
      · exact List.append_ne_nil_of_right_ne_nil _ (List.cons_ne_nil _ _)
      · exact left
    · rw [MicroBatchBin.Sides.put]
      split
      · exact right
      · exact List.append_ne_nil_of_right_ne_nil _ (List.cons_ne_nil _ _)

/-- A split deals the samples of a bin to two bins. -/
theorem split_perm (bin : MicroBatchBin Scalar) (binCost : List Nat → Int) :
    ((bin.splitByWorkload binCost).1.samples ++ (bin.splitByWorkload binCost).2.samples).Perm
      bin.samples := by
  have sorted : (MicroBatchBin.ranked binCost bin.samples).Perm bin.samples :=
    List.perm_insertionSort _ _
  exact (sides_perm binCost (MicroBatchBin.ranked binCost bin.samples) ⟨[], 0, [], 0⟩).trans sorted

/-- A split deals the samples of a bin to two bins. When single samples have a
positive cost, the heaviest goes left and the next one right, so both get one. -/
theorem split_by_workload_deals (bin : MicroBatchBin Scalar) (binCost : List Nat → Int)
    (several : 1 < bin.samples.length)
    (costs : ∀ sample ∈ bin.samples, 0 < binCost [tokenCount sample]) :
    bin.samples.Perm
        ((bin.splitByWorkload binCost).1.samples ++ (bin.splitByWorkload binCost).2.samples) ∧
      (bin.splitByWorkload binCost).1.samples ≠ [] ∧
      (bin.splitByWorkload binCost).2.samples ≠ [] := by
  have sorted : (MicroBatchBin.ranked binCost bin.samples).Perm bin.samples :=
    List.perm_insertionSort _ _
  refine ⟨(split_perm bin binCost).symm, ?_⟩
  simp only [MicroBatchBin.splitByWorkload]
  obtain ⟨first, second, rest, inOrder⟩ :
      ∃ first second rest, MicroBatchBin.ranked binCost bin.samples = first :: second :: rest := by
    rw [← sorted.length_eq] at several
    match MicroBatchBin.ranked binCost bin.samples, several with
    | first :: second :: rest, _ => exact ⟨first, second, rest, rfl⟩
  have heavy : 0 < binCost [tokenCount first] :=
    costs first (sorted.mem_iff.mp (inOrder ▸ List.mem_cons_self))
  have firstLeft : MicroBatchBin.Sides.put binCost ⟨[], 0, [], 0⟩ first =
      ⟨[first], 0 + binCost [tokenCount first], [], 0⟩ := rfl
  have secondRight : MicroBatchBin.Sides.put binCost
      ⟨[first], 0 + binCost [tokenCount first], [], 0⟩ second =
      ⟨[first], 0 + binCost [tokenCount first], [second], 0 + binCost [tokenCount second]⟩ := by
    rw [MicroBatchBin.Sides.put, if_neg (by dsimp only; omega)]
    rfl
  rw [inOrder, List.foldl_cons, List.foldl_cons, firstLeft, secondRight]
  exact sides_nonempty binCost rest _ (List.cons_ne_nil _ _) (List.cons_ne_nil _ _)

theorem max_candidate_cases (pairs : List (Int × Nat)) :
    (maxCandidate pairs = none ∧ pairs = []) ∨
      ∃ pair ∈ pairs, maxCandidate pairs = some pair := by
  induction pairs with
  | nil => exact .inl ⟨rfl, rfl⟩
  | cons first rest inductionHypothesis =>
    right
    rcases inductionHypothesis with ⟨none, rfl⟩ | ⟨other, member, found⟩
    · exact ⟨first, List.mem_cons_self, by rw [maxCandidate, none]⟩
    · by_cases greater : first.1 < other.1 ∨ first.1 = other.1 ∧ first.2 < other.2
      · exact ⟨other, List.mem_cons_of_mem first member, by
          simp only [maxCandidate, found, greater, if_true]⟩
      · exact ⟨first, List.mem_cons_self, by
          simp only [maxCandidate, found, greater, if_false]⟩

theorem split_candidate_bin (bins : List (MicroBatchBin Scalar)) (binCost : List Nat → Int)
    (pair : Int × Nat) (member : pair ∈ splitCandidates bins binCost) :
    ∃ bin, bins[pair.2]? = some bin ∧ 1 < bin.samples.length := by
  simp only [splitCandidates, List.mem_map, List.mem_filter, decide_eq_true_eq] at member
  obtain ⟨⟨bin, idx⟩, ⟨listed, several⟩, rfl⟩ := member
  exact ⟨bin, List.mem_zipIdx_iff_getElem?.mp listed, several⟩

/-- Splitting one bin in place and appending its other half keeps the samples. -/
theorem split_every (bins : List (MicroBatchBin Scalar)) (binCost : List Nat → Int) (idx : Nat)
    (bin : MicroBatchBin Scalar) (found : bins[idx]? = some bin) :
    ((bins.set idx (bin.splitByWorkload binCost).1 ++
      [(bin.splitByWorkload binCost).2]).flatMap MicroBatchBin.samples).Perm
        (bins.flatMap MicroBatchBin.samples) := by
  obtain ⟨others, before, after⟩ := Pool.flatMap_set MicroBatchBin.samples bins idx bin found
  rw [List.flatMap_append, List.flatMap_singleton]
  refine ((after _).append_right _).trans (List.Perm.trans ?_ before.symm)
  rw [List.append_assoc]
  refine (List.perm_append_comm.append_left _).trans ?_
  rw [← List.append_assoc]
  exact (split_perm bin binCost).append_right others

/-- Splitting one bin in place and appending its other half keeps what the bins
hold. -/
theorem split_holds (maxSeqLen : Nat) (samples : List (Slotted Scalar))
    (bins : List (MicroBatchBin Scalar)) (binCost : List Nat → Int) (idx : Nat)
    (bin : MicroBatchBin Scalar) (holds : Holds maxSeqLen samples bins)
    (found : bins[idx]? = some bin) (several : 1 < bin.samples.length)
    (costs : ∀ sample ∈ samples, 0 < binCost [tokenCount sample]) :
    Holds maxSeqLen samples
      (bins.set idx (bin.splitByWorkload binCost).1 ++ [(bin.splitByWorkload binCost).2]) := by
  have inside : bin ∈ bins := List.mem_of_getElem? found
  have binCosts : ∀ sample ∈ bin.samples, 0 < binCost [tokenCount sample] :=
    fun sample member =>
      costs sample (holds.every.mem_iff.mp (List.mem_flatMap.mpr ⟨bin, inside, member⟩))
  obtain ⟨dealt, leftNonempty, rightNonempty⟩ :=
    split_by_workload_deals bin binCost several binCosts
  constructor
  case every => exact (split_every bins binCost idx bin found).trans holds.every
  case packed =>
    intro other member
    rcases List.mem_append.mp member with earlier | last
    · rcases List.mem_or_eq_of_mem_set earlier with kept | rfl
      · exact holds.packed other kept
      · exact packed_part maxSeqLen bin.samples _ _ (holds.packed bin inside) several leftNonempty
          dealt
    · rw [List.mem_singleton.mp last]
      exact packed_part maxSeqLen bin.samples _ _ (holds.packed bin inside) several rightNonempty
        (dealt.trans List.perm_append_comm)

/-- The splitting loop ends by its own test: there are enough bins, or no bin
has a second sample. It keeps what the bins hold. -/
theorem expand_from_holds (maxSeqLen : Nat) (samples : List (Slotted Scalar))
    (targetCount : Nat) (binCost : List Nat → Int) (fuel : Nat)
    (bins : List (MicroBatchBin Scalar)) (enough : targetCount ≤ bins.length + fuel)
    (holds : Holds maxSeqLen samples bins)
    (costs : ∀ sample ∈ samples, 0 < binCost [tokenCount sample]) :
    Holds maxSeqLen samples (expandFrom targetCount binCost fuel bins) ∧
      (targetCount ≤ (expandFrom targetCount binCost fuel bins).length ∨
        splitCandidates (expandFrom targetCount binCost fuel bins) binCost = []) := by
  induction fuel generalizing bins with
  | zero => exact ⟨holds, .inl enough⟩
  | succ fuel inductionHypothesis =>
    rw [expandFrom]
    by_cases short : bins.length < targetCount
    · rw [if_pos short]
      rcases max_candidate_cases (splitCandidates bins binCost) with
        ⟨finished, none⟩ | ⟨⟨workload, idx⟩, member, found⟩
      · simp only [finished]
        exact ⟨holds, .inr none⟩
      · obtain ⟨bin, atIdx, several⟩ := split_candidate_bin bins binCost _ member
        simp only [found, atIdx]
        apply inductionHypothesis
        · rw [List.length_append, List.length_set, List.length_singleton]
          omega
        · exact split_holds maxSeqLen samples bins binCost idx bin holds atIdx several costs
    · rw [if_neg short]
      exact ⟨holds, .inl (Nat.le_of_not_lt short)⟩

/-- The bins of a batch hold its samples. With several workers, splitting ends
by its own test. -/
theorem batch_bins_holds (samples : List (Slotted Scalar)) (maxSeqLen numTrainWorkers : Nat)
    (binCost : List Nat → Int) (bounded : ∀ sample ∈ samples, tokenCount sample ≤ maxSeqLen)
    (costs : 1 < numTrainWorkers → ∀ sample ∈ samples, 0 < binCost [tokenCount sample]) :
    Holds maxSeqLen samples (batchBins samples maxSeqLen numTrainWorkers binCost) ∧
      (1 < numTrainWorkers →
        targetCount (packBins samples maxSeqLen).length numTrainWorkers ≤
            (batchBins samples maxSeqLen numTrainWorkers binCost).length ∨
          splitCandidates (batchBins samples maxSeqLen numTrainWorkers binCost) binCost = []) := by
  have packed := pack_bins_holds samples maxSeqLen bounded
  rw [batchBins]
  by_cases several : 1 < numTrainWorkers
  · rw [if_pos several]
    have enough : targetCount (packBins samples maxSeqLen).length numTrainWorkers ≤
        (packBins samples maxSeqLen).length +
          (targetCount (packBins samples maxSeqLen).length numTrainWorkers -
            (packBins samples maxSeqLen).length) := by
      omega
    obtain ⟨holds, finished⟩ := expand_from_holds maxSeqLen samples _ binCost _ _ enough packed
      (costs several)
    exact ⟨holds, fun _ => finished⟩
  · rw [if_neg several]
    exact ⟨packed, fun impossible => absurd impossible several⟩

/-- Splitting keeps the samples, whatever single samples cost. -/
theorem expand_from_every (targetCount : Nat) (binCost : List Nat → Int) (fuel : Nat)
    (bins : List (MicroBatchBin Scalar)) :
    ((expandFrom targetCount binCost fuel bins).flatMap MicroBatchBin.samples).Perm
      (bins.flatMap MicroBatchBin.samples) := by
  induction fuel generalizing bins with
  | zero => exact .refl _
  | succ fuel inductionHypothesis =>
    rw [expandFrom]
    split
    · split
      · exact .refl _
      · split
        · exact .refl _
        · rename_i bin found
          exact (inductionHypothesis _).trans (split_every bins binCost _ bin found)
    · exact .refl _

/-- The bins of a batch hold each of its samples once. -/
theorem batch_bins_every (samples : List (Slotted Scalar)) (maxSeqLen numTrainWorkers : Nat)
    (binCost : List Nat → Int) :
    ((batchBins samples maxSeqLen numTrainWorkers binCost).flatMap MicroBatchBin.samples).Perm
      samples := by
  have sorted : (sortSamples samples).Perm samples := List.perm_insertionSort _ _
  have packed : ((packBins samples maxSeqLen).flatMap MicroBatchBin.samples).Perm samples := by
    rw [List.flatMap_def, pack_bins_eq_pack]
    exact (FirstFit.pack_perm _ _).trans sorted
  rw [batchBins]
  split
  · exact (expand_from_every _ binCost _ _).trans packed
  · exact packed

end PrimeRl.Trainer.Batch
