import PrimeRl.Trainer.Rows

/-!
# Materialized, padded and dummy rows

A packed bin materializes into an aligned row whose segments are its samples.
Tail padding adds one inert segment, and a dummy row consists of inert segments
alone, so neither adds to the loss tokens.
-/

namespace PrimeRl.Trainer.Batch

open PrimeRl.Transport

variable {Scalar : Type}

/-- Payloads with rows of the same two dimensions and element type. -/
def SameRows (first second : RoutedExperts) : Prop :=
  first.dtype = second.dtype ∧
    ∃ layers topk, first.shape.drop 1 = [layers, topk] ∧ second.shape.drop 1 = [layers, topk]

/-- All routed experts have rows of one shape and element type. -/
def UniformExperts (listed : List (Option RoutedExperts)) : Prop :=
  ∀ first second, some first ∈ listed → some second ∈ listed → SameRows first second

/-- Checked rows of one shape and element type. -/
def SameRowType (first second : ExpertRows) : Prop :=
  first.dtype = second.dtype ∧ first.layers = second.layers ∧ first.topk = second.topk ∧
    first.inner = second.inner

/-- All checked rows are of one shape and element type. -/
def UniformRows (listed : List (Option ExpertRows)) : Prop :=
  ∀ first second, some first ∈ listed → some second ∈ listed → SameRowType first second

def totalTokens (samples : List (Slotted Scalar)) : Nat := (samples.map tokenCount).sum

/-! ## Materialized rows -/

/-- Appending experts with rows of one shape appends their rows. -/
theorem stack_experts_some (stacked : ExpertRows) (samples : List (Slotted Scalar))
    (aligned : ∀ sample ∈ samples, ∃ experts, sample.2.routedExperts = some experts ∧
      SameRowType stacked experts ∧ experts.seqLen = tokenCount sample ∧
      experts.data.length = tokenCount sample * routedExpertsRowSize experts)
    (whole : stacked.data.length = stacked.seqLen * routedExpertsRowSize stacked) :
    ∃ result, stackExperts (some stacked) samples = .ok (some result) ∧
      result.seqLen = stacked.seqLen + totalTokens samples ∧
      result.data.length = result.seqLen * routedExpertsRowSize result := by
  induction samples generalizing stacked with
  | nil => exact ⟨stacked, rfl, rfl, whole⟩
  | cons sample rest inductionHypothesis =>
    obtain ⟨experts, present, ⟨dtype, layers, topk, inner⟩, rows, bytes⟩ :=
      aligned sample List.mem_cons_self
    obtain ⟨next, isNext⟩ : ∃ next : ExpertRows, next = { stacked with
      data := stacked.data ++ experts.data
      seqLen := stacked.seqLen + experts.seqLen } := ⟨_, rfl⟩
    have sameRow : routedExpertsRowSize experts = routedExpertsRowSize stacked := by
      simp only [routedExpertsRowSize, dtype, layers, topk]
    have step : stackExperts (some stacked) (sample :: rest) = stackExperts (some next) rest := by
      simp only [stackExperts, present, dtype, layers, topk, inner, ne_eq, not_true_eq_false,
        if_false, isNext]
    have nextWhole : next.data.length = next.seqLen * routedExpertsRowSize next := by
      have nextRow : routedExpertsRowSize next = routedExpertsRowSize stacked := by
        rw [isNext]
        rfl
      rw [nextRow, isNext]
      simp only [List.length_append, whole, bytes, sameRow, rows, Nat.add_mul]
    obtain ⟨result, stackedRest, total, resultBytes⟩ := inductionHypothesis next
      (by
        intro other member
        rw [isNext]
        exact aligned other (List.mem_cons_of_mem sample member))
      nextWhole
    refine ⟨result, step.trans stackedRest, ?_, resultBytes⟩
    rw [total, isNext]
    simp only [rows, totalTokens, List.map_cons, List.sum_cons, Nat.add_assoc]

theorem stack_experts_none (samples : List (Slotted Scalar))
    (absent : ∀ sample ∈ samples, sample.2.routedExperts = none) :
    stackExperts none samples = .ok none := by
  induction samples with
  | nil => rfl
  | cons sample rest inductionHypothesis =>
    simp only [stackExperts, absent sample List.mem_cons_self]
    exact inductionHypothesis (fun other member => absent other (List.mem_cons_of_mem sample member))

/-- The experts of a packed row: all samples carry them or none does. -/
theorem stack_experts_aligned (maxSeqLen : Nat) (samples : List (Slotted Scalar))
    (packed : Packed maxSeqLen samples)
    (aligned : ∀ sample ∈ samples, ExpertsAligned sample.2.routedExperts (tokenCount sample))
    (uniform : UniformRows (samples.map (fun sample => sample.2.routedExperts))) :
    ∃ experts, stackExperts none samples = .ok experts ∧
      ExpertsAligned experts (totalTokens samples) := by
  cases samples with
  | nil => exact absurd rfl packed.nonempty
  | cons first rest =>
    cases carried : first.2.routedExperts with
    | none =>
      refine ⟨none, stack_experts_none _ ?_, nofun⟩
      intro sample member
      have same := packed.experts sample member first List.mem_cons_self
      rw [carried] at same
      exact Option.isNone_iff_eq_none.mp same
    | some experts =>
      have listed (sample : Slotted Scalar) (member : sample ∈ first :: rest) :
          ∃ own, sample.2.routedExperts = some own ∧ SameRowType experts own ∧
            own.seqLen = tokenCount sample ∧
            own.data.length = tokenCount sample * routedExpertsRowSize own := by
        have same := packed.experts sample member first List.mem_cons_self
        rw [carried] at same
        cases present : sample.2.routedExperts with
        | none =>
          rw [present] at same
          simp at same
        | some own =>
          obtain ⟨rows, bytes⟩ := aligned sample member own present
          refine ⟨own, rfl, uniform experts own ?_ ?_, rows, bytes⟩
          · exact List.mem_map.mpr ⟨first, List.mem_cons_self, carried⟩
          · exact List.mem_map.mpr ⟨sample, member, present⟩
      obtain ⟨rows, bytes⟩ := aligned first List.mem_cons_self experts carried
      obtain ⟨result, stacked, total, resultBytes⟩ := stack_experts_some experts rest
        (fun sample member => listed sample (List.mem_cons_of_mem first member))
        (by rw [bytes, rows])
      refine ⟨some result, ?_, ?_⟩
      · simp only [stackExperts, carried, stacked]
      · rintro other ⟨rfl⟩
        have count : totalTokens (first :: rest) = result.seqLen := by
          rw [total, rows, totalTokens, totalTokens, List.map_cons, List.sum_cons]
        rw [count]
        exact ⟨rfl, resultBytes⟩

/-- Streams of samples one after the other have as many values as tokens. -/
theorem stacked_length {Value : Type} (stream : Slotted Scalar → List Value)
    (samples : List (Slotted Scalar))
    (aligned : ∀ sample ∈ samples, (stream sample).length = tokenCount sample) :
    (samples.flatMap stream).length = totalTokens samples := by
  rw [List.length_flatMap, totalTokens]
  congr 1
  exact List.map_congr_left aligned

theorem stack_stream_aligned {Value : Type} (stream : MicroBatch Scalar → Option (List Value))
    (fill : Value) (samples : List (Slotted Scalar))
    (aligned : ∀ sample ∈ samples, StreamAligned (stream sample.2) (tokenCount sample)) :
    StreamAligned (stackStream stream fill samples) (totalTokens samples) := by
  intro values stacked
  rw [stackStream] at stacked
  obtain ⟨-, same⟩ := Option.ite_none_right_eq_some.mp stacked
  rw [← Option.some.inj same]
  apply stacked_length
  intro sample member
  cases present : stream sample.2 with
  | none => exact List.length_replicate
  | some own => exact aligned sample member own present

/-- The joined bytes of payloads read as their steps one after the other. -/
theorem chunks_read (samples : List (Slotted Scalar)) (steps : Slotted Scalar → List Int)
    (read : ∀ sample ∈ samples,
      versionsOf sample.2.tokenPolicyVersions (tokenCount sample) = .ok (steps sample)) :
    (samples.flatMap (fun sample =>
        versionBytes sample.2.tokenPolicyVersions (tokenCount sample))).length =
      8 * totalTokens samples ∧
    SignedWord.readWords (totalTokens samples) (samples.flatMap (fun sample =>
        versionBytes sample.2.tokenPolicyVersions (tokenCount sample))) = samples.flatMap steps := by
  induction samples with
  | nil => exact ⟨rfl, rfl⟩
  | cons sample rest inductionHypothesis =>
    obtain ⟨here, later⟩ := List.forall_mem_cons.mp read
    obtain ⟨restLength, restRead⟩ := inductionHypothesis later
    obtain ⟨length, own⟩ := version_bytes_read here
    have total : totalTokens (sample :: rest) = tokenCount sample + totalTokens rest := by
      rw [totalTokens, List.map_cons, List.sum_cons, totalTokens]
    rw [List.flatMap_cons, List.flatMap_cons, total]
    constructor
    · rw [List.length_append, length, restLength, Nat.mul_add]
    · rw [SignedWord.readWords_append _ _ _ _ length, own, restRead]

/-- A row stands for the steps of its samples, unknown where one carries none. -/
theorem stack_versions_read (samples : List (Slotted Scalar)) (steps : Slotted Scalar → List Int)
    (read : ∀ sample ∈ samples,
      versionsOf sample.2.tokenPolicyVersions (tokenCount sample) = .ok (steps sample)) :
    versionsOf (stackVersions samples) (totalTokens samples) = .ok (samples.flatMap steps) := by
  have count : (samples.flatMap (fun sample => sample.2.inputIds)).length = totalTokens samples :=
    stacked_length _ samples (fun _ _ => rfl)
  obtain ⟨length, words⟩ := chunks_read samples steps read
  have valid : ∀ value ∈ samples.flatMap steps, -1 ≤ value := by
    intro value member
    obtain ⟨sample, inside, listed⟩ := List.mem_flatMap.mp member
    exact ((versions_words (read sample inside)).2 value listed).2
  by_cases carried : samples.any (fun sample => sample.2.tokenPolicyVersions.isSome) = true
  · rw [stackVersions, if_pos carried, count]
    exact bytes_carry length words valid
  · have filled : samples.flatMap (fun sample =>
        versionBytes sample.2.tokenPolicyVersions (tokenCount sample)) =
        List.replicate (8 * totalTokens samples) 255 := by
      refine List.eq_replicate_iff.mpr ⟨length, ?_⟩
      intro byte member
      obtain ⟨sample, inside, listed⟩ := List.mem_flatMap.mp member
      cases present : sample.2.tokenPolicyVersions with
      | none =>
        rw [present] at listed
        exact List.eq_of_mem_replicate listed
      | some tensor =>
        exact absurd (List.any_eq_true.mpr ⟨sample, inside, by rw [present]; rfl⟩) carried
    rw [filled, SignedWord.readWords_filler] at words
    rw [stackVersions, if_neg carried, ← words]
    rfl

theorem stack_versions_aligned (samples : List (Slotted Scalar))
    (aligned : ∀ sample ∈ samples,
      VersionsAligned sample.2.tokenPolicyVersions (tokenCount sample)) :
    VersionsAligned (stackVersions samples) (totalTokens samples) := by
  let steps (sample : Slotted Scalar) : List Int :=
    (versionsOf sample.2.tokenPolicyVersions (tokenCount sample)).toOption.getD []
  refine ⟨samples.flatMap steps, stack_versions_read samples steps ?_⟩
  intro sample member
  obtain ⟨values, read⟩ := aligned sample member
  simp only [steps, read]
  rfl

/-- A stream does not materialize when no sample carries it. -/
theorem stack_stream_none {Value : Type} (stream : MicroBatch Scalar → Option (List Value))
    (fill : Value) (samples : List (Slotted Scalar)) :
    stackStream stream fill samples = none ↔ ∀ sample ∈ samples, stream sample.2 = none := by
  rw [stackStream]
  by_cases carried : samples.any (fun sample => (stream sample.2).isSome) = true
  · obtain ⟨sample, member, present⟩ := List.any_eq_true.mp carried
    rw [if_pos carried]
    refine iff_of_false (Option.some_ne_none _) (fun absent => ?_)
    rw [absent sample member] at present
    cases present
  · rw [if_neg carried]
    refine iff_of_true rfl (fun sample member => ?_)
    cases present : stream sample.2 with
    | none => rfl
    | some values =>
      exact absurd (List.any_eq_true.mpr ⟨sample, member, by rw [present]; rfl⟩) carried

section Rows
variable [Zero Scalar] [One Scalar]

omit [Zero Scalar] [One Scalar] in
/-- Reading a materialized stream reads the streams of the samples. -/
theorem stack_stream_read (stream : MicroBatch Scalar → Option (List Scalar)) (fill : Scalar)
    (samples : List (Slotted Scalar)) :
    (weightColumn (stackStream stream fill samples) (totalTokens samples)).map
        (fun weight => some (weight.getD fill)) =
      samples.flatMap (fun sample =>
        (weightColumn (stream sample.2) (tokenCount sample)).map
          (fun weight => some (weight.getD fill))) := by
  have own (sample : Slotted Scalar) :
      (weightColumn (stream sample.2) (tokenCount sample)).map
          (fun weight => some (weight.getD fill)) =
        ((stream sample.2).getD (List.replicate (tokenCount sample) fill)).map some := by
    cases stream sample.2 with
    | none => simp [weightColumn]
    | some values => simp [weightColumn]
  simp only [own]
  cases stacked : stackStream stream fill samples with
  | some values =>
    rw [stackStream] at stacked
    obtain ⟨-, same⟩ := Option.ite_none_right_eq_some.mp stacked
    obtain rfl := Option.some.inj same
    dsimp only [weightColumn]
    rw [List.map_map, List.map_flatMap]
    rfl
  | none =>
    have absent := (stack_stream_none stream fill samples).mp stacked
    dsimp only [weightColumn]
    clear stacked own
    induction samples with
    | nil => rfl
    | cons sample rest inductionHypothesis =>
      have tail := inductionHypothesis
        (fun other member => absent other (List.mem_cons_of_mem sample member))
      rw [List.flatMap_cons, ← tail, absent sample List.mem_cons_self, totalTokens, List.map_cons,
        List.sum_cons, ← totalTokens]
      simp [List.replicate_append_replicate]

variable (first : Slotted Scalar) (samples : List (Slotted Scalar))
  (experts : Option ExpertRows) (numLoras : Nat)

theorem stack_input_length :
    (stackSamples first samples experts numLoras).inputIds.length = totalTokens samples :=
  stacked_length _ samples (fun _ _ => rfl)

theorem stack_aligned (aligned : ∀ sample ∈ samples, AlignedRow sample.2)
    (expertsAligned : ExpertsAligned experts (totalTokens samples)) :
    AlignedRow (stackSamples first samples experts numLoras) := by
  have count := stack_input_length first samples experts numLoras
  constructor
  case sequenceLengths => exact count.symm
  all_goals rw [count]
  case lossMask => exact stacked_length _ samples (fun sample inside => (aligned sample inside).lossMask)
  case advantages =>
    exact stacked_length _ samples (fun sample inside => (aligned sample inside).advantages)
  case inferenceLogprobs =>
    exact stacked_length _ samples (fun sample inside => (aligned sample inside).inferenceLogprobs)
  case positionIds =>
    exact stacked_length _ samples (fun sample inside => (aligned sample inside).positionIds)
  case temperatures =>
    exact stacked_length _ samples (fun sample inside => (aligned sample inside).temperatures)
  case envNames => exact stacked_length _ samples (fun sample inside => (aligned sample inside).envNames)
  case refLogprobs =>
    exact stack_stream_aligned _ _ samples (fun sample inside => (aligned sample inside).refLogprobs)
  case rlWeights =>
    exact stack_stream_aligned _ _ samples (fun sample inside => (aligned sample inside).rlWeights)
  case ceWeights =>
    exact stack_stream_aligned _ _ samples (fun sample inside => (aligned sample inside).ceWeights)
  case refKlWeights =>
    exact stack_stream_aligned _ _ samples (fun sample inside => (aligned sample inside).refKlWeights)
  case mmTokenTypeIds =>
    exact stack_stream_aligned _ _ samples (fun sample inside => (aligned sample inside).mmTokenTypeIds)
  case tokenPolicyVersions =>
    exact stack_versions_aligned samples
      (fun sample inside => (aligned sample inside).tokenPolicyVersions)
  case routedExperts => exact expertsAligned

/-- The segments of a materialized row read as its samples, in order. -/
theorem stack_segments (aligned : ∀ sample ∈ samples, AlignedRow sample.2) :
    (segments (stackSamples first samples experts numLoras)).map Segment.read =
      samples.map (fun sample => (columns sample.2).read) := by
  have count := stack_input_length first samples experts numLoras
  have joined : (columns (stackSamples first samples experts numLoras)).read =
      Segment.join (samples.map (fun sample => (columns sample.2).read)) := by
    simp only [Segment.read, columns, count]
    simp only [Segment.join, List.flatMap_map, stackSamples, stack_stream_read]
    rfl
  have sizes : (stackSamples first samples experts numLoras).sequenceLengths =
      (samples.map (fun sample => (columns sample.2).read)).map Segment.size := by
    rw [List.map_map]
    rfl
  rw [segments, Segment.split_read, joined, sizes, Segment.split_join]
  intro segment member
  obtain ⟨sample, inside, rfl⟩ := List.mem_map.mp member
  exact Segment.read_aligned _ (columns_aligned _ (aligned sample inside))

/-! ## Padding and dummies -/

/-- The tokens that padding adds to a row. -/
def paddingSegment (row : MicroBatch Scalar) (padding : Nat) : Segment Scalar where
  tokenIds := List.replicate padding 1
  lossMask := List.replicate padding false
  advantages := List.replicate padding 0
  logprobs := List.replicate padding 0
  positionIds := List.range padding
  temperatures := List.replicate padding 1
  envNames := List.replicate padding ""
  refLogprobs := weightColumn (row.refLogprobs.map (fun _ => List.replicate padding 0)) padding
  rlWeights := weightColumn (row.rlWeights.map (fun _ => List.replicate padding 0)) padding
  ceWeights := weightColumn (row.ceWeights.map (fun _ => List.replicate padding 0)) padding
  refKlWeights := weightColumn (row.refKlWeights.map (fun _ => List.replicate padding 0)) padding

omit [One Scalar] in
theorem padded_column (stream : Option (List Scalar)) (numTokens padding : Nat) :
    weightColumn (stream.map (· ++ List.replicate padding 0)) (numTokens + padding) =
      weightColumn stream numTokens ++
        weightColumn (stream.map (fun _ => List.replicate padding 0)) padding := by
  cases stream with
  | none => simp [weightColumn, List.replicate_append_replicate]
  | some values => simp [weightColumn]

omit [One Scalar] in
theorem zero_column (stream : Option (List Scalar)) (padding : Nat) :
    ∀ weight ∈ weightColumn (stream.map (fun _ => List.replicate padding (0 : Scalar))) padding,
      weight = none ∨ weight = some 0 := by
  intro weight member
  cases stream with
  | none => exact .inl (List.eq_of_mem_replicate member)
  | some values =>
    obtain ⟨zero, inside, rfl⟩ := List.mem_map.mp member
    exact .inr (congrArg some (List.eq_of_mem_replicate inside))

theorem padding_inert (row : MicroBatch Scalar) (padding : Nat) :
    (paddingSegment row padding).Inert where
  masked := fun _ member => List.eq_of_mem_replicate member
  rlWeights := zero_column row.rlWeights padding
  ceWeights := zero_column row.ceWeights padding
  refKlWeights := zero_column row.refKlWeights padding

omit [One Scalar] in
theorem padding_stream_length (stream : Option (List Scalar)) (padding : Nat) :
    (weightColumn (stream.map (fun _ => List.replicate padding (0 : Scalar))) padding).length =
      padding := by
  apply weight_column_length
  intro values present
  obtain ⟨_, _, rfl⟩ := Option.map_eq_some_iff.mp present
  exact List.length_replicate

theorem padding_aligned (row : MicroBatch Scalar) (padding : Nat) :
    (paddingSegment row padding).Aligned := by
  have size : (paddingSegment row padding).size = padding := List.length_replicate
  constructor <;> rw [size]
  case positionIds => exact List.length_range
  case refLogprobs => exact padding_stream_length row.refLogprobs padding
  case rlWeights => exact padding_stream_length row.rlWeights padding
  case ceWeights => exact padding_stream_length row.ceWeights padding
  case refKlWeights => exact padding_stream_length row.refKlWeights padding
  all_goals exact List.length_replicate

/-- Padding appends one inert segment. -/
theorem append_padding_segments (row : MicroBatch Scalar) (padding : Nat)
    (aligned : AlignedRow row) :
    segments (appendPadding row padding) = segments row ++ [paddingSegment row padding] := by
  have appended : columns (appendPadding row padding) =
      (columns row).append (paddingSegment row padding) := by
    simp only [columns, appendPadding, Segment.append, paddingSegment, List.length_append,
      List.length_replicate, padded_column]
  have sizes : (appendPadding row padding).sequenceLengths = row.sequenceLengths ++ [padding] := rfl
  have whole : row.sequenceLengths.sum = (columns row).size := aligned.sequenceLengths
  have size : (paddingSegment row padding).size = padding := List.length_replicate
  have single := Segment.split_size _ (padding_aligned row padding)
  rw [size] at single
  rw [segments, segments, appended, sizes, Segment.split_append _ _ _ _ (columns_aligned row aligned)
    whole, whole, Segment.drop_size_append _ _ (columns_aligned row aligned), single]

omit [Zero Scalar] [One Scalar] in
theorem padded_stream_aligned {Value : Type} (stream : Option (List Value)) (fill : Value)
    (numTokens padding : Nat) (aligned : StreamAligned stream numTokens) :
    StreamAligned (stream.map (· ++ List.replicate padding fill)) (numTokens + padding) := by
  intro values padded
  obtain ⟨own, present, rfl⟩ := Option.map_eq_some_iff.mp padded
  rw [List.length_append, aligned own present, List.length_replicate]

/-- Padding stands for unknown steps behind those of the row. -/
theorem append_padding_versions (row : MicroBatch Scalar) (padding : Nat) {values : List Int}
    (read : versionsOf row.tokenPolicyVersions row.inputIds.length = .ok values) :
    versionsOf (appendPadding row padding).tokenPolicyVersions (row.inputIds.length + padding) =
      .ok (values ++ List.replicate padding (-1)) := by
  cases present : row.tokenPolicyVersions with
  | none =>
    rw [present] at read
    obtain rfl := Except.ok.inj read
    rw [appendPadding, present, List.replicate_append_replicate]
    rfl
  | some tensor =>
    obtain ⟨length, words⟩ := version_bytes_read read
    rw [present] at length words
    dsimp only [versionBytes] at length words
    have valid := (versions_words read).2
    rw [appendPadding, present]
    apply bytes_carry
    · rw [List.length_append, length, List.length_replicate, Nat.mul_add]
    · rw [SignedWord.readWords_append _ _ _ _ length, SignedWord.readWords_filler, words]
    · intro value member
      rcases List.mem_append.mp member with known | filled
      · exact (valid value known).2
      · exact (List.eq_of_mem_replicate filled).ge

theorem append_padding_aligned (row : MicroBatch Scalar) (padding : Nat)
    (aligned : AlignedRow row) : AlignedRow (appendPadding row padding) := by
  have count : (appendPadding row padding).inputIds.length = row.inputIds.length + padding := by
    rw [appendPadding, List.length_append, List.length_replicate]
  constructor <;> rw [count]
  case lossMask => rw [appendPadding, List.length_append, aligned.lossMask, List.length_replicate]
  case advantages =>
    rw [appendPadding, List.length_append, aligned.advantages, List.length_replicate]
  case inferenceLogprobs =>
    rw [appendPadding, List.length_append, aligned.inferenceLogprobs, List.length_replicate]
  case positionIds => rw [appendPadding, List.length_append, aligned.positionIds, List.length_range]
  case temperatures =>
    rw [appendPadding, List.length_append, aligned.temperatures, List.length_replicate]
  case envNames => rw [appendPadding, List.length_append, aligned.envNames, List.length_replicate]
  case refLogprobs => exact padded_stream_aligned _ _ _ _ aligned.refLogprobs
  case rlWeights => exact padded_stream_aligned _ _ _ _ aligned.rlWeights
  case ceWeights => exact padded_stream_aligned _ _ _ _ aligned.ceWeights
  case refKlWeights => exact padded_stream_aligned _ _ _ _ aligned.refKlWeights
  case mmTokenTypeIds => exact padded_stream_aligned _ _ _ _ aligned.mmTokenTypeIds
  case tokenPolicyVersions =>
    obtain ⟨values, read⟩ := aligned.tokenPolicyVersions
    exact ⟨_, append_padding_versions row padding read⟩
  case routedExperts =>
    intro padded present
    obtain ⟨own, carried, rfl⟩ := Option.map_eq_some_iff.mp present
    obtain ⟨rows, bytes⟩ := aligned.routedExperts own carried
    have sameRow : routedExpertsRowSize (padRoutedExperts own padding) = routedExpertsRowSize own :=
      rfl
    refine ⟨by rw [padRoutedExperts, rows], ?_⟩
    rw [sameRow, padRoutedExperts, List.length_append, List.length_replicate, bytes, Nat.add_mul]
  case sequenceLengths =>
    rw [appendPadding, List.sum_append, List.sum_singleton, aligned.sequenceLengths]

omit [Zero Scalar] [One Scalar] in
theorem padding_size_fills (numTokens padToMultipleOf : Nat) (positive : 1 ≤ padToMultipleOf) :
    padToMultipleOf ∣ numTokens + paddingSize numTokens padToMultipleOf ∧
      (paddingSize numTokens padToMultipleOf = 0 → padToMultipleOf ∣ numTokens) := by
  have below := Nat.mod_lt numTokens positive
  have divided := Nat.div_add_mod numTokens padToMultipleOf
  rw [paddingSize]
  rcases Nat.eq_zero_or_pos (numTokens % padToMultipleOf) with even | uneven
  · rw [even, Nat.sub_zero, Nat.mod_self, Nat.add_zero]
    exact ⟨Nat.dvd_of_mod_eq_zero even, fun _ => Nat.dvd_of_mod_eq_zero even⟩
  · rw [Nat.mod_eq_of_lt (by omega)]
    refine ⟨⟨numTokens / padToMultipleOf + 1, ?_⟩, fun none => by omega⟩
    rw [Nat.mul_add, Nat.mul_one]
    omega

/-- Padding leaves a row as it is or appends tokens to it. -/
theorem pad_micro_batch_cases {row padded : MicroBatch Scalar} {padToMultipleOf : Nat}
    (computed : padMicroBatch row padToMultipleOf = .ok padded) :
    padded = row ∨ ∃ padding, padded = appendPadding row padding := by
  rw [padMicroBatch] at computed
  split at computed
  · cases computed
  · split at computed
    · cases computed
    · split at computed
      · exact .inl (Except.ok.inj computed).symm
      · exact .inr ⟨_, (Except.ok.inj computed).symm⟩

/-- A row and what padding makes of it: at most one inert segment more, up to a
multiple of the padding length. -/
structure PaddedTo (padToMultipleOf : Nat) (row padded : MicroBatch Scalar) : Prop where
  computed : padMicroBatch row padToMultipleOf = .ok padded
  aligned : AlignedRow padded
  multiple : padToMultipleOf ∣ padded.inputIds.length
  modality : padded.mmKwargs = row.mmKwargs
  tail : ∃ inert, (∀ segment ∈ inert, segment.Inert) ∧ segments padded = segments row ++ inert

theorem pad_micro_batch_pads (row : MicroBatch Scalar) (padToMultipleOf : Nat)
    (positive : 1 ≤ padToMultipleOf) (aligned : AlignedRow row) :
    ∃ padded, PaddedTo padToMultipleOf row padded := by
  have versions := (check_versions_iff _ _).mpr aligned.tokenPolicyVersions
  obtain ⟨filled, whole⟩ := padding_size_fills row.inputIds.length padToMultipleOf positive
  by_cases pads : 1 < padToMultipleOf ∧ 0 < paddingSize row.inputIds.length padToMultipleOf
  · refine ⟨appendPadding row (paddingSize row.inputIds.length padToMultipleOf), ?_⟩
    constructor
    case computed =>
      simp only [padMicroBatch, aligned.envNames, ne_eq, not_true_eq_false, if_false, versions,
        pads, and_self]
    case aligned => exact append_padding_aligned row _ aligned
    case multiple =>
      rw [appendPadding, List.length_append, List.length_replicate]
      exact filled
    case modality => rfl
    case tail =>
      refine ⟨[_], ?_, append_padding_segments row _ aligned⟩
      intro segment member
      rw [List.mem_singleton.mp member]
      exact padding_inert row _
  · refine ⟨row, ?_⟩
    constructor
    case computed =>
      simp only [padMicroBatch, aligned.envNames, ne_eq, not_true_eq_false, if_false, versions,
        pads, not_false_eq_true, if_true]
    case aligned => exact aligned
    case multiple =>
      rcases Nat.lt_or_ge 1 padToMultipleOf with several | one
      · exact whole (by omega)
      · obtain rfl : padToMultipleOf = 1 := by omega
        exact Nat.one_dvd _
    case modality => rfl
    case tail =>
      exact ⟨[], fun segment impossible => absurd impossible List.not_mem_nil,
        (List.append_nil _).symm⟩

omit [One Scalar] in
theorem dummy_aligned (source : MicroBatch Scalar) (aligned : AlignedRow source) :
    AlignedRow (makeDummyBatch source) :=
  { aligned with
    lossMask := List.length_replicate
    advantages := List.length_replicate
    rlWeights := nofun
    ceWeights := nofun
    refKlWeights := nofun
    tokenPolicyVersions := ⟨_, rfl⟩ }

omit [One Scalar] in
/-- A dummy trains no token. -/
theorem dummy_inert (source : MicroBatch Scalar) :
    ∀ segment ∈ segments (makeDummyBatch source), segment.Inert := by
  apply Segment.inert_split
  constructor
  case masked => exact fun _ member => List.eq_of_mem_replicate member
  all_goals exact fun _ member => .inl (List.eq_of_mem_replicate member)

end Rows

end PrimeRl.Trainer.Batch
