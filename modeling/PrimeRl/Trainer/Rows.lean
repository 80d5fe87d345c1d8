import Mathlib.Algebra.Ring.Int.Defs
import Mathlib.Algebra.Ring.Nat
import PrimeRl.Trainer.Bins
import PrimeRl.Trainer.Segments

/-!
# Rows carry their samples

A prepared sample is the sample cut to its length, a materialized bin lists its
samples one after the other, a tail of padding and a dummy add only inert
tokens, and through all of it every stream stays aligned with the tokens.
-/

namespace PrimeRl.Trainer.Batch

open PrimeRl.Transport

variable {Scalar : Type}

/-- A present stream has a value for each token. -/
def StreamAligned {Value : Type} (stream : Option (List Value)) (numTokens : Nat) : Prop :=
  ∀ values, stream = some values → values.length = numTokens

/-- A payload stands for one valid policy version for each token. -/
def VersionsAligned (payload : Option EncodedTensor) (numTokens : Nat) : Prop :=
  ∃ values, versionsOf payload numTokens = .ok values

/-- Present routed experts have a row for each token. -/
def ExpertsAligned (experts : Option ExpertRows) (numTokens : Nat) : Prop :=
  ∀ listed, experts = some listed → listed.seqLen = numTokens ∧
    listed.data.length = numTokens * routedExpertsRowSize listed

/-- A present payload of routed experts lists a row of known type for each token. -/
def ExpertsListed (experts : Option RoutedExperts) (numTokens : Nat) : Prop :=
  ∀ listed, experts = some listed → ∃ layers topk inner dtype,
    listed.shape = (numTokens : Int) :: layers :: topk :: inner ∧
      ExpertsDtype.ofName listed.dtype = some dtype ∧
      (listed.data.length : Int) = numTokens * rowSize layers topk dtype

/-- Every per-token array of a row has the length of its tokens. -/
structure AlignedRow (row : MicroBatch Scalar) : Prop where
  lossMask : row.lossMask.length = row.inputIds.length
  advantages : row.advantages.length = row.inputIds.length
  inferenceLogprobs : row.inferenceLogprobs.length = row.inputIds.length
  positionIds : row.positionIds.length = row.inputIds.length
  temperatures : row.temperatures.length = row.inputIds.length
  envNames : row.envNames.length = row.inputIds.length
  refLogprobs : StreamAligned row.refLogprobs row.inputIds.length
  rlWeights : StreamAligned row.rlWeights row.inputIds.length
  ceWeights : StreamAligned row.ceWeights row.inputIds.length
  refKlWeights : StreamAligned row.refKlWeights row.inputIds.length
  mmTokenTypeIds : StreamAligned row.mmTokenTypeIds row.inputIds.length
  tokenPolicyVersions : VersionsAligned row.tokenPolicyVersions row.inputIds.length
  routedExperts : ExpertsAligned row.routedExperts row.inputIds.length
  sequenceLengths : row.sequenceLengths.sum = row.inputIds.length

theorem stream_fits_iff {Value : Type} (stream : Option (List Value)) (numTokens : Nat) :
    streamFits stream numTokens = true ↔ StreamAligned stream numTokens := by
  cases stream <;> simp [streamFits, StreamAligned]

/-- A payload has the type of its rows when it has both dimensions and a known element type. -/
theorem row_type_ok (experts : RoutedExperts) (layers topk : Int) (dtype : ExpertsDtype) :
    rowType experts = .ok (layers, topk, dtype) ↔
      (∃ rows inner, experts.shape = rows :: layers :: topk :: inner) ∧
        ExpertsDtype.ofName experts.dtype = some dtype := by
  rw [rowType]
  split
  · rename_i rows layers' topk' inner listed
    cases known : ExpertsDtype.ofName experts.dtype with
    | none => exact iff_of_false nofun (fun both => nomatch both.2)
    | some dtype' => simp [listed, and_assoc]
  · rename_i short
    refine iff_of_false nofun ?_
    rintro ⟨⟨rows, inner, listed⟩, -⟩
    exact short rows layers topk inner listed

/-- What the assertions on routed experts say. -/
theorem assert_experts_ok (experts : RoutedExperts) (numTokens : Nat) (rows : ExpertRows) :
    assertExperts experts numTokens = .ok rows ↔
      ∃ layers topk inner dtype, experts.shape = (numTokens : Int) :: layers :: topk :: inner ∧
        ExpertsDtype.ofName experts.dtype = some dtype ∧
        (experts.data.length : Int) = numTokens * rowSize layers topk dtype ∧
        rows = ⟨experts.data, numTokens, layers, topk, inner, dtype⟩ := by
  rw [assertExperts]
  cases listed : experts.shape with
  | nil => simp
  | cons count rest =>
    dsimp only
    rw [Fallible.check_passed_iff, Decidable.not_not]
    cases typed : rowType experts with
    | error message =>
      refine iff_of_false (fun passed => nomatch passed.2) ?_
      rintro ⟨layers, topk, inner, dtype, shape, known, -⟩
      have typed' := (row_type_ok experts layers topk dtype).mpr ⟨⟨_, inner, listed.trans shape⟩, known⟩
      exact nomatch typed.symm.trans typed'
    | ok row =>
      obtain ⟨layers, topk, dtype⟩ := row
      obtain ⟨⟨count', inner, shape⟩, known⟩ := (row_type_ok experts layers topk dtype).mp typed
      obtain ⟨rfl, rfl⟩ := List.cons.inj (listed.symm.trans shape)
      dsimp only
      rw [Fallible.check_passed_iff, Decidable.not_not, Except.ok.injEq]
      constructor
      · rintro ⟨rfl, bytes, rfl⟩
        exact ⟨layers, topk, inner, dtype, rfl, known, bytes, rfl⟩
      · rintro ⟨layers', topk', inner', dtype', shape', known', bytes, rfl⟩
        obtain ⟨rfl, rest⟩ := List.cons.inj shape'
        obtain ⟨sameLayers, rest⟩ := List.cons.inj rest
        obtain ⟨sameTopk, sameInner⟩ := List.cons.inj rest
        obtain rfl := Option.some.inj (known.symm.trans known')
        subst sameLayers sameTopk sameInner
        exact ⟨rfl, bytes, rfl⟩

/-- A payload of rows has no row of negative size. -/
theorem row_size_nonneg {bytes numTokens : Nat} {size : Int}
    (fits : (bytes : Int) = numTokens * size) : bytes = numTokens * size.toNat := by
  rcases Int.le_total 0 size with nonneg | negative
  · apply Int.ofNat.inj
    rw [Int.ofNat_eq_natCast, Int.ofNat_eq_natCast, fits, Nat.cast_mul, Int.toNat_of_nonneg nonneg]
  · have atMost : (numTokens : Int) * size ≤ 0 :=
      Int.mul_nonpos_of_nonneg_of_nonpos (Int.natCast_nonneg _) negative
    have empty : bytes = 0 := by omega
    rw [empty, Int.toNat_of_nonpos negative, Nat.mul_zero]

/-- The experts of a sample pass their assertions exactly when they list a row for each token. -/
theorem assert_rows_iff (experts : Option RoutedExperts) (numTokens : Nat) :
    (∃ rows, assertRows experts numTokens = .ok rows) ↔ ExpertsListed experts numTokens := by
  cases experts with
  | none => exact iff_of_true ⟨none, rfl⟩ nofun
  | some experts =>
    constructor
    · rintro ⟨rows, asserted⟩ listed ⟨rfl⟩
      obtain ⟨own, passed, rfl⟩ := Fallible.map_ok asserted
      obtain ⟨layers, topk, inner, dtype, shape, known, bytes, -⟩ :=
        (assert_experts_ok experts numTokens own).mp passed
      exact ⟨layers, topk, inner, dtype, shape, known, bytes⟩
    · intro listed
      obtain ⟨layers, topk, inner, dtype, shape, known, bytes⟩ := listed experts rfl
      have passed := (assert_experts_ok experts numTokens _).mpr
        ⟨layers, topk, inner, dtype, shape, known, bytes, rfl⟩
      exact ⟨_, congrArg (Except.map some) passed⟩

/-- The bytes of the first rows of a payload. -/
theorem take_bytes_length (data : List UInt8) {cut numTokens : Nat} {size : Int}
    (inside : cut ≤ numTokens) (fits : (data.length : Int) = numTokens * size) :
    ((takeBytes data (cut * size)).length : Int) = cut * size := by
  rcases lt_or_ge size 0 with negative | nonneg
  · -- rows of negative size are only counted when there are none
    have atMost : (numTokens : Int) * size ≤ 0 :=
      Int.mul_nonpos_of_nonneg_of_nonpos (Int.natCast_nonneg _) negative.le
    have none : numTokens = 0 := by
      have zero : (numTokens : Int) * size = 0 := by omega
      rcases Int.mul_eq_zero.mp zero with empty | flat
      · exact Int.natCast_eq_zero.mp empty
      · omega
    obtain rfl : cut = 0 := by omega
    simp [takeBytes]
  · have less : (cut : Int) * size ≤ numTokens * size :=
      Int.mul_le_mul_of_nonneg_right (Int.ofNat_le.mpr inside) nonneg
    have counted : (0 : Int) ≤ cut * size := Int.mul_nonneg (Int.natCast_nonneg _) nonneg
    rw [takeBytes, if_neg (by omega), List.length_take]
    omega

/-- Experts that pass their assertions are aligned. -/
theorem assert_rows_aligned (experts : Option RoutedExperts) (numTokens : Nat)
    (rows : Option ExpertRows) (asserted : assertRows experts numTokens = .ok rows) :
    ExpertsAligned rows numTokens := by
  cases experts with
  | none =>
    obtain rfl := Except.ok.inj asserted
    exact nofun
  | some experts =>
    obtain ⟨own, passed, rfl⟩ := Fallible.map_ok asserted
    obtain ⟨layers, topk, inner, dtype, -, -, bytes, rfl⟩ :=
      (assert_experts_ok experts numTokens own).mp passed
    rintro listed ⟨rfl⟩
    exact ⟨rfl, row_size_nonneg bytes⟩

/-- The checks of a payload pass exactly for aligned versions. -/
theorem check_versions_iff (payload : Option EncodedTensor) (numTokens : Nat) :
    checkPolicyVersions payload numTokens = .ok () ↔ VersionsAligned payload numTokens := by
  cases payload with
  | none => exact iff_of_true rfl ⟨_, rfl⟩
  | some tensor =>
    rw [checkPolicyVersions, VersionsAligned, versionsOf]
    cases decodePolicyVersions tensor numTokens with
    | error message =>
      refine iff_of_false (fun accepted => by cases accepted) ?_
      rintro ⟨values, impossible⟩
      cases impossible
    | ok values => exact iff_of_true rfl ⟨values, rfl⟩

theorem aligned_asserted (row : MicroBatch Scalar) (aligned : AlignedRow row) :
    assertTokenArraysAligned row = .ok () := by
  have versions := (check_versions_iff _ _).mpr aligned.tokenPolicyVersions
  have refLogprobs := (stream_fits_iff _ _).mpr aligned.refLogprobs
  have rlWeights := (stream_fits_iff _ _).mpr aligned.rlWeights
  have ceWeights := (stream_fits_iff _ _).mpr aligned.ceWeights
  have refKlWeights := (stream_fits_iff _ _).mpr aligned.refKlWeights
  have mmTokenTypeIds := (stream_fits_iff _ _).mpr aligned.mmTokenTypeIds
  have experts : row.routedExperts.all
      (fun experts => decide (experts.seqLen = row.inputIds.length)) = true := by
    cases listed : row.routedExperts with
    | none => rfl
    | some experts => simp [(aligned.routedExperts experts listed).1]
  simp only [assertTokenArraysAligned, versions, aligned.lossMask, aligned.advantages,
    aligned.inferenceLogprobs, aligned.positionIds, aligned.temperatures, aligned.envNames,
    aligned.sequenceLengths, refLogprobs, rlWeights, ceWeights, refKlWeights, mmTokenTypeIds,
    experts, ne_eq, not_true_eq_false, if_false]

theorem weight_column_length (stream : Option (List Scalar)) (numTokens : Nat)
    (aligned : StreamAligned stream numTokens) :
    (weightColumn stream numTokens).length = numTokens := by
  cases stream with
  | none => exact List.length_replicate
  | some values => rw [weightColumn, List.length_map, aligned values rfl]

theorem columns_aligned (row : MicroBatch Scalar) (aligned : AlignedRow row) :
    (columns row).Aligned where
  lossMask := aligned.lossMask
  advantages := aligned.advantages
  logprobs := aligned.inferenceLogprobs
  positionIds := aligned.positionIds
  temperatures := aligned.temperatures
  envNames := aligned.envNames
  refLogprobs := weight_column_length _ _ aligned.refLogprobs
  rlWeights := weight_column_length _ _ aligned.rlWeights
  ceWeights := weight_column_length _ _ aligned.ceWeights
  refKlWeights := weight_column_length _ _ aligned.refKlWeights

theorem cuts_of_aligned (row : MicroBatch Scalar) (aligned : AlignedRow row) : Cuts row where
  aligned := columns_aligned row aligned
  whole := aligned.sequenceLengths

/-! ## Prepared samples -/

/-- A sample prepared for packing: aligned, one segment, within the row length. -/
structure Prepared (seqLen : Nat) (sample : MicroBatch Scalar) : Prop where
  aligned : AlignedRow sample
  single : sample.sequenceLengths = [sample.inputIds.length]
  fits : sample.inputIds.length ≤ seqLen

/-- What a sample says of its tokens before the cut point. -/
def sampleSegment [Zero Scalar] (sample : TrainingSample Scalar) (cut : Nat) : Segment Scalar where
  tokenIds := sample.tokenIds.take cut
  lossMask := sample.mask.take cut
  advantages := (sample.advantages.getD (List.replicate sample.tokenIds.length 0)).take cut
  logprobs := sample.logprobs.take cut
  positionIds := List.range cut
  temperatures := sample.temperatures.take cut
  envNames := List.replicate cut sample.envName
  refLogprobs := weightColumn (sample.refLogprobs.map (List.take cut)) cut
  rlWeights := weightColumn (sample.rlWeights.map (List.take cut)) cut
  ceWeights := weightColumn (sample.ceWeights.map (List.take cut)) cut
  refKlWeights := weightColumn (sample.refKlWeights.map (List.take cut)) cut

theorem assert_prepared_iff (prepared : MicroBatch Scalar) (experts : Option RoutedExperts)
    (rows : Option ExpertRows) :
    assertPrepared prepared experts = .ok rows ↔
      (prepared.inputIds.length = prepared.advantages.length ∧
        prepared.inputIds.length = prepared.lossMask.length ∧
        prepared.inputIds.length = prepared.positionIds.length ∧
        prepared.inputIds.length = prepared.inferenceLogprobs.length ∧
        prepared.inputIds.length = prepared.temperatures.length) ∧
      streamFits prepared.refLogprobs prepared.inputIds.length = true ∧
      streamFits prepared.rlWeights prepared.inputIds.length = true ∧
      streamFits prepared.ceWeights prepared.inputIds.length = true ∧
      streamFits prepared.refKlWeights prepared.inputIds.length = true ∧
      assertRows experts prepared.inputIds.length = .ok rows ∧
      streamFits prepared.mmTokenTypeIds prepared.inputIds.length = true ∧
      prepared.envNames.length = prepared.inputIds.length := by
  rw [assertPrepared]
  simp only [Fallible.check_passed_iff, Decidable.not_not, ne_eq]
  cases asserted : assertRows experts prepared.inputIds.length with
  | error message => simp
  | ok own =>
    simp only [Fallible.check_passed_iff, Decidable.not_not, Except.ok.injEq]
    constructor
    · rintro ⟨arrays, refLogprobs, rl, ce, refKl, types, names, rfl⟩
      exact ⟨arrays, refLogprobs, rl, ce, refKl, rfl, types, names⟩
    · rintro ⟨arrays, refLogprobs, rl, ce, refKl, rfl, types, names⟩
      exact ⟨arrays, refLogprobs, rl, ce, refKl, types, names, rfl⟩

/-- Images are kept while all their tokens survive. -/
theorem kept_images_acc (surviving kept acc : Nat) (tokensPerImage : List Nat)
    (below : acc ≤ surviving) : (keptImages surviving kept acc tokensPerImage).2 ≤ surviving := by
  induction tokensPerImage generalizing kept acc with
  | nil => exact below
  | cons tokens rest inductionHypothesis =>
    rw [keptImages]
    split
    · exact below
    · exact inductionHypothesis _ _ (by omega)

/-- A placeholder that survives a cut lies before the cut. -/
theorem placeholder_before (target seen position limit : Nat) (types : List Nat)
    (later : seen < target)
    (survives : target ≤ seen + (types.take limit).countP (fun type => decide (type ≠ 0))) :
    ∃ found, placeholderAt target seen position types = some found ∧ found < position + limit := by
  induction types generalizing seen position limit with
  | nil =>
    rw [List.take_nil, List.countP_nil] at survives
    omega
  | cons type rest inductionHypothesis =>
    cases limit with
    | zero =>
      rw [List.take_zero, List.countP_nil] at survives
      omega
    | succ limit =>
      rw [List.take_succ_cons, List.countP_cons] at survives
      rw [placeholderAt]
      by_cases text : type ≠ 0
      · rw [if_pos text]
        rw [if_pos (decide_eq_true text)] at survives
        by_cases reached : seen + 1 = target
        · rw [if_pos reached]
          exact ⟨position, rfl, by omega⟩
        · rw [if_neg reached]
          obtain ⟨found, isFound, before⟩ :=
            inductionHypothesis (seen + 1) (position + 1) limit (by omega) (by omega)
          exact ⟨found, isFound, by omega⟩
      · rw [if_neg text]
        rw [if_neg (by simpa using text)] at survives
        obtain ⟨found, isFound, before⟩ :=
          inductionHypothesis seen (position + 1) limit later (by omega)
        exact ⟨found, isFound, by omega⟩

/-- A cut after whole images, or before one that does not survive, is within the
sequence length. -/
theorem image_cut_bounded (types : List Nat) (seqLen acc : Nat)
    (below : acc ≤ survivingTokens types seqLen) : imageCut types seqLen acc ≤ seqLen := by
  rw [imageCut]
  split
  · exact Nat.le_refl _
  · rename_i partly
    rw [survivingTokens] at below partly
    obtain ⟨found, isFound, before⟩ := placeholder_before (acc + 1) 0 0 seqLen types (by omega)
      (by omega)
    rw [isFound, Option.getD_some]
    omega

theorem truncate_mm_bounded (numpy : Numpy) (types : List Nat) (kwargs : MmKwargs)
    (seqLen cut : Nat) (kept : Option MmKwargs)
    (truncated : truncateMm numpy types kwargs seqLen = .ok (cut, kept)) : cut ≤ seqLen := by
  rw [truncateMm] at truncated
  split at truncated
  · cases truncated
  · split at truncated
    · cases truncated
    · split at truncated
      · cases truncated
      · split at truncated
        · cases truncated
        · rw [truncateImages] at truncated
          dsimp only at truncated
          split at truncated
          · cases truncated
          · rw [Except.ok.injEq, Prod.mk.injEq] at truncated
            rw [← truncated.1]
            exact image_cut_bounded _ _ _ (kept_images_acc _ _ _ _ (Nat.zero_le _))

/-- A cut is within the sequence length and within the sample; a sample that
fits is not cut. -/
theorem sample_cut_bounded (numpy : Numpy) (sample : TrainingSample Scalar) (seqLen cut : Nat)
    (kept : Option MmKwargs) (isCut : sampleCut numpy sample seqLen = .ok (cut, kept)) :
    cut ≤ seqLen ∧ cut ≤ sample.tokenIds.length ∧
      (¬ seqLen < sample.tokenIds.length →
        cut = sample.tokenIds.length ∧ kept = sample.mmKwargs) := by
  rw [sampleCut] at isCut
  by_cases long : seqLen < sample.tokenIds.length
  · have within : cut ≤ seqLen := by
      rw [if_pos long] at isCut
      split at isCut
      · exact truncate_mm_bounded numpy _ _ seqLen cut kept isCut
      · rw [Except.ok.injEq, Prod.mk.injEq] at isCut
        omega
    exact ⟨within, by omega, fun short => absurd long short⟩
  · rw [if_neg long, Except.ok.injEq, Prod.mk.injEq] at isCut
    obtain ⟨rfl, rfl⟩ := isCut
    exact ⟨Nat.le_of_not_lt long, Nat.le_refl _, fun _ => ⟨rfl, rfl⟩⟩

section Preparing
variable [Zero Scalar] [DecidableEq Scalar]

/-- What an accepted sample went through. -/
theorem prepare_sample_iff (numpy : Numpy) (sample : TrainingSample Scalar) (seqLen : Nat)
    (prepared : MicroBatch Scalar) :
    prepareSample numpy sample seqLen = .ok prepared ↔
      ∃ advantages cut kept versions experts rows,
        checkPolicyVersions sample.tokenPolicyVersions sample.tokenIds.length = .ok () ∧
        sampleAdvantages sample = .ok advantages ∧ sample.envName ≠ "all" ∧
        sampleCut numpy sample seqLen = .ok (cut, kept) ∧
        sampleVersions sample seqLen cut = .ok versions ∧
        sampleExperts sample seqLen cut = .ok experts ∧
        assertPrepared (sampleStreams sample seqLen advantages cut kept versions) experts = .ok rows ∧
        prepared = { sampleStreams sample seqLen advantages cut kept versions with
          routedExperts := rows } := by
  rw [prepareSample]
  constructor
  · intro accepted
    cases checked : checkPolicyVersions sample.tokenPolicyVersions sample.tokenIds.length with
    | error message => simp [checked] at accepted
    | ok _ =>
      cases credited : sampleAdvantages sample with
      | error message => simp [checked, credited] at accepted
      | ok advantages =>
        rw [checked, credited] at accepted
        obtain ⟨named, accepted⟩ := Fallible.check_passed accepted
        cases isCut : sampleCut numpy sample seqLen with
        | error message => simp [isCut] at accepted
        | ok pair =>
          obtain ⟨cut, kept⟩ := pair
          cases carried : sampleVersions sample seqLen cut with
          | error message => simp [isCut, carried] at accepted
          | ok versions =>
            cases routed : sampleExperts sample seqLen cut with
            | error message => simp [isCut, carried, routed] at accepted
            | ok experts =>
              simp only [isCut, carried, routed] at accepted
              obtain ⟨rows, asserted, rfl⟩ := Fallible.map_ok accepted
              exact ⟨advantages, cut, kept, versions, experts, rows, rfl, rfl, named, rfl, carried,
                routed, asserted, rfl⟩
  · rintro ⟨advantages, cut, kept, versions, experts, rows, checked, credited, named, isCut,
      carried, routed, asserted, rfl⟩
    simp only [checked, credited, named, isCut, carried, routed, asserted, if_false]
    rfl

omit [Zero Scalar] [DecidableEq Scalar] in
/-- Cutting a payload cuts the steps it stands for. -/
theorem truncate_versions_read {payload : Option EncodedTensor} {numTokens cut : Nat}
    {values : List Int} (read : versionsOf payload numTokens = .ok values) (inside : cut ≤ numTokens) :
    ∃ versions, truncateVersions payload numTokens cut = .ok versions ∧
      versionsOf versions cut = .ok (values.take cut) := by
  obtain ⟨length, words⟩ := versions_words read
  cases payload with
  | none =>
    obtain rfl := Except.ok.inj read
    refine ⟨none, rfl, ?_⟩
    rw [List.take_replicate, Nat.min_eq_left inside]
    rfl
  | some tensor =>
    obtain ⟨versions, encoded, reads⟩ := encode_reads
      (fun value member => words value (List.mem_of_mem_take member) : StepWords (values.take cut))
    rw [List.length_take, length, Nat.min_eq_left inside] at reads
    refine ⟨versions, ?_, reads⟩
    rw [truncateVersions, show decodePolicyVersions tensor numTokens = .ok values from read]
    exact encoded

omit [Zero Scalar] [DecidableEq Scalar] in
/-- The steps of a sample up to its cut point. -/
theorem sample_versions_read (numpy : Numpy) (sample : TrainingSample Scalar) (seqLen cut : Nat)
    (kept : Option MmKwargs) (isCut : sampleCut numpy sample seqLen = .ok (cut, kept))
    {values : List Int}
    (read : versionsOf sample.tokenPolicyVersions sample.tokenIds.length = .ok values) :
    ∃ versions, sampleVersions sample seqLen cut = .ok versions ∧
      versionsOf versions cut = .ok (values.take cut) := by
  obtain ⟨-, inside, untouched⟩ := sample_cut_bounded numpy sample seqLen cut kept isCut
  rw [sampleVersions]
  by_cases long : seqLen < sample.tokenIds.length
  · rw [if_pos long]
    exact truncate_versions_read read inside
  · obtain ⟨rfl, -⟩ := untouched long
    rw [if_neg long]
    refine ⟨_, rfl, ?_⟩
    rw [read, List.take_of_length_le (versions_words read).1.le]

/-- An accepted sample is prepared. Its assertions are the alignment of most
streams; versions were checked before the cut. -/
theorem prepared_of_accepted (numpy : Numpy) (sample : TrainingSample Scalar) (seqLen : Nat)
    (prepared : MicroBatch Scalar) (accepted : prepareSample numpy sample seqLen = .ok prepared) :
    Prepared seqLen prepared := by
  obtain ⟨advantages, cut, kept, versions, experts, rows, checked, -, -, isCut, carried, -, asserted,
    isPrepared⟩ := (prepare_sample_iff numpy sample seqLen prepared).mp accepted
  obtain ⟨within, inside, untouched⟩ := sample_cut_bounded numpy sample seqLen cut kept isCut
  obtain ⟨steps, read⟩ := (check_versions_iff _ _).mp checked
  obtain ⟨versions', carried', cutRead⟩ :=
    sample_versions_read numpy sample seqLen cut kept isCut read
  obtain rfl := Except.ok.inj (carried.symm.trans carried')
  obtain ⟨streams, isStreams⟩ : ∃ streams, streams =
    sampleStreams sample seqLen advantages cut kept versions := ⟨_, rfl⟩
  rw [← isStreams] at asserted isPrepared
  obtain ⟨⟨advantagesFit, maskFit, positionsFit, logprobsFit, temperaturesFit⟩, refFit, rlFit, ceFit,
    refKlFit, expertsFit, typesFit, envFit⟩ := (assert_prepared_iff _ experts rows).mp asserted
  have built : prepared.inputIds.length = cut ∧
      prepared.sequenceLengths = [prepared.inputIds.length] ∧
      VersionsAligned prepared.tokenPolicyVersions cut := by
    subst isPrepared
    rw [sampleStreams] at isStreams
    by_cases long : seqLen < sample.tokenIds.length
    · rw [if_pos long] at isStreams
      subst isStreams
      have count : ((sample.tokenIds).take cut).length = cut := by
        rw [List.length_take]
        omega
      exact ⟨count, rfl, _, cutRead⟩
    · rw [if_neg long] at isStreams
      subst isStreams
      obtain ⟨rfl, -⟩ := untouched long
      exact ⟨rfl, rfl, steps, read⟩
  obtain ⟨count, single, payload⟩ := built
  rw [← count] at within payload
  refine ⟨?_, single, within⟩
  subst isPrepared
  exact
    { lossMask := maskFit.symm
      advantages := advantagesFit.symm
      inferenceLogprobs := logprobsFit.symm
      positionIds := positionsFit.symm
      temperatures := temperaturesFit.symm
      envNames := envFit
      refLogprobs := (stream_fits_iff _ _).mp refFit
      rlWeights := (stream_fits_iff _ _).mp rlFit
      ceWeights := (stream_fits_iff _ _).mp ceFit
      refKlWeights := (stream_fits_iff _ _).mp refKlFit
      mmTokenTypeIds := (stream_fits_iff _ _).mp typesFit
      tokenPolicyVersions := payload
      routedExperts := assert_rows_aligned _ _ _ expertsFit
      sequenceLengths := by rw [single, List.sum_singleton] }

/-- A sample whose streams are aligned, whose rl tokens are credited and whose
environment has a name of its own. -/
structure WellFormed (sample : TrainingSample Scalar) : Prop where
  mask : sample.mask.length = sample.tokenIds.length
  logprobs : sample.logprobs.length = sample.tokenIds.length
  temperatures : sample.temperatures.length = sample.tokenIds.length
  advantages : StreamAligned sample.advantages sample.tokenIds.length
  refLogprobs : StreamAligned sample.refLogprobs sample.tokenIds.length
  rlWeights : StreamAligned sample.rlWeights sample.tokenIds.length
  ceWeights : StreamAligned sample.ceWeights sample.tokenIds.length
  refKlWeights : StreamAligned sample.refKlWeights sample.tokenIds.length
  mmTokenTypeIds : StreamAligned sample.mmTokenTypeIds sample.tokenIds.length
  tokenPolicyVersions : VersionsAligned sample.tokenPolicyVersions sample.tokenIds.length
  routedExperts : ExpertsListed sample.routedExperts sample.tokenIds.length
  credited : sample.advantages = none → hasRlMembers sample = false
  named : sample.envName ≠ "all"

theorem stream_truncated {Value : Type} (stream : Option (List Value)) (numTokens cut : Nat)
    (aligned : StreamAligned stream numTokens) (inside : cut ≤ numTokens) :
    StreamAligned (stream.map (List.take cut)) cut := by
  intro values taken
  obtain ⟨whole, present, rfl⟩ := Option.map_eq_some_iff.mp taken
  rw [List.length_take, aligned whole present]
  omega

omit [Zero Scalar] [DecidableEq Scalar] in
/-- Cutting the experts of a sample with its tokens keeps a row for each token. -/
theorem experts_truncated (sample : TrainingSample Scalar) (seqLen cut : Nat)
    (listed : ExpertsListed sample.routedExperts sample.tokenIds.length)
    (inside : cut ≤ sample.tokenIds.length)
    (untouched : ¬ seqLen < sample.tokenIds.length → cut = sample.tokenIds.length) :
    ∃ experts, sampleExperts sample seqLen cut = .ok experts ∧ ExpertsListed experts cut := by
  rw [sampleExperts]
  cases present : sample.routedExperts with
  | none => exact ⟨none, rfl, nofun⟩
  | some whole =>
    by_cases long : seqLen < sample.tokenIds.length
    · obtain ⟨layers, topk, inner, dtype, shape, known, bytes⟩ := listed whole present
      have typed := (row_type_ok whole layers topk dtype).mpr ⟨⟨_, _, shape⟩, known⟩
      refine ⟨some
        { data := takeBytes whole.data (cut * rowSize layers topk dtype)
          shape := [(cut : Int), layers, topk]
          dtype := whole.dtype }, ?_, ?_⟩
      · simp only [if_pos long, sliceRoutedExperts, typed, Except.map]
      · rintro sliced ⟨rfl⟩
        exact ⟨layers, topk, [], dtype, rfl, known, take_bytes_length _ inside bytes⟩
    · obtain rfl := untouched long
      refine ⟨some whole, if_neg long, ?_⟩
      rw [← present]
      exact listed

omit [DecidableEq Scalar] in
/-- Cutting an aligned stream at its length changes nothing. -/
theorem stream_uncut {Value : Type} (stream : Option (List Value)) (numTokens : Nat)
    (aligned : StreamAligned stream numTokens) : stream.map (List.take numTokens) = stream := by
  cases stream with
  | none => rfl
  | some values => rw [Option.map_some, List.take_of_length_le (aligned values rfl).le]

/-- A well-formed sample with a cut is accepted: what is prepared is the sample
up to its cut, with the images that survive. -/
theorem well_formed_prepares (numpy : Numpy) (sample : TrainingSample Scalar) (seqLen cut : Nat)
    (kept : Option MmKwargs) (wellFormed : WellFormed sample)
    (isCut : sampleCut numpy sample seqLen = .ok (cut, kept)) :
    ∃ prepared, prepareSample numpy sample seqLen = .ok prepared ∧
      columns prepared = sampleSegment sample cut ∧ prepared.mmKwargs = kept ∧
      prepared.inputIds.length = cut := by
  obtain ⟨within, inside, untouched⟩ := sample_cut_bounded numpy sample seqLen cut kept isCut
  obtain ⟨advantages, isAdvantages⟩ : ∃ advantages, advantages =
    sample.advantages.getD (List.replicate sample.tokenIds.length 0) := ⟨_, rfl⟩
  have credited : sampleAdvantages sample = .ok advantages := by
    rw [sampleAdvantages, isAdvantages]
    cases present : sample.advantages with
    | none => simp [wellFormed.credited present]
    | some values => rfl
  have advantagesLength : advantages.length = sample.tokenIds.length := by
    rw [isAdvantages]
    cases present : sample.advantages with
    | none => exact List.length_replicate
    | some values => exact wellFormed.advantages values present
  have checked := (check_versions_iff _ _).mpr wellFormed.tokenPolicyVersions
  obtain ⟨steps, read⟩ := wellFormed.tokenPolicyVersions
  obtain ⟨versions, carried, -⟩ := sample_versions_read numpy sample seqLen cut kept isCut read
  obtain ⟨experts, routed, expertsCut⟩ := experts_truncated sample seqLen cut
    wellFormed.routedExperts inside (fun short => (untouched short).1)
  obtain ⟨rows, expertsFit⟩ := (assert_rows_iff _ _).mpr expertsCut
  obtain ⟨streams, isStreams⟩ : ∃ streams, streams =
    sampleStreams sample seqLen advantages cut kept versions := ⟨_, rfl⟩
  have count : (sample.tokenIds.take cut).length = cut := by
    rw [List.length_take]
    omega
  have same : columns streams = sampleSegment sample cut ∧ streams.mmKwargs = kept ∧
      streams.inputIds.length = cut ∧ assertPrepared streams experts = .ok rows := by
    rw [sampleStreams] at isStreams
    by_cases long : seqLen < sample.tokenIds.length
    · rw [if_pos long] at isStreams
      subst isStreams
      refine ⟨?_, rfl, count, ?_⟩
      · simp only [columns, truncateSample, wholeSample, sampleSegment, count, ← isAdvantages,
          List.take_range, List.take_replicate, Nat.min_eq_left inside]
      · rw [assert_prepared_iff]
        simp only [truncateSample, wholeSample, count, stream_fits_iff, expertsFit,
          List.length_take, advantagesLength, wellFormed.mask, wellFormed.logprobs,
          wellFormed.temperatures, List.length_range, List.length_replicate,
          Nat.min_eq_left inside, true_and, and_true]
        exact ⟨stream_truncated _ _ _ wellFormed.refLogprobs inside,
          stream_truncated _ _ _ wellFormed.rlWeights inside,
          stream_truncated _ _ _ wellFormed.ceWeights inside,
          stream_truncated _ _ _ wellFormed.refKlWeights inside,
          stream_truncated _ _ _ wellFormed.mmTokenTypeIds inside⟩
    · rw [if_neg long] at isStreams
      subst isStreams
      obtain ⟨rfl, rfl⟩ := untouched long
      refine ⟨?_, rfl, rfl, ?_⟩
      · simp only [columns, wholeSample, sampleSegment, ← isAdvantages, List.take_length,
          stream_uncut _ _ wellFormed.refLogprobs, stream_uncut _ _ wellFormed.rlWeights,
          stream_uncut _ _ wellFormed.ceWeights, stream_uncut _ _ wellFormed.refKlWeights,
          List.take_of_length_le wellFormed.mask.le, List.take_of_length_le wellFormed.logprobs.le,
          List.take_of_length_le wellFormed.temperatures.le,
          List.take_of_length_le advantagesLength.le]
      · rw [assert_prepared_iff]
        simp only [wholeSample, stream_fits_iff, expertsFit, advantagesLength,
          wellFormed.mask, wellFormed.logprobs, wellFormed.temperatures, List.length_range,
          List.length_replicate, true_and, and_true]
        exact ⟨wellFormed.refLogprobs, wellFormed.rlWeights, wellFormed.ceWeights,
          wellFormed.refKlWeights, wellFormed.mmTokenTypeIds⟩
  obtain ⟨columnsSame, kwargsSame, lengthSame, asserted⟩ := same
  have accepted := (prepare_sample_iff numpy sample seqLen { streams with routedExperts := rows }).mpr
    ⟨advantages, cut, kept, versions, experts, rows, checked, credited, wellFormed.named, isCut,
      carried, routed, isStreams ▸ asserted, isStreams ▸ rfl⟩
  exact ⟨_, accepted, columnsSame, kwargsSame, lengthSame⟩

end Preparing

end PrimeRl.Trainer.Batch
