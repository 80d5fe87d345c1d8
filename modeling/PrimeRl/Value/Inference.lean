import Mathlib.Algebra.Field.Rat
import PrimeRl.Value.Batch
import PrimeRl.Value.Math

/-!
# Value evaluation of a batch of sequences

A rank predicts the values of its packed rows, cuts them back into sequences and
labels them with their sample indices. The gathered labels put the sequences
back into request order. When the model keeps the sequences of a row apart, the
values are those of every sequence evaluated alone.
-/

namespace PrimeRl.Value.Inference

open PrimeRl.Utils.Sequence PrimeRl.Value.Batch PrimeRl.Value.Math

universe u
variable {Scalar : Type u}

/-- The evaluated network. Its forward pass maps the token and position streams
of one packed row to the logits of every token. -/
structure ValueModel (Scalar : Type u) (outputSize : Nat) where
  supportsPackedSequenceMetadata : Bool
  forward : List Nat → List Nat → Option PackedSequenceMetadata → List (Fin outputSize → Scalar)

/-- Values labelled by the sample they belong to. -/
abbrev Indexed (Scalar : Type u) := List (Int × List Scalar)

/-- Cut a row of values at the sequence lengths; dummy sequences are dropped. The
two label streams are zipped strictly. -/
def sliceValues (values : List Scalar) : List Int → List Nat → Nat → Except String (Indexed Scalar)
  | [], [], _ => .ok []
  | [], _ :: _, _ => .error "zip() argument 2 is longer than argument 1"
  | _ :: _, [], _ => .error "zip() argument 2 is shorter than argument 1"
  | sampleIndex :: sampleIndices, length :: lengths, offset => do
      let rest ← sliceValues values sampleIndices lengths (offset + length)
      if 0 ≤ sampleIndex then .ok ((sampleIndex, (values.drop offset).take length) :: rest)
      else .ok rest

section
variable [Field Scalar] (loss : ValueLossConfig Scalar) (exponential : Scalar → Scalar)
  (model : ValueModel Scalar (valueHeadOutputSize loss))

/-- The attention boundaries handed to a model that takes them. -/
def packingMetadata {outputSize : Nat} (model : ValueModel Scalar outputSize)
    (microBatch : ValueInputMicroBatch) : Except String (Option PackedSequenceMetadata) :=
  if model.supportsPackedSequenceMetadata then
    (preparePackedSequenceMetadata microBatch.sequenceLengths microBatch.inputIds.length).map some
  else .ok none

/-- The labelled values of one row. -/
def predictMicrobatch (microBatch : ValueInputMicroBatch) : Except String (Indexed Scalar) :=
  match packingMetadata model microBatch with
  | .error message => .error message
  | .ok metadata => do
      let aligned ← alignValueLogits
        (model.forward microBatch.inputIds microBatch.positionIds metadata)
        microBatch.sequenceLengths
      sliceValues (aligned.map (predictValues exponential loss)) microBatch.sampleIndices
        microBatch.sequenceLengths 0

/-- The labelled values of all rows of one rank. -/
def predictValueMicrobatches : List ValueInputMicroBatch → Except String (Indexed Scalar)
  | [] => .ok []
  | microBatch :: rest => do
      let indexed ← predictMicrobatch loss exponential model microBatch
      let later ← predictValueMicrobatches rest
      .ok (indexed ++ later)

end

/-- Record one labelled sequence. -/
def placeOutput (isFinite : Scalar → Bool) (expectedLengths : List Nat)
    (results : List (Option (List Scalar))) (output : Int × List Scalar) :
    Except String (List (Option (List Scalar))) :=
  let (sampleIndex, values) := output
  if sampleIndex < 0 ∨ (results.length : Int) ≤ sampleIndex then
    .error s!"value evaluator returned invalid sample index {sampleIndex}"
  else if (results.getD sampleIndex.toNat none).isSome then
    .error s!"value evaluator returned sample {sampleIndex} more than once"
  else
    let expected := expectedLengths.getD sampleIndex.toNat 0
    if values.length ≠ expected then
      .error s!"value evaluator sample {sampleIndex} has {values.length} values; expected {expected}"
    else if !values.all isFinite then
      .error s!"value evaluator sample {sampleIndex} contains non-finite values"
    else .ok (results.set sampleIndex.toNat (some values))

def placeOutputs (isFinite : Scalar → Bool) (expectedLengths : List Nat) :
    List (Option (List Scalar)) → Indexed Scalar → Except String (List (Option (List Scalar)))
  | results, [] => .ok results
  | results, output :: rest => do
      let placed ← placeOutput isFinite expectedLengths results output
      placeOutputs isFinite expectedLengths placed rest

/-- Put the gathered sequences back into request order. -/
def reassembleValueOutputs (isFinite : Scalar → Bool) (indexed : Indexed Scalar)
    (expectedLengths : List Nat) : Except String (List (List Scalar)) := do
  let results ← placeOutputs isFinite expectedLengths
    (List.replicate expectedLengths.length none) indexed
  if results.any Option.isNone then
    .error "value evaluator failed to materialize every requested sequence"
  else .ok (results.filterMap id)

/-! ## Evaluating a sequence alone -/

/-- The values of a sequence from the logits of its own states: position zero
reads the zero logits and every later position the state before it. -/
def valuesAlone [Field Scalar] (loss : ValueLossConfig Scalar) (exponential : Scalar → Scalar)
    (states : List (Fin (valueHeadOutputSize loss) → Scalar)) : List Scalar :=
  (alignSequence (fun _ => 0) states).map (predictValues exponential loss)

/-- On rows of the kind the packing mode produces, the logits of a sequence are
those it gets alone in a row. -/
def SequenceLocal {outputSize : Nat} (model : ValueModel Scalar outputSize) (packSequences : Bool)
    (alone : List Nat → List (Fin outputSize → Scalar)) : Prop :=
  (∀ tokens, (alone tokens).length = tokens.length) ∧
    ∀ (sequences : List (List Nat)) (metadata : Option PackedSequenceMetadata),
      (∀ sequence ∈ sequences, sequence ≠ []) →
      (packSequences = true ∨ sequences.length = 1) →
      (∀ prepared, metadata = some prepared → prepared.lengths = sequences.map List.length) →
      model.forward sequences.flatten
          (sequences.flatMap (fun tokens => List.range tokens.length)) metadata =
        sequences.flatMap alone

theorem values_alone_length [Field Scalar] (loss : ValueLossConfig Scalar)
    (exponential : Scalar → Scalar) (states : List (Fin (valueHeadOutputSize loss) → Scalar)) :
    (valuesAlone loss exponential states).length = states.length := by
  cases states with
  | nil => rfl
  | cons first tail => simp [valuesAlone, alignSequence]

/-! ## One row -/

/-- Cutting concatenated values at their lengths recovers the labelled parts. -/
theorem slice_values_parts (before : List Scalar) (parts : List (Nat × List Scalar)) :
    sliceValues (before ++ parts.flatMap Prod.snd) (parts.map (fun part => Int.ofNat part.1))
        (parts.map (fun part => part.2.length)) before.length =
      .ok (parts.map (fun part => (Int.ofNat part.1, part.2))) := by
  induction parts generalizing before with
  | nil => rfl
  | cons part rest inductionHypothesis =>
    have later := inductionHypothesis (before ++ part.2)
    rw [List.length_append, List.append_assoc] at later
    have cut : ((before ++ (part.2 ++ rest.flatMap Prod.snd)).drop before.length).take
        part.2.length = part.2 := by
      rw [List.drop_left, List.take_left]
    have real : (0 : Int) ≤ Int.ofNat part.1 := Int.natCast_nonneg _
    simp only [List.map_cons, List.flatMap_cons, sliceValues, later, cut, real, if_true]
    rfl

section
variable [Field Scalar] (loss : ValueLossConfig Scalar) (exponential : Scalar → Scalar)
  (model : ValueModel Scalar (valueHeadOutputSize loss)) (packSequences : Bool)
  (alone : List Nat → List (Fin (valueHeadOutputSize loss) → Scalar))

/-- The labelled values of one sample evaluated alone. -/
def outputAlone (tokenIds : List (List Nat)) (index : Nat) : Int × List Scalar :=
  (Int.ofNat index, valuesAlone loss exponential (alone (tokenIds.getD index [])))

/-- A row of nonempty sequences is cut into the values of the sequences alone,
unless its tokens exceed the offsets of a model that takes boundaries. -/
theorem predict_sequences (isolated : SequenceLocal model packSequences alone)
    (sequences : List (List Nat)) (sampleIndices : List Int) (filled : sequences ≠ [])
    (nonempty : ∀ sequence ∈ sequences, sequence ≠ [])
    (shape : packSequences = true ∨ sequences.length = 1)
    (capacity : model.supportsPackedSequenceMetadata = true →
      sequences.flatten.length ≤ int32Max) :
    predictMicrobatch loss exponential model
        ⟨sequences.flatten, sequences.flatMap (fun tokens => List.range tokens.length),
          sequences.map List.length, sampleIndices⟩ =
      sliceValues (sequences.flatMap (fun tokens => valuesAlone loss exponential (alone tokens)))
        sampleIndices (sequences.map List.length) 0 := by
  obtain ⟨sameLength, rowLocal⟩ := isolated
  have prepared : ∃ metadata, packingMetadata model
      ⟨sequences.flatten, sequences.flatMap (fun tokens => List.range tokens.length),
        sequences.map List.length, sampleIndices⟩ = .ok metadata ∧
      ∀ boundaries, metadata = some boundaries → boundaries.lengths = sequences.map List.length := by
    by_cases supports : model.supportsPackedSequenceMetadata = true
    · have positive : ∀ length ∈ sequences.map List.length, 1 ≤ length := by
        intro length member
        obtain ⟨tokens, listed, rfl⟩ := List.mem_map.mp member
        exact List.length_pos_iff.mpr (nonempty tokens listed)
      obtain ⟨accepted, -⟩ := prepare_accepts (sequences.map List.length)
        (by simpa using filled) positive
      rw [← List.length_flatten] at accepted
      obtain ⟨boundaries, prepares, sameLengths⟩ := accepted (capacity supports)
      refine ⟨some boundaries, ?_, ?_⟩
      · simp only [packingMetadata, supports, if_true, prepares]
        rfl
      · intro other equal
        exact Option.some.inj equal ▸ sameLengths
    · exact ⟨none, by simp only [packingMetadata, supports, if_false, Bool.false_eq_true], nofun⟩
  obtain ⟨metadata, prepares, sameLengths⟩ := prepared
  have logits := rowLocal sequences metadata nonempty shape sameLengths
  have aloneNonempty : ∀ states ∈ sequences.map alone, states ≠ [] := by
    intro states member
    obtain ⟨tokens, listed, rfl⟩ := List.mem_map.mp member
    have positive := List.length_pos_iff.mpr (nonempty tokens listed)
    rw [← sameLength tokens] at positive
    exact List.length_pos_iff.mp positive
  have aloneLengths : (sequences.map alone).map List.length = sequences.map List.length := by
    rw [List.map_map]
    exact List.map_congr_left (fun tokens _ => sameLength tokens)
  have aligned := align_sequences (sequences.map alone) aloneNonempty
  rw [aloneLengths, ← List.flatMap_def] at aligned
  have values : ((sequences.map alone).flatMap (alignSequence (fun _ => 0))).map
      (predictValues exponential loss) =
      sequences.flatMap (fun tokens => valuesAlone loss exponential (alone tokens)) := by
    rw [List.flatMap_map, List.map_flatMap]
    rfl
  simp only [predictMicrobatch, prepares, logits, aligned]
  rw [← values]
  rfl

/-- The row of a bin yields its samples' values; a dummy row yields none. -/
theorem predict_bin (isolated : SequenceLocal model packSequences alone)
    (tokenIds : List (List Nat)) (padTokenId : Nat) (bin : List Nat)
    (nonempty : ∀ tokens ∈ tokenIds, tokens ≠ []) (inside : ∀ index ∈ bin, index < tokenIds.length)
    (shape : packSequences = true ∨ bin.length ≤ 1)
    (capacity : model.supportsPackedSequenceMetadata = true →
      (materializeInputs bin tokenIds padTokenId).inputIds.length ≤ int32Max) :
    predictMicrobatch loss exponential model (materializeInputs bin tokenIds padTokenId) =
      .ok (bin.map (outputAlone loss exponential alone tokenIds)) := by
  cases bin with
  | nil =>
    have dummy := predict_sequences loss exponential model packSequences alone isolated
      [[padTokenId]] [-1] (List.cons_ne_nil _ _) (by simp) (Or.inr rfl) (by simp [int32Max])
    exact dummy
  | cons first rest =>
    have placed : (first :: rest).filterMap (fun index => tokenIds[index]?) =
        (first :: rest).map (fun index => tokenIds.getD index []) := by
      rw [← List.filterMap_eq_map]
      apply List.filterMap_congr
      intro index member
      have listed := inside index member
      simp [List.getD_eq_getElem?_getD, listed]
    have row : materializeInputs (first :: rest) tokenIds padTokenId =
        ⟨((first :: rest).map (fun index => tokenIds.getD index [])).flatten,
          ((first :: rest).map (fun index => tokenIds.getD index [])).flatMap
            (fun tokens => List.range tokens.length),
          ((first :: rest).map (fun index => tokenIds.getD index [])).map List.length,
          (first :: rest).map Int.ofNat⟩ := by
      rw [← placed]
      rfl
    rw [row] at capacity ⊢
    rw [predict_sequences loss exponential model packSequences alone isolated _ _ (by simp)
      ?_ ?_ capacity]
    · have cut := slice_values_parts [] ((first :: rest).map (fun index =>
        (index, valuesAlone loss exponential (alone (tokenIds.getD index [])))))
      simp only [List.nil_append, List.length_nil, List.map_map, List.flatMap_map] at cut
      have lengths : ((first :: rest).map (fun index => tokenIds.getD index [])).map List.length =
          (first :: rest).map (fun index =>
            (valuesAlone loss exponential (alone (tokenIds.getD index []))).length) := by
        rw [List.map_map]
        apply List.map_congr_left
        intro index _
        rw [values_alone_length, isolated.1]
        rfl
      rw [lengths, List.flatMap_map]
      exact cut
    · intro tokens member
      obtain ⟨index, listed, rfl⟩ := List.mem_map.mp member
      rw [List.getD_eq_getElem _ _ (inside index listed)]
      exact nonempty _ (List.getElem_mem _)
    · rcases shape with packed | single
      · exact Or.inl packed
      · right
        simp only [List.length_map, List.length_cons] at single ⊢
        omega

/-- A rank yields the values of the samples in its rows, in row order. -/
theorem predict_rank (isolated : SequenceLocal model packSequences alone)
    (tokenIds : List (List Nat)) (padTokenId : Nat) (bins : List (List Nat))
    (nonempty : ∀ tokens ∈ tokenIds, tokens ≠ [])
    (inside : ∀ bin ∈ bins, ∀ index ∈ bin, index < tokenIds.length)
    (shape : ∀ bin ∈ bins, packSequences = true ∨ bin.length ≤ 1)
    (capacity : model.supportsPackedSequenceMetadata = true → ∀ bin ∈ bins,
      (materializeInputs bin tokenIds padTokenId).inputIds.length ≤ int32Max) :
    predictValueMicrobatches loss exponential model
        (bins.map (fun bin => materializeInputs bin tokenIds padTokenId)) =
      .ok (bins.flatten.map (outputAlone loss exponential alone tokenIds)) := by
  induction bins with
  | nil => rfl
  | cons bin rest inductionHypothesis =>
    have here := predict_bin loss exponential model packSequences alone isolated tokenIds padTokenId
      bin nonempty (inside bin List.mem_cons_self) (shape bin List.mem_cons_self)
      (fun supports => capacity supports bin List.mem_cons_self)
    have later := inductionHypothesis
      (fun other member => inside other (List.mem_cons_of_mem _ member))
      (fun other member => shape other (List.mem_cons_of_mem _ member))
      (fun supports other member => capacity supports other (List.mem_cons_of_mem _ member))
    simp only [List.map_cons, predictValueMicrobatches, here, later, List.flatten_cons,
      List.map_append]
    rfl

end

/-! ## Reassembly -/

/-- Placing outputs with distinct in-range labels of the expected shape fills
exactly their entries. The induction is on the outputs still to be placed; an
entry is open while its label is among them. -/
theorem place_outputs_fill (isFinite : Scalar → Bool) (expectedLengths : List Nat)
    (content : Nat → List Scalar) (indexed : Indexed Scalar)
    (results : List (Option (List Scalar))) (width : results.length = expectedLengths.length)
    (labelled : ∀ output ∈ indexed, ∃ index, index < expectedLengths.length ∧
      output = (Int.ofNat index, content index) ∧
      (content index).length = expectedLengths.getD index 0 ∧
      (content index).all isFinite = true)
    (distinct : (indexed.map Prod.fst).Nodup)
    (opened : ∀ index, index < expectedLengths.length → results.getD index none =
      if Int.ofNat index ∈ indexed.map Prod.fst then none else some (content index)) :
    placeOutputs isFinite expectedLengths results indexed =
      .ok ((List.range expectedLengths.length).map (fun index => some (content index))) := by
  induction indexed generalizing results with
  | nil =>
    rw [placeOutputs]
    congr 1
    apply List.ext_getElem (by simp [width])
    intro index inResults _
    have filled := opened index (width ▸ inResults)
    rw [List.getD_eq_getElem _ _ inResults] at filled
    simpa using filled
  | cons output rest inductionHypothesis =>
    obtain ⟨index, inside, rfl, sameLength, finite⟩ := labelled output List.mem_cons_self
    rw [List.map_cons, List.nodup_cons] at distinct
    have inRange : ¬ (Int.ofNat index < 0 ∨ (results.length : Int) ≤ Int.ofNat index) := by
      rw [width]
      simp only [Int.ofNat_eq_natCast]
      omega
    have free := opened index inside
    rw [List.map_cons, if_pos List.mem_cons_self] at free
    have placed : placeOutput isFinite expectedLengths results
        (Int.ofNat index, content index) = .ok (results.set index (some (content index))) := by
      simp only [placeOutput, Int.toNat_natCast, Int.ofNat_eq_natCast] at *
      simp only [inRange, if_false, free, Option.isSome_none, Bool.false_eq_true, sameLength,
        ne_eq, not_true_eq_false, finite, Bool.not_true]
    have later := inductionHypothesis (results.set index (some (content index)))
      (by rw [List.length_set, width])
      (fun other member => labelled other (List.mem_cons_of_mem _ member)) distinct.2
    simp only [placeOutputs, placed]
    refine later ?_
    intro other otherInside
    by_cases same : other = index
    · subst same
      rw [if_neg distinct.1, List.getD_eq_getElem _ _ (by rw [List.length_set, width]; exact inside)]
      simp
    · have differs : Int.ofNat other ≠ Int.ofNat index := fun equal => same (Int.ofNat.inj equal)
      have before := opened other otherInside
      simp only [List.map_cons, List.mem_cons, differs, false_or] at before
      rw [← before]
      simp only [List.getD_eq_getElem?_getD, List.getElem?_set_ne (Ne.symm same)]

/-- Outputs of all samples, in any order, reassemble to the samples in order. -/
theorem reassemble_perm (isFinite : Scalar → Bool) (expectedLengths : List Nat)
    (content : Nat → List Scalar) (indexed : Indexed Scalar)
    (listed : indexed.Perm
      ((List.range expectedLengths.length).map (fun index => (Int.ofNat index, content index))))
    (sameLength : ∀ index, index < expectedLengths.length →
      (content index).length = expectedLengths.getD index 0)
    (finite : ∀ index, index < expectedLengths.length → (content index).all isFinite = true) :
    reassembleValueOutputs isFinite indexed expectedLengths =
      .ok ((List.range expectedLengths.length).map content) := by
  have labels : (indexed.map Prod.fst).Perm ((List.range expectedLengths.length).map Int.ofNat) := by
    have mapped := listed.map Prod.fst
    rwa [List.map_map] at mapped
  have distinct : (indexed.map Prod.fst).Nodup := by
    rw [labels.nodup_iff]
    exact List.nodup_range.map Int.ofNat_injective
  have placed := place_outputs_fill isFinite expectedLengths content indexed
    (List.replicate expectedLengths.length none) List.length_replicate
    (by
      intro output member
      obtain ⟨index, inRange, rfl⟩ := List.mem_map.mp (listed.mem_iff.mp member)
      have inside := List.mem_range.mp inRange
      exact ⟨index, inside, rfl, sameLength index inside, finite index inside⟩)
    distinct
    (by
      intro index inside
      have member : Int.ofNat index ∈ indexed.map Prod.fst :=
        labels.mem_iff.mpr (List.mem_map.mpr ⟨index, List.mem_range.mpr inside, rfl⟩)
      rw [if_pos member, List.getD_replicate _ inside])
  have complete : ((List.range expectedLengths.length).map
      (fun index => some (content index))).any Option.isNone = false := by
    rw [List.any_eq_false]
    intro result member
    obtain ⟨index, -, rfl⟩ := List.mem_map.mp member
    exact Bool.false_ne_true
  have unwrapped : ((List.range expectedLengths.length).map
      (fun index => some (content index))).filterMap id =
      (List.range expectedLengths.length).map content := by
    rw [List.filterMap_map]
    exact congrFun List.filterMap_eq_map _
  change (do
    let results ← placeOutputs isFinite expectedLengths
      (List.replicate expectedLengths.length none) indexed
    if results.any Option.isNone then _ else _) = _
  rw [placed]
  simp only [bind, Except.bind, complete, unwrapped, Bool.false_eq_true, if_false]

/-! ## The whole evaluation -/

section
variable [Field Scalar] (loss : ValueLossConfig Scalar) (exponential : Scalar → Scalar)
  (model : ValueModel Scalar (valueHeadOutputSize loss)) (packSequences : Bool)
  (alone : List Nat → List (Fin (valueHeadOutputSize loss) → Scalar))

/-- Packing gives one list of rows for each rank. If no row exceeds the offset
capacity of a model that takes boundaries, every rank predicts, and in whichever
order the ranks are gathered the reassembled values are those of each requested
sequence evaluated alone. -/
theorem evaluation_independent_of_batching (isFinite : Scalar → Bool) (tokenIds : List (List Nat))
    (seqLen worldSize padTokenId : Nat) (filled : tokenIds ≠ []) (positive : 1 ≤ worldSize)
    (bounded : ∀ tokens ∈ tokenIds, 1 ≤ tokens.length ∧ tokens.length ≤ seqLen)
    (isolated : SequenceLocal model packSequences alone)
    (finite : ∀ tokens ∈ tokenIds, ∀ value ∈ valuesAlone loss exponential (alone tokens),
      isFinite value = true) :
    ∃ grid, packValueInputs tokenIds seqLen worldSize padTokenId packSequences = .ok grid ∧
      grid.length = worldSize ∧
      ((model.supportsPackedSequenceMetadata = true →
          ∀ rank ∈ grid, ∀ row ∈ rank, row.inputIds.length ≤ int32Max) →
        ∃ outputs,
          grid.map (predictValueMicrobatches loss exponential model) = outputs.map Except.ok ∧
          ∀ gathered : List (Indexed Scalar), gathered.Perm outputs →
            reassembleValueOutputs isFinite gathered.flatten (tokenIds.map List.length) =
              .ok (tokenIds.map (fun tokens => valuesAlone loss exponential (alone tokens)))) := by
  have lengthsBounded : ∀ length ∈ tokenIds.map List.length, 1 ≤ length ∧ length ≤ seqLen := by
    intro length member
    obtain ⟨tokens, listed, rfl⟩ := List.mem_map.mp member
    exact bounded tokens listed
  obtain ⟨bins, dummies, packed, width, dealt⟩ := pack_indices_cases (tokenIds.map List.length)
    seqLen worldSize packSequences (by simpa using filled) positive lengthsBounded
  have placedOnce := pack_bins_perm (tokenIds.map List.length) seqLen packSequences
    (fun length member => (lengthsBounded length member).2)
  rw [List.length_map] at placedOnce
  have nonempty : ∀ tokens ∈ tokenIds, tokens ≠ [] :=
    fun tokens member => List.length_pos_iff.mp (bounded tokens member).1
  have binCases : ∀ rank ∈ bins, ∀ bin ∈ rank,
      bin ∈ packBins (tokenIds.map List.length) seqLen packSequences ∨ bin = [] := by
    intro rank rankMember bin member
    have inGrid := dealt.mem_iff.mp (List.mem_flatten.mpr ⟨rank, rankMember, member⟩)
    rcases List.mem_append.mp inGrid with real | dummy
    · exact Or.inl real
    · exact Or.inr (List.eq_of_mem_replicate dummy)
  have inside : ∀ rank ∈ bins, ∀ bin ∈ rank, ∀ index ∈ bin, index < tokenIds.length := by
    intro rank rankMember bin binMember index member
    rcases binCases rank rankMember bin binMember with real | rfl
    · exact List.mem_range.mp
        (placedOnce.mem_iff.mp (List.mem_flatten.mpr ⟨bin, real, member⟩))
    · exact absurd member List.not_mem_nil
  have shape : ∀ rank ∈ bins, ∀ bin ∈ rank, packSequences = true ∨ bin.length ≤ 1 := by
    intro rank rankMember bin binMember
    cases packSequences with
    | true => exact Or.inl rfl
    | false =>
      rcases binCases rank rankMember bin binMember with real | rfl
      · exact Or.inr (unpacked_singletons _ seqLen bin real).le
      · exact Or.inr (Nat.zero_le 1)
  refine ⟨_, by rw [packValueInputs, packed]; rfl, by rw [List.length_map, width], ?_⟩
  intro capacity
  refine ⟨bins.map (fun rank => rank.flatten.map (outputAlone loss exponential alone tokenIds)),
    ?_, ?_⟩
  · rw [List.map_map, List.map_map]
    apply List.map_congr_left
    intro rank member
    refine predict_rank loss exponential model packSequences alone isolated tokenIds padTokenId
      rank nonempty (inside rank member) (shape rank member) ?_
    intro supports bin binMember
    exact capacity supports _ (List.mem_map.mpr ⟨rank, member, rfl⟩) _
      (List.mem_map.mpr ⟨bin, binMember, rfl⟩)
  · intro gathered order
    have everySample : gathered.flatten.Perm
        ((List.range tokenIds.length).map (outputAlone loss exponential alone tokenIds)) := by
      have reordered := order.flatten
      have regrouped : (bins.map (fun rank =>
          rank.flatten.map (outputAlone loss exponential alone tokenIds))).flatten =
          bins.flatten.flatten.map (outputAlone loss exponential alone tokenIds) := by
        rw [List.map_flatten, List.map_flatten, List.flatten_flatten, List.map_map]
        simp only [Function.comp_def, List.map_flatten]
      rw [regrouped] at reordered
      have indices : bins.flatten.flatten.Perm (List.range tokenIds.length) := by
        have flattened := dealt.flatten
        rw [List.flatten_append, List.flatten_replicate_nil, List.append_nil] at flattened
        exact flattened.trans placedOnce
      exact reordered.trans (indices.map _)
    have reassembled := reassemble_perm isFinite (tokenIds.map List.length)
      (fun index => valuesAlone loss exponential (alone (tokenIds.getD index []))) gathered.flatten
      (by rw [List.length_map]; exact everySample)
      (by
        intro index inRange
        rw [List.length_map] at inRange
        rw [values_alone_length, isolated.1, List.getD_eq_getElem _ _ inRange,
          List.getD_eq_getElem _ _ (by rw [List.length_map]; exact inRange), List.getElem_map])
      (by
        intro index inRange
        rw [List.length_map] at inRange
        rw [List.all_eq_true, List.getD_eq_getElem _ _ inRange]
        exact finite _ (List.getElem_mem _))
    rw [reassembled, List.length_map]
    congr 1
    apply List.ext_getElem (by simp)
    intro index inRange inTokens
    rw [List.length_map] at inTokens
    simp [List.getD_eq_getElem?_getD, inTokens]

end

/-- Logits that read every token by itself. -/
def tokenLogits (tokens : List Nat) : List (Fin 1 → Rat) := tokens.map (fun (token : Nat) _ => token)

/-- A network with these logits that takes packed boundaries. -/
def tokenwise : ValueModel Rat 1 :=
  { supportsPackedSequenceMetadata := true
    forward := fun inputIds _ _ => tokenLogits inputIds }

theorem tokenwise_local (packSequences : Bool) :
    SequenceLocal tokenwise packSequences tokenLogits := by
  refine ⟨fun tokens => List.length_map _, ?_⟩
  intro sequences metadata _ _ _
  change sequences.flatten.map (fun (token : Nat) (_ : Fin 1) => (token : Rat)) = _
  rw [List.map_flatten, ← List.flatMap_def]
  rfl

/-- Two sequences packed on the row of one of two ranks. The other rank evaluates a
padding row. -/
theorem evaluation_independent_of_batching_tokenwise :
    let grid : List (List ValueInputMicroBatch) :=
      [[⟨[7, 8, 9, 5, 6], [0, 1, 2, 0, 1], [3, 2], [1, 0]⟩], [⟨[0], [0], [1], [-1]⟩]]
    packValueInputs [[5, 6], [7, 8, 9]] 8 2 0 true = .ok grid ∧ grid.length = 2 ∧
      ∃ outputs, grid.map (predictValueMicrobatches .mse id tokenwise) = outputs.map Except.ok ∧
        ∀ gathered : List (Indexed Rat), gathered.Perm outputs →
          reassembleValueOutputs (fun _ => true) gathered.flatten [2, 3] =
            .ok [[0, 5], [0, 7, 8]] := by
  intro grid
  have dealt : packValueInputs [[5, 6], [7, 8, 9]] 8 2 0 true = .ok grid := by decide +kernel
  obtain ⟨packed, isPacked, width, predicts⟩ := evaluation_independent_of_batching .mse id tokenwise
    true tokenLogits (fun _ => true) [[5, 6], [7, 8, 9]] 8 2 0 (by decide) (by decide) (by decide)
    (tokenwise_local true) (fun _ _ _ _ => rfl)
  obtain rfl : packed = grid := Except.ok.inj (isPacked.symm.trans dealt)
  exact ⟨dealt, width, predicts (fun _ => by decide)⟩

/-- A single sequence beyond the offset capacity is packed, but its row is
rejected for a network that takes boundaries. -/
theorem long_row_rejected (length : Nat) (tooLong : int32Max < length) :
    packValueInputs [List.replicate length 0] length 1 0 true =
        .ok [[⟨List.replicate length 0, List.range length, [length], [0]⟩]] ∧
      predictValueMicrobatches .mse id tokenwise
          [⟨List.replicate length 0, List.range length, [length], [0]⟩] =
        .error "Packed token count exceeds int32 cumulative-offset capacity" := by
  have positive : length ≠ 0 := by omega
  constructor
  · simp [packValueInputs, packIndices, packBins, orderedIndices, placeIndex, padBins, dealBins,
      Buckets.collect, materializeInputs, positive, List.range_one, Except.map]
  · obtain ⟨-, rejected⟩ := prepare_accepts [length] (List.cons_ne_nil _ _)
      (by
        intro only member
        rw [List.mem_singleton.mp member]
        exact Nat.pos_of_ne_zero positive)
    simp only [List.sum_singleton] at rejected
    simp only [predictValueMicrobatches, predictMicrobatch, packingMetadata, tokenwise, if_true,
      List.length_replicate, rejected tooLong]
    rfl

/-- A sequence of two to the thirty-first tokens takes the error branch. -/
theorem evaluation_offset_overflow :
    SequenceLocal tokenwise true tokenLogits ∧
      packValueInputs [List.replicate 2147483648 0] 2147483648 1 0 true =
        .ok [[⟨List.replicate 2147483648 0, List.range 2147483648, [2147483648], [0]⟩]] ∧
      predictValueMicrobatches .mse id tokenwise
          [⟨List.replicate 2147483648 0, List.range 2147483648, [2147483648], [0]⟩] =
        .error "Packed token count exceeds int32 cumulative-offset capacity" :=
  ⟨tokenwise_local true, long_row_rejected 2147483648 (by decide)⟩

end PrimeRl.Value.Inference
