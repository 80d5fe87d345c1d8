import PrimeRl.Support.Argsort
import PrimeRl.Trainer.LossTokens

/-!
# The loss of a row by its segments

The streams of a row and its shifted log-probabilities are cut at the same
places, so each sequence is read as one segment. From its second token on, a
sequence has the log-probabilities that its own tokens give. What stands before
its first token belongs to the row, and a segment without weight there has a
loss of its own.
-/

namespace PrimeRl.Trainer.Loss

open PrimeRl.Transport PrimeRl.Trainer.Batch

variable {Scalar : Type}

/-! ## Cutting the streams of a row -/

namespace SequenceInputs

def take (count : Nat) (sequence : SequenceInputs Scalar) : SequenceInputs Scalar where
  trainerLogprobs := sequence.trainerLogprobs.take count
  inferenceLogprobs := sequence.inferenceLogprobs.take count
  refLogprobs := sequence.refLogprobs.map (List.take count)
  advantages := sequence.advantages.take count
  lossMask := sequence.lossMask.take count
  rlWeights := sequence.rlWeights.map (List.take count)
  ceWeights := sequence.ceWeights.map (List.take count)
  refKlWeights := sequence.refKlWeights.map (List.take count)

def drop (count : Nat) (sequence : SequenceInputs Scalar) : SequenceInputs Scalar where
  trainerLogprobs := sequence.trainerLogprobs.drop count
  inferenceLogprobs := sequence.inferenceLogprobs.drop count
  refLogprobs := sequence.refLogprobs.map (List.drop count)
  advantages := sequence.advantages.drop count
  lossMask := sequence.lossMask.drop count
  rlWeights := sequence.rlWeights.map (List.drop count)
  ceWeights := sequence.ceWeights.map (List.drop count)
  refKlWeights := sequence.refKlWeights.map (List.drop count)

/-- Cut off sequences of the given sizes from the front. -/
def split : List Nat → SequenceInputs Scalar → List (SequenceInputs Scalar)
  | [], _ => []
  | count :: rest, sequence => sequence.take count :: split rest (sequence.drop count)

end SequenceInputs

theorem split_tensor_length {Value : Type} (sizes : List Nat) (values : List Value) :
    (splitTensor sizes values).length = sizes.length := by
  induction sizes generalizing values with
  | nil => rfl
  | cons count rest inductionHypothesis =>
    rw [splitTensor, List.length_cons, List.length_cons, inductionHypothesis]

/-- Zipping the pieces of all streams cuts the streams together. -/
theorem zip_sequences_split (sizes : List Nat) (whole : SequenceInputs Scalar) :
    zipSequences (splitTensor sizes whole.trainerLogprobs)
        (splitTensor sizes whole.inferenceLogprobs) (whole.refLogprobs.map (splitTensor sizes))
        (splitTensor sizes whole.advantages) (splitTensor sizes whole.lossMask)
        (whole.rlWeights.map (splitTensor sizes)) (whole.ceWeights.map (splitTensor sizes))
        (whole.refKlWeights.map (splitTensor sizes)) =
      SequenceInputs.split sizes whole := by
  induction sizes generalizing whole with
  | nil => rfl
  | cons count rest inductionHypothesis =>
    have tail := inductionHypothesis (whole.drop count)
    rw [SequenceInputs.split, ← tail]
    obtain ⟨trainer, inference, ref, advantages, lossMask, rl, ce, refKl⟩ := whole
    cases ref <;> cases rl <;> cases ce <;> cases refKl <;> rfl

/-- A stream of a row is absent in all its sequences or in none. -/
structure Reads (sequence : SequenceInputs Scalar) (segment : Segment Scalar) : Prop where
  inferenceLogprobs : sequence.inferenceLogprobs = segment.logprobs
  refLogprobs : weightColumn sequence.refLogprobs segment.size = segment.refLogprobs
  advantages : sequence.advantages = segment.advantages
  lossMask : sequence.lossMask = segment.lossMask
  rlWeights : weightColumn sequence.rlWeights segment.size = segment.rlWeights
  ceWeights : weightColumn sequence.ceWeights segment.size = segment.ceWeights
  refKlWeights : weightColumn sequence.refKlWeights segment.size = segment.refKlWeights

theorem column_take (stream : Option (List Scalar)) (count numTokens : Nat) :
    weightColumn (stream.map (List.take count)) (min count numTokens) =
      (weightColumn stream numTokens).take count := by
  cases stream with
  | none => exact List.take_replicate.symm
  | some values => exact List.map_take

theorem column_drop (stream : Option (List Scalar)) (count numTokens : Nat) :
    weightColumn (stream.map (List.drop count)) (numTokens - count) =
      (weightColumn stream numTokens).drop count := by
  cases stream with
  | none => exact List.drop_replicate.symm
  | some values => exact List.map_drop

theorem reads_take {sequence : SequenceInputs Scalar} {segment : Segment Scalar} (count : Nat)
    (reads : Reads sequence segment) : Reads (sequence.take count) (segment.take count) := by
  have size : (segment.take count).size = min count segment.size := List.length_take
  constructor
  case inferenceLogprobs => exact congrArg (List.take count) reads.inferenceLogprobs
  case advantages => exact congrArg (List.take count) reads.advantages
  case lossMask => exact congrArg (List.take count) reads.lossMask
  all_goals rw [size]; refine (column_take _ count segment.size).trans (congrArg (List.take count) ?_)
  · exact reads.refLogprobs
  · exact reads.rlWeights
  · exact reads.ceWeights
  · exact reads.refKlWeights

theorem reads_drop {sequence : SequenceInputs Scalar} {segment : Segment Scalar} (count : Nat)
    (reads : Reads sequence segment) : Reads (sequence.drop count) (segment.drop count) := by
  have size : (segment.drop count).size = segment.size - count := List.length_drop
  constructor
  case inferenceLogprobs => exact congrArg (List.drop count) reads.inferenceLogprobs
  case advantages => exact congrArg (List.drop count) reads.advantages
  case lossMask => exact congrArg (List.drop count) reads.lossMask
  all_goals rw [size]; refine (column_drop _ count segment.size).trans (congrArg (List.drop count) ?_)
  · exact reads.refLogprobs
  · exact reads.rlWeights
  · exact reads.ceWeights
  · exact reads.refKlWeights

/-! ## Log-probabilities of a segment -/

section Values
variable [Zero Scalar]

/-- The log-probability that the tokens of a segment give its tokens; its first
token is given none. -/
def ownLogprob (model : Model Scalar) (segment : Segment Scalar) : Nat → Scalar
  | 0 => 0
  | position + 1 => model (segment.tokenIds.take (position + 1))
      (segment.temperatures.getD position 0) (segment.tokenIds.getD (position + 1) 0)

/-- After their first token, the log-probabilities of a sequence are those of
its segment. -/
structure Own (model : Model Scalar) (sequence : SequenceInputs Scalar) (segment : Segment Scalar) :
    Prop where
  length : sequence.trainerLogprobs.length = segment.size
  values : ∀ position, position + 1 < segment.size →
    sequence.trainerLogprobs.getD (position + 1) 0 = ownLogprob model segment (position + 1)

theorem getD_take {Value : Type} (values : List Value) (count position : Nat) (other : Value)
    (inside : position < count) : (values.take count).getD position other = values.getD position other := by
  rw [List.getD_eq_getElem?_getD, List.getD_eq_getElem?_getD, List.getElem?_take_of_lt inside]

theorem getD_drop {Value : Type} (values : List Value) (count position : Nat) (other : Value) :
    (values.drop count).getD position other = values.getD (count + position) other := by
  rw [List.getD_eq_getElem?_getD, List.getD_eq_getElem?_getD, List.getElem?_drop]

omit [Zero Scalar] in
theorem sequence_forward_length (model : Model Scalar) (tokens : List Nat)
    (temperatures : List Scalar) (labels : List Nat) (warm : tokens.length ≤ temperatures.length)
    (labelled : tokens.length ≤ labels.length) :
    (sequenceForward model tokens temperatures labels).length = tokens.length := by
  rw [sequenceForward, List.length_zipWith, List.length_zipWith, List.length_map, List.length_range]
  omega

theorem sequence_forward_value (model : Model Scalar) (tokens : List Nat)
    (temperatures : List Scalar) (labels : List Nat) (warm : tokens.length ≤ temperatures.length)
    (labelled : tokens.length ≤ labels.length) (position : Nat) (inside : position < tokens.length) :
    (sequenceForward model tokens temperatures labels).getD position 0 =
      model (tokens.take (position + 1)) (temperatures.getD position 0) (labels.getD position 0) := by
  have produced : position < (sequenceForward model tokens temperatures labels).length := by
    rw [sequence_forward_length model tokens temperatures labels warm labelled]
    exact inside
  rw [List.getD_eq_getElem _ _ produced, List.getD_eq_getElem _ _ (inside.trans_le warm),
    List.getD_eq_getElem _ _ (inside.trans_le labelled)]
  simp [sequenceForward]

/-- The pieces of shifted log-probabilities belong to their segments, whatever
stands before the first token of a piece. -/
theorem split_own (model : Model Scalar) (sizes : List Nat) (labels : List Nat)
    (sequence : SequenceInputs Scalar) (segment : Segment Scalar)
    (whole : sizes.sum = segment.size) (warm : segment.temperatures.length = segment.size)
    (labelled : segment.size ≤ labels.length)
    (long : segment.size ≤ sequence.trainerLogprobs.length)
    (next : ∀ position, position + 1 < segment.size →
      labels.getD position 0 = segment.tokenIds.getD (position + 1) 0)
    (shifted : ∀ position, position + 1 < segment.size →
      sequence.trainerLogprobs.getD (position + 1) 0 =
        (forward model sizes segment.tokenIds segment.temperatures labels).getD position 0) :
    List.Forall₂ (Own model) (SequenceInputs.split sizes sequence) (Segment.split sizes segment) := by
  induction sizes generalizing labels sequence segment with
  | nil => exact .nil
  | cons count rest inductionHypothesis =>
    rw [List.sum_cons] at whole
    have inside : (segment.tokenIds.take count).length = count := by
      rw [List.length_take]
      exact Nat.min_eq_left ((Nat.le_add_right count rest.sum).trans_eq whole)
    have warmPiece : (segment.tokenIds.take count).length ≤ (segment.temperatures.take count).length := by
      rw [List.length_take, List.length_take, warm]
      exact Nat.le_refl _
    have labelledPiece : (segment.tokenIds.take count).length ≤ (labels.take count).length := by
      rw [List.length_take, List.length_take]
      exact min_le_min_left count labelled
    have length := sequence_forward_length model _ _ _ warmPiece labelledPiece
    rw [inside] at length
    rw [SequenceInputs.split, Segment.split]
    refine .cons ⟨?_, ?_⟩ ?_
    · rw [SequenceInputs.take, Segment.take, List.length_take, Segment.size, inside]
      omega
    · intro position before
      have early : position + 1 < count := inside ▸ before
      have within : position + 1 < segment.size := by omega
      have value := shifted position within
      rw [forward, List.getD_append _ _ _ _ (by omega),
        sequence_forward_value model _ _ _ warmPiece labelledPiece position (by omega),
        getD_take labels count position 0 (by omega), next position within] at value
      have piece : (sequence.take count).trainerLogprobs.getD (position + 1) 0 =
          sequence.trainerLogprobs.getD (position + 1) 0 := getD_take _ count _ 0 early
      rw [piece, value, ownLogprob, Segment.take, getD_take segment.tokenIds count _ 0 early]
    · have remaining : (segment.drop count).size = segment.size - count := List.length_drop
      apply inductionHypothesis (labels.drop count)
      · omega
      · rw [remaining, Segment.drop, List.length_drop, warm]
      · rw [remaining, List.length_drop]
        omega
      · rw [remaining, SequenceInputs.drop, List.length_drop]
        omega
      · intro position before
        have within : count + position + 1 < segment.size := by omega
        rw [getD_drop, Segment.drop, getD_drop, ← Nat.add_assoc]
        exact next (count + position) within
      · intro position before
        have within : count + position + 1 < segment.size := by omega
        have value := shifted (count + position) within
        rw [forward, List.getD_append_right _ _ _ _ (by omega), length, Nat.add_sub_cancel_left] at value
        rw [SequenceInputs.drop, getD_drop, ← Nat.add_assoc]
        exact value

/-- What a column says of a token: the value of the stream, when the row carries it. -/
theorem column_getD (stream : Option (List Scalar)) (numTokens position : Nat)
    (length : (weightColumn stream numTokens).length = numTokens) (inside : position < numTokens) :
    (weightColumn stream numTokens).getD position none =
      stream.map (fun values => values.getD position 0) := by
  cases stream with
  | none =>
    rw [weightColumn, List.getD_eq_getElem _ _ (by rw [List.length_replicate]; exact inside),
      List.getElem_replicate, Option.map_none]
  | some values =>
    have present : position < values.length := by
      rw [weightColumn, List.length_map] at length
      omega
    rw [weightColumn, List.getD_eq_getElem _ _ (by rw [List.length_map]; exact present),
      List.getElem_map, Option.map_some, List.getD_eq_getElem _ _ present]

theorem column_tabulate (stream : Option (List Scalar)) (numTokens : Nat)
    (length : (weightColumn stream numTokens).length = numTokens) :
    (stream.map (fun values position => values.getD position 0)).map
        (fun value => (List.range numTokens).map value) = stream := by
  cases stream with
  | none => rfl
  | some values =>
    rw [weightColumn, List.length_map] at length
    rw [Option.map_some, Option.map_some, ← length, Argsort.range_getD]

/-- The first token of a segment has no weight in any component. -/
structure Unweighted (segment : Segment Scalar) : Prop where
  masked : segment.lossMask.getD 0 false = false
  ceWeights : (segment.ceWeights.getD 0 none).getD 0 = 0
  refKlWeights : (segment.refKlWeights.getD 0 none).getD 0 = 0

/-- Without reference log-probabilities no token has a ref_kl weight. -/
def Referenced (refLogprobs refKlWeights : Option (List Scalar)) : Prop :=
  refLogprobs = none → ∀ weights, refKlWeights = some weights → ∀ weight ∈ weights, weight = 0

theorem referenced_split (sizes : List Nat) (whole : SequenceInputs Scalar)
    (referenced : Referenced whole.refLogprobs whole.refKlWeights) :
    ∀ sequence ∈ SequenceInputs.split sizes whole,
      Referenced sequence.refLogprobs sequence.refKlWeights := by
  induction sizes generalizing whole with
  | nil => exact fun sequence impossible => absurd impossible List.not_mem_nil
  | cons count rest inductionHypothesis =>
    intro sequence member
    rcases List.mem_cons.mp member with rfl | later
    · intro absent weights present weight inside
      obtain ⟨own, carried, rfl⟩ := Option.map_eq_some_iff.mp present
      exact referenced (Option.map_eq_none_iff.mp absent) own carried weight
        (List.mem_of_mem_take inside)
    · apply inductionHypothesis (whole.drop count) _ sequence later
      intro absent weights present weight inside
      obtain ⟨own, carried, rfl⟩ := Option.map_eq_some_iff.mp present
      exact referenced (Option.map_eq_none_iff.mp absent) own carried weight
        (List.mem_of_mem_drop inside)

omit [Zero Scalar] in
theorem reads_split (sizes : List Nat) (whole : SequenceInputs Scalar) (segment : Segment Scalar)
    (reads : Reads whole segment) :
    List.Forall₂ Reads (SequenceInputs.split sizes whole) (Segment.split sizes segment) := by
  induction sizes generalizing whole segment with
  | nil => exact .nil
  | cons count rest inductionHypothesis =>
    exact .cons (reads_take count reads) (inductionHypothesis _ _ (reads_drop count reads))

end Values

/-! ## Losses of segments and rows -/

section Rows
variable [Field Scalar] [LinearOrder Scalar]

/-- The (rl, ce, ref_kl) losses of the token at a position of a segment. -/
def positionLosses (objective : Objective Scalar) (segment : Segment Scalar)
    (logprob : Scalar) (position : Nat) : Scalar × Scalar × Scalar :=
  tokenLosses objective.functions objective.lossConfig logprob (segment.logprobs.getD position 0)
    ((segment.refLogprobs.getD position none).getD 0) (segment.advantages.getD position 0)
    (segment.lossMask.getD position false) ((segment.rlWeights.getD position none).getD 1)
    ((segment.ceWeights.getD position none).getD 0)
    ((segment.refKlWeights.getD position none).getD 0)

/-- The losses of a segment by itself. -/
def segmentLosses (objective : Objective Scalar) (segment : Segment Scalar) :
    Scalar × Scalar × Scalar :=
  ((List.range segment.size).map (fun position => positionLosses objective segment
    (ownLogprob objective.model segment position) position)).sum

/-- A first token without weight has no loss, whatever its log-probability is. -/
theorem unweighted_losses (objective : Objective Scalar) (segment : Segment Scalar)
    (unweighted : Unweighted segment) (logprob : Scalar) :
    positionLosses objective segment logprob 0 = 0 := by
  rw [positionLosses, tokenLosses, unweighted.masked, unweighted.ceWeights,
    unweighted.refKlWeights, if_neg Bool.false_ne_true, mul_zero, mul_zero]
  rfl

/-- A sequence has the losses of its segment. -/
theorem sequence_losses_segment (objective : Objective Scalar) (sequence : SequenceInputs Scalar)
    (segment : Segment Scalar) (aligned : segment.Aligned) (reads : Reads sequence segment)
    (own : Own objective.model sequence segment) (unweighted : Unweighted segment)
    (referenced : Referenced sequence.refLogprobs sequence.refKlWeights) :
    sequenceLosses objective.functions objective.rlLossFn sequence =
      .ok (segmentLosses objective segment) := by
  obtain ⟨column, isColumn⟩ : ∃ column : Option (List Scalar) → Option (Nat → Scalar),
    column = fun stream => stream.map (fun values position => values.getD position 0) := ⟨_, rfl⟩
  have refLength := reads.refLogprobs.symm ▸ aligned.refLogprobs
  have rlLength := reads.rlWeights.symm ▸ aligned.rlWeights
  have ceLength := reads.ceWeights.symm ▸ aligned.ceWeights
  have refKlLength := reads.refKlWeights.symm ▸ aligned.refKlWeights
  have tabulated : sequence = SequenceInputs.tabulate (List.range segment.size)
      (fun position => sequence.trainerLogprobs.getD position 0)
      (fun position => segment.logprobs.getD position 0)
      (fun position => segment.advantages.getD position 0)
      (fun position => segment.lossMask.getD position false) (column sequence.refLogprobs)
      (column sequence.rlWeights) (column sequence.ceWeights) (column sequence.refKlWeights) := by
    have trainer : (List.range segment.size).map
        (fun position => sequence.trainerLogprobs.getD position 0) = sequence.trainerLogprobs := by
      rw [← own.length, Argsort.range_getD]
    have inference : (List.range segment.size).map
        (fun position => segment.logprobs.getD position 0) = sequence.inferenceLogprobs := by
      rw [← aligned.logprobs, Argsort.range_getD, reads.inferenceLogprobs]
    have advantages : (List.range segment.size).map
        (fun position => segment.advantages.getD position 0) = sequence.advantages := by
      rw [← aligned.advantages, Argsort.range_getD, reads.advantages]
    have mask : (List.range segment.size).map
        (fun position => segment.lossMask.getD position false) = sequence.lossMask := by
      rw [← aligned.lossMask, Argsort.range_getD, reads.lossMask]
    simp only [SequenceInputs.tabulate, isColumn, column_tabulate _ _ refLength,
      column_tabulate _ _ rlLength, column_tabulate _ _ ceLength, column_tabulate _ _ refKlLength,
      trainer, inference, advantages, mask]
  have unread : column sequence.refLogprobs = none → ∀ weight,
      column sequence.refKlWeights = some weight →
        ∀ position ∈ List.range segment.size, weight position = 0 := by
    rw [isColumn]
    intro absent weight present position inside
    obtain ⟨values, carried, rfl⟩ := Option.map_eq_some_iff.mp present
    rw [carried, weightColumn, List.length_map] at refKlLength
    rw [List.mem_range, ← refKlLength] at inside
    have value : values.getD position 0 = values[position] := List.getD_eq_getElem _ _ inside
    exact value.trans (referenced (Option.map_eq_none_iff.mp absent) values carried _
      (List.getElem_mem inside))
  have summed := sequence_losses_tokens objective.functions objective.lossConfig
    (List.range segment.size) (fun position => sequence.trainerLogprobs.getD position 0)
    (fun position => segment.logprobs.getD position 0)
    (fun position => segment.advantages.getD position 0)
    (fun position => segment.lossMask.getD position false) (column sequence.refLogprobs)
    (column sequence.rlWeights) (column sequence.ceWeights) (column sequence.refKlWeights) unread
  rw [← tabulated] at summed
  rw [Objective.rlLossFn, summed, segmentLosses]
  congr 2
  apply List.map_congr_left
  intro position inside
  have within := List.mem_range.mp inside
  -- a stream says of the token what its column says
  have read (stream : Option (List Scalar)) (listed : List (Option Scalar))
      (reads : weightColumn stream segment.size = listed) (length : listed.length = segment.size) :
      (column stream).map (fun value => value position) = listed.getD position none := by
    rw [← reads, column_getD _ _ _ (reads ▸ length) within, isColumn, Option.map_map]
    rfl
  have same : tokenLosses objective.functions objective.lossConfig
      (sequence.trainerLogprobs.getD position 0) (segment.logprobs.getD position 0)
      (((column sequence.refLogprobs).map (fun value => value position)).getD 0)
      (segment.advantages.getD position 0) (segment.lossMask.getD position false)
      (weightAt (column sequence.rlWeights) position)
      (((column sequence.ceWeights).map (fun value => value position)).getD 0)
      (((column sequence.refKlWeights).map (fun value => value position)).getD 0) =
      positionLosses objective segment (sequence.trainerLogprobs.getD position 0) position := by
    rw [weightAt, read _ _ reads.refLogprobs aligned.refLogprobs,
      read _ _ reads.rlWeights aligned.rlWeights, read _ _ reads.ceWeights aligned.ceWeights,
      read _ _ reads.refKlWeights aligned.refKlWeights, positionLosses]
  rw [same]
  cases position with
  | zero => rw [unweighted_losses objective segment unweighted,
      unweighted_losses objective segment unweighted]
  | succ position => rw [own.values position within]

theorem sequence_losses_segments (objective : Objective Scalar)
    (sequences : List (SequenceInputs Scalar)) (listed : List (Segment Scalar))
    (reads : List.Forall₂ Reads sequences listed)
    (own : List.Forall₂ (Own objective.model) sequences listed)
    (aligned : ∀ segment ∈ listed, segment.Aligned)
    (unweighted : ∀ segment ∈ listed, Unweighted segment)
    (referenced : ∀ sequence ∈ sequences, Referenced sequence.refLogprobs sequence.refKlWeights) :
    List.Forall₂ (fun sequence segment =>
      sequenceLosses objective.functions objective.rlLossFn sequence =
        .ok (segmentLosses objective segment)) sequences listed := by
  induction reads with
  | nil => exact .nil
  | @cons sequence segment sequences listed firstReads others inductionHypothesis =>
    cases own with
    | cons firstOwn restOwn =>
      refine .cons ?_ (inductionHypothesis restOwn
        (fun other member => aligned other (List.mem_cons_of_mem segment member))
        (fun other member => unweighted other (List.mem_cons_of_mem segment member))
        (fun other member => referenced other (List.mem_cons_of_mem sequence member)))
      exact sequence_losses_segment objective sequence segment (aligned segment List.mem_cons_self)
        firstReads firstOwn (unweighted segment List.mem_cons_self)
        (referenced sequence List.mem_cons_self)

/-- Sequences that agree with their segments have the losses of the segments together. -/
theorem accumulate_losses_segments (objective : Objective Scalar)
    (sequences : List (SequenceInputs Scalar)) (listed : List (Segment Scalar))
    (each : List.Forall₂ (fun sequence segment =>
      sequenceLosses objective.functions objective.rlLossFn sequence =
        .ok (segmentLosses objective segment)) sequences listed)
    (totals : Scalar × Scalar × Scalar) :
    accumulateLosses objective.functions objective.rlLossFn totals sequences =
      .ok (totals + (listed.map (segmentLosses objective)).sum) := by
  induction each generalizing totals with
  | nil =>
    rw [List.map_nil, List.sum_nil, add_zero]
    rfl
  | cons first others inductionHypothesis =>
    rw [accumulateLosses, first, List.map_cons, List.sum_cons, ← add_assoc]
    exact inductionHypothesis _

omit [LinearOrder Scalar] in
/-- The labels of a row are its next tokens. -/
theorem labels_next (tokens : List Nat) (position : Nat) (inside : position + 1 < tokens.length) :
    (shiftTensorLeft tokens).getD position 0 = tokens.getD (position + 1) 0 := by
  have before : position < (tokens.drop 1).length := by
    rw [List.length_drop]
    omega
  rw [shiftTensorLeft, List.getD_append _ _ _ _ before, getD_drop, Nat.add_comm]

omit [LinearOrder Scalar] in
/-- After the first position, shifting reads the position before. -/
theorem shifted_value (values : List Scalar) (padValue : Scalar) (position : Nat)
    (inside : position + 1 < values.length) :
    (shiftTensorRight values padValue).getD (position + 1) 0 = values.getD position 0 := by
  rw [shiftTensorRight, List.getD_cons_succ, List.dropLast_eq_take]
  exact getD_take values _ position 0 (by omega)

omit [Field Scalar] [LinearOrder Scalar] in
theorem forward_length (model : Model Scalar) (sizes tokens : List Nat)
    (temperatures : List Scalar) (labels : List Nat) (whole : sizes.sum ≤ tokens.length)
    (warm : tokens.length ≤ temperatures.length) (labelled : tokens.length ≤ labels.length) :
    (forward model sizes tokens temperatures labels).length = sizes.sum := by
  induction sizes generalizing tokens temperatures labels with
  | nil => rfl
  | cons count rest inductionHypothesis =>
    rw [List.sum_cons] at whole ⊢
    rw [forward, List.length_append, sequence_forward_length, inductionHypothesis,
      List.length_take, Nat.min_eq_left (by omega)]
    all_goals simp only [List.length_take, List.length_drop]; omega

omit [Field Scalar] [LinearOrder Scalar] in
theorem split_aligned (sizes : List Nat) (segment : Segment Scalar) (aligned : segment.Aligned) :
    ∀ piece ∈ Segment.split sizes segment, piece.Aligned := by
  induction sizes generalizing segment with
  | nil => exact fun piece impossible => absurd impossible List.not_mem_nil
  | cons count rest inductionHypothesis =>
    intro piece member
    rcases List.mem_cons.mp member with rfl | later
    · exact Segment.take_aligned count segment aligned
    · exact inductionHypothesis _ (Segment.drop_aligned count segment aligned) piece later

/-- A row has the losses of its segments. -/
theorem micro_batch_losses (objective : Objective Scalar) (scales : Nat × Nat × Nat)
    (row : MicroBatch Scalar) (cuts : Cuts row)
    (unweighted : ∀ segment ∈ segments row, Unweighted segment)
    (referenced : Referenced row.refLogprobs row.refKlWeights) :
    microBatchLoss objective scales row =
      .ok (scaleLosses scales ((segments row).map (segmentLosses objective)).sum) := by
  obtain ⟨whole, isWhole⟩ : ∃ whole : SequenceInputs Scalar, whole =
    ⟨trainerLogprobs objective.model objective.padValue row, row.inferenceLogprobs,
      row.refLogprobs, row.advantages, row.lossMask, row.rlWeights, row.ceWeights,
      row.refKlWeights⟩ := ⟨_, rfl⟩
  have zipped := zip_sequences_split row.sequenceLengths whole
  have reads := reads_split row.sequenceLengths whole (columns row) (by
    rw [isWhole]
    exact ⟨rfl, rfl, rfl, rfl, rfl, rfl, rfl⟩)
  have labelled : row.inputIds.length ≤ (shiftTensorLeft row.inputIds).length := by
    rw [shiftTensorLeft, List.length_append, List.length_drop, List.length_singleton]
    omega
  have forwarded : (forward objective.model row.sequenceLengths row.inputIds row.temperatures
      (shiftTensorLeft row.inputIds)).length = row.inputIds.length :=
    (forward_length objective.model _ _ _ _ cuts.whole.le cuts.aligned.temperatures.ge
      labelled).trans cuts.whole
  have own := split_own objective.model row.sequenceLengths (shiftTensorLeft row.inputIds) whole
    (columns row) cuts.whole cuts.aligned.temperatures labelled
    (by
      rw [isWhole]
      simp only [trainerLogprobs, shiftTensorRight, List.length_cons, List.length_dropLast,
        forwarded, columns, Segment.size]
      omega)
    (fun position inside => labels_next row.inputIds position inside)
    (fun position inside => by
      rw [isWhole]
      exact shifted_value _ _ position (forwarded.symm ▸ inside))
  have each := sequence_losses_segments objective _ _ reads own
    (split_aligned row.sequenceLengths (columns row) cuts.aligned) unweighted
    (referenced_split row.sequenceLengths whole (isWhole ▸ referenced))
  have summed := accumulate_losses_segments objective _ _ each 0
  rw [← zipped, zero_add, isWhole] at summed
  rw [microBatchLoss, computeLoss, summed]
  rfl

end Rows

end PrimeRl.Trainer.Loss
