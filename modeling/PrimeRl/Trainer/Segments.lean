import Mathlib.Algebra.BigOperators.Group.List.Basic
import Mathlib.Algebra.Group.Prod
import Mathlib.Algebra.NeZero
import PrimeRl.Trainer.Batch

/-!
# Segments of a row

A row is read as one run of tokens with what each stream says of every token,
and its sequence lengths cut the run into segments. A weight of a token is none
where the row does not carry the stream; reading a segment fills in the identity
of the stream. Loss tokens are counted on segments, so a row counts what its
segments count together.
-/

namespace PrimeRl.Trainer.Batch

open PrimeRl.Transport

variable {Scalar : Type}

/-- Consecutive tokens of a row with their streams. -/
structure Segment (Scalar : Type) where
  tokenIds : List Nat
  lossMask : List Bool
  advantages : List Scalar
  logprobs : List Scalar
  positionIds : List Nat
  temperatures : List Scalar
  envNames : List String
  refLogprobs : List (Option Scalar)
  rlWeights : List (Option Scalar)
  ceWeights : List (Option Scalar)
  refKlWeights : List (Option Scalar)
deriving DecidableEq

namespace Segment

def size (segment : Segment Scalar) : Nat := segment.tokenIds.length

def take (count : Nat) (segment : Segment Scalar) : Segment Scalar where
  tokenIds := segment.tokenIds.take count
  lossMask := segment.lossMask.take count
  advantages := segment.advantages.take count
  logprobs := segment.logprobs.take count
  positionIds := segment.positionIds.take count
  temperatures := segment.temperatures.take count
  envNames := segment.envNames.take count
  refLogprobs := segment.refLogprobs.take count
  rlWeights := segment.rlWeights.take count
  ceWeights := segment.ceWeights.take count
  refKlWeights := segment.refKlWeights.take count

def drop (count : Nat) (segment : Segment Scalar) : Segment Scalar where
  tokenIds := segment.tokenIds.drop count
  lossMask := segment.lossMask.drop count
  advantages := segment.advantages.drop count
  logprobs := segment.logprobs.drop count
  positionIds := segment.positionIds.drop count
  temperatures := segment.temperatures.drop count
  envNames := segment.envNames.drop count
  refLogprobs := segment.refLogprobs.drop count
  rlWeights := segment.rlWeights.drop count
  ceWeights := segment.ceWeights.drop count
  refKlWeights := segment.refKlWeights.drop count

def append (segment other : Segment Scalar) : Segment Scalar where
  tokenIds := segment.tokenIds ++ other.tokenIds
  lossMask := segment.lossMask ++ other.lossMask
  advantages := segment.advantages ++ other.advantages
  logprobs := segment.logprobs ++ other.logprobs
  positionIds := segment.positionIds ++ other.positionIds
  temperatures := segment.temperatures ++ other.temperatures
  envNames := segment.envNames ++ other.envNames
  refLogprobs := segment.refLogprobs ++ other.refLogprobs
  rlWeights := segment.rlWeights ++ other.rlWeights
  ceWeights := segment.ceWeights ++ other.ceWeights
  refKlWeights := segment.refKlWeights ++ other.refKlWeights

/-- Segments one after the other. -/
def join (segments : List (Segment Scalar)) : Segment Scalar where
  tokenIds := segments.flatMap tokenIds
  lossMask := segments.flatMap lossMask
  advantages := segments.flatMap advantages
  logprobs := segments.flatMap logprobs
  positionIds := segments.flatMap positionIds
  temperatures := segments.flatMap temperatures
  envNames := segments.flatMap envNames
  refLogprobs := segments.flatMap refLogprobs
  rlWeights := segments.flatMap rlWeights
  ceWeights := segments.flatMap ceWeights
  refKlWeights := segments.flatMap refKlWeights

/-- Cut off segments of the given sizes from the front. -/
def split : List Nat → Segment Scalar → List (Segment Scalar)
  | [], _ => []
  | count :: rest, segment => segment.take count :: split rest (segment.drop count)

/-- Fill in the identities of the absent streams. -/
def read [Zero Scalar] [One Scalar] (segment : Segment Scalar) : Segment Scalar :=
  { segment with
    refLogprobs := segment.refLogprobs.map (fun logprob => some (logprob.getD 0))
    rlWeights := segment.rlWeights.map (fun weight => some (weight.getD 1))
    ceWeights := segment.ceWeights.map (fun weight => some (weight.getD 0))
    refKlWeights := segment.refKlWeights.map (fun weight => some (weight.getD 0)) }

/-- Every stream has a value for each token. -/
structure Aligned (segment : Segment Scalar) : Prop where
  lossMask : segment.lossMask.length = segment.size
  advantages : segment.advantages.length = segment.size
  logprobs : segment.logprobs.length = segment.size
  positionIds : segment.positionIds.length = segment.size
  temperatures : segment.temperatures.length = segment.size
  envNames : segment.envNames.length = segment.size
  refLogprobs : segment.refLogprobs.length = segment.size
  rlWeights : segment.rlWeights.length = segment.size
  ceWeights : segment.ceWeights.length = segment.size
  refKlWeights : segment.refKlWeights.length = segment.size

/-- No token is trained: every token is masked and every weight is zero or absent. -/
structure Inert [Zero Scalar] (segment : Segment Scalar) : Prop where
  masked : ∀ trained ∈ segment.lossMask, trained = false
  rlWeights : ∀ weight ∈ segment.rlWeights, weight = none ∨ weight = some 0
  ceWeights : ∀ weight ∈ segment.ceWeights, weight = none ∨ weight = some 0
  refKlWeights : ∀ weight ∈ segment.refKlWeights, weight = none ∨ weight = some 0

/-- The (rl, ce, ref_kl) loss tokens of a segment. -/
def lossCounts [Zero Scalar] [One Scalar] [DecidableEq Scalar] (segment : Segment Scalar) :
    Nat × Nat × Nat :=
  ((segment.lossMask.zip segment.rlWeights).countP
      (fun token => token.1 && decide (token.2.getD 1 ≠ 0)),
    segment.ceWeights.countP (fun weight => decide (weight.getD 0 ≠ 0)),
    segment.refKlWeights.countP (fun weight => decide (weight.getD 0 ≠ 0)))

theorem take_append_exact (segment other : Segment Scalar) (aligned : segment.Aligned) :
    (segment.append other).take segment.size = segment := by
  obtain ⟨lossMask, advantages, logprobs, positionIds, temperatures, envNames, refLogprobs,
    rlWeights, ceWeights, refKlWeights⟩ := aligned
  simp only [take, append]
  congr 1 <;> apply List.take_left'
  all_goals first | rfl | assumption

theorem drop_append_exact (segment other : Segment Scalar) (aligned : segment.Aligned) :
    (segment.append other).drop segment.size = other := by
  obtain ⟨lossMask, advantages, logprobs, positionIds, temperatures, envNames, refLogprobs,
    rlWeights, ceWeights, refKlWeights⟩ := aligned
  simp only [drop, append]
  congr 1 <;> apply List.drop_left'
  all_goals first | rfl | assumption

theorem split_size (segment : Segment Scalar) (aligned : segment.Aligned) :
    split [segment.size] segment = [segment] := by
  have whole : segment.take segment.size = segment := by
    obtain ⟨lossMask, advantages, logprobs, positionIds, temperatures, envNames, refLogprobs,
      rlWeights, ceWeights, refKlWeights⟩ := aligned
    simp only [take]
    congr 1 <;> apply List.take_of_length_le
    all_goals first | exact Nat.le_refl _ | exact Nat.le_of_eq (by assumption)
  rw [split, whole, split]

theorem join_cons (segment : Segment Scalar) (rest : List (Segment Scalar)) :
    join (segment :: rest) = segment.append (join rest) := rfl

/-- Cutting joined segments at their sizes gives them back. -/
theorem split_join (segments : List (Segment Scalar))
    (aligned : ∀ segment ∈ segments, segment.Aligned) :
    split (segments.map size) (join segments) = segments := by
  induction segments with
  | nil => rfl
  | cons segment rest inductionHypothesis =>
    have first := aligned segment List.mem_cons_self
    rw [List.map_cons, join_cons, split, take_append_exact _ _ first, drop_append_exact _ _ first,
      inductionHypothesis (fun other member => aligned other (List.mem_cons_of_mem segment member))]

theorem take_append_le (segment other : Segment Scalar) (count : Nat) (aligned : segment.Aligned)
    (inside : count ≤ segment.size) : (segment.append other).take count = segment.take count := by
  obtain ⟨lossMask, advantages, logprobs, positionIds, temperatures, envNames, refLogprobs,
    rlWeights, ceWeights, refKlWeights⟩ := aligned
  simp only [take, append]
  congr 1 <;> apply List.take_append_of_le_length
  all_goals first | exact inside | exact inside.trans_eq (Eq.symm (by assumption))

theorem drop_append_le (segment other : Segment Scalar) (count : Nat) (aligned : segment.Aligned)
    (inside : count ≤ segment.size) :
    (segment.append other).drop count = (segment.drop count).append other := by
  obtain ⟨lossMask, advantages, logprobs, positionIds, temperatures, envNames, refLogprobs,
    rlWeights, ceWeights, refKlWeights⟩ := aligned
  simp only [drop, append]
  congr 1 <;> apply List.drop_append_of_le_length
  all_goals first | exact inside | exact inside.trans_eq (Eq.symm (by assumption))

theorem take_aligned (count : Nat) (segment : Segment Scalar) (aligned : segment.Aligned) :
    (segment.take count).Aligned := by
  obtain ⟨lossMask, advantages, logprobs, positionIds, temperatures, envNames, refLogprobs,
    rlWeights, ceWeights, refKlWeights⟩ := aligned
  constructor <;> simp only [take, size, List.length_take] at * <;> congr 1

theorem drop_aligned (count : Nat) (segment : Segment Scalar) (aligned : segment.Aligned) :
    (segment.drop count).Aligned := by
  obtain ⟨lossMask, advantages, logprobs, positionIds, temperatures, envNames, refLogprobs,
    rlWeights, ceWeights, refKlWeights⟩ := aligned
  constructor <;> simp only [drop, size, List.length_drop] at * <;> congr 1

theorem append_aligned (first second : Segment Scalar) (firstAligned : first.Aligned)
    (secondAligned : second.Aligned) : (first.append second).Aligned := by
  obtain ⟨lossMask, advantages, logprobs, positionIds, temperatures, envNames, refLogprobs,
    rlWeights, ceWeights, refKlWeights⟩ := firstAligned
  obtain ⟨lossMask', advantages', logprobs', positionIds', temperatures', envNames', refLogprobs',
    rlWeights', ceWeights', refKlWeights'⟩ := secondAligned
  constructor <;> simp only [append, size, List.length_append] at * <;>
    exact congrArg₂ (· + ·) (by assumption) (by assumption)

theorem join_aligned (segments : List (Segment Scalar))
    (aligned : ∀ segment ∈ segments, segment.Aligned) : (join segments).Aligned := by
  induction segments with
  | nil => constructor <;> rfl
  | cons segment rest inductionHypothesis =>
    exact append_aligned segment (join rest) (aligned segment List.mem_cons_self)
      (inductionHypothesis (fun other member => aligned other (List.mem_cons_of_mem segment member)))

/-- What follows a run is cut after the run, whatever the sizes in the run are. -/
theorem split_append (sizes others : List Nat) (segment other : Segment Scalar)
    (aligned : segment.Aligned) (whole : sizes.sum = segment.size) :
    split (sizes ++ others) (segment.append other) =
      split sizes segment ++ split others (segment.drop sizes.sum |>.append other) := by
  induction sizes generalizing segment with
  | nil =>
    have unchanged : segment.drop 0 = segment := by simp only [drop, List.drop_zero]
    rw [List.nil_append, List.sum_nil, unchanged]
    rfl
  | cons count rest inductionHypothesis =>
    rw [List.sum_cons] at whole
    have inside : count ≤ segment.size := by omega
    have remaining : rest.sum = (segment.drop count).size := by
      simp only [size, drop, List.length_drop] at whole ⊢
      omega
    have twice : (segment.drop count).drop rest.sum = segment.drop (count + rest.sum) := by
      simp only [drop, List.drop_drop]
    rw [List.cons_append, split, take_append_le segment other count aligned inside,
      drop_append_le segment other count aligned inside,
      inductionHypothesis _ (drop_aligned count segment aligned) remaining, twice, List.sum_cons,
      split, List.cons_append]

/-- Nothing is left of a run after all its tokens. -/
theorem drop_size_append (segment other : Segment Scalar) (aligned : segment.Aligned) :
    (segment.drop segment.size).append other = other := by
  rw [← drop_append_le segment other _ aligned (Nat.le_refl _), drop_append_exact _ _ aligned]

section Reading
variable [Zero Scalar] [One Scalar]

theorem read_aligned (segment : Segment Scalar) (aligned : segment.Aligned) :
    segment.read.Aligned := by
  obtain ⟨lossMask, advantages, logprobs, positionIds, temperatures, envNames, refLogprobs,
    rlWeights, ceWeights, refKlWeights⟩ := aligned
  constructor <;> simp only [read, size, List.length_map] at * <;> assumption

/-- Cutting and reading commute. -/
theorem split_read (sizes : List Nat) (segment : Segment Scalar) :
    (split sizes segment).map read = split sizes segment.read := by
  induction sizes generalizing segment with
  | nil => rfl
  | cons count rest inductionHypothesis =>
    have taken : (segment.take count).read = segment.read.take count := by
      simp only [read, take, List.map_take]
    have dropped : (segment.drop count).read = segment.read.drop count := by
      simp only [read, drop, List.map_drop]
    rw [split, split, List.map_cons, inductionHypothesis, taken, dropped]

end Reading

section Counting
variable [Zero Scalar] [One Scalar] [DecidableEq Scalar]

theorem read_lossCounts (segment : Segment Scalar) :
    segment.read.lossCounts = segment.lossCounts := by
  simp only [read, lossCounts, List.countP_map, List.zip_map_right]
  rfl

theorem append_lossCounts (first second : Segment Scalar) (aligned : first.Aligned) :
    (first.append second).lossCounts = first.lossCounts + second.lossCounts := by
  have sameLength : first.lossMask.length = first.rlWeights.length := by
    rw [aligned.lossMask, aligned.rlWeights]
  simp only [lossCounts, append, List.zip_append sameLength, List.countP_append, Prod.mk_add_mk]

omit [Zero Scalar] [One Scalar] [DecidableEq Scalar] in
theorem take_append_drop (count : Nat) (segment : Segment Scalar) :
    (segment.take count).append (segment.drop count) = segment := by
  simp only [take, drop, append, List.take_append_drop]

/-- The pieces of a run count together what the run counts. -/
theorem split_lossCounts (sizes : List Nat) (segment : Segment Scalar) (aligned : segment.Aligned)
    (whole : sizes.sum = segment.size) :
    ((split sizes segment).map lossCounts).sum = segment.lossCounts := by
  induction sizes generalizing segment with
  | nil =>
    have empty : segment.size = 0 := whole.symm
    have noMask := List.length_eq_zero_iff.mp (aligned.lossMask.trans empty)
    have noCe := List.length_eq_zero_iff.mp (aligned.ceWeights.trans empty)
    have noRefKl := List.length_eq_zero_iff.mp (aligned.refKlWeights.trans empty)
    simp only [split, List.map_nil, List.sum_nil, lossCounts, noMask, noCe, noRefKl,
      List.zip_nil_left, List.countP_nil]
    rfl
  | cons count rest inductionHypothesis =>
    rw [List.sum_cons] at whole
    have remaining : rest.sum = (segment.drop count).size := by
      simp only [size, drop, List.length_drop] at whole ⊢
      omega
    rw [split, List.map_cons, List.sum_cons,
      inductionHypothesis _ (drop_aligned count segment aligned) remaining,
      ← append_lossCounts _ _ (take_aligned count segment aligned), take_append_drop]

omit [One Scalar] [DecidableEq Scalar] in
theorem inert_take (count : Nat) (segment : Segment Scalar) (inert : segment.Inert) :
    (segment.take count).Inert where
  masked := fun trained member => inert.masked trained (List.mem_of_mem_take member)
  rlWeights := fun weight member => inert.rlWeights weight (List.mem_of_mem_take member)
  ceWeights := fun weight member => inert.ceWeights weight (List.mem_of_mem_take member)
  refKlWeights := fun weight member => inert.refKlWeights weight (List.mem_of_mem_take member)

omit [One Scalar] [DecidableEq Scalar] in
theorem inert_drop (count : Nat) (segment : Segment Scalar) (inert : segment.Inert) :
    (segment.drop count).Inert where
  masked := fun trained member => inert.masked trained (List.mem_of_mem_drop member)
  rlWeights := fun weight member => inert.rlWeights weight (List.mem_of_mem_drop member)
  ceWeights := fun weight member => inert.ceWeights weight (List.mem_of_mem_drop member)
  refKlWeights := fun weight member => inert.refKlWeights weight (List.mem_of_mem_drop member)

omit [One Scalar] [DecidableEq Scalar] in
theorem inert_split (sizes : List Nat) (segment : Segment Scalar) (inert : segment.Inert) :
    ∀ piece ∈ split sizes segment, piece.Inert := by
  induction sizes generalizing segment with
  | nil => exact fun piece impossible => absurd impossible List.not_mem_nil
  | cons count rest inductionHypothesis =>
    intro piece member
    rcases List.mem_cons.mp member with rfl | later
    · exact inert_take count segment inert
    · exact inductionHypothesis _ (inert_drop count segment inert) piece later

/-- Inert tokens are not counted. -/
theorem inert_lossCounts (segment : Segment Scalar) (inert : segment.Inert) :
    segment.lossCounts = 0 := by
  have zero : ∀ weight : Option Scalar, weight = none ∨ weight = some 0 →
      ¬ (decide (weight.getD 0 ≠ 0) = true) := by
    rintro weight (rfl | rfl) <;> simp
  have rl : (segment.lossMask.zip segment.rlWeights).countP
      (fun token => token.1 && decide (token.2.getD 1 ≠ 0)) = 0 := by
    rw [List.countP_eq_zero]
    intro token member
    rw [inert.masked token.1 (List.of_mem_zip member).1, Bool.false_and]
    exact Bool.false_ne_true
  have ce : segment.ceWeights.countP (fun weight => decide (weight.getD 0 ≠ 0)) = 0 := by
    rw [List.countP_eq_zero]
    exact fun weight member => zero weight (inert.ceWeights weight member)
  have refKl : segment.refKlWeights.countP (fun weight => decide (weight.getD 0 ≠ 0)) = 0 := by
    rw [List.countP_eq_zero]
    exact fun weight member => zero weight (inert.refKlWeights weight member)
  simp only [lossCounts, rl, ce, refKl]
  rfl

end Counting

end Segment

/-- A stream by tokens: none where the row does not carry it. -/
def weightColumn (stream : Option (List Scalar)) (numTokens : Nat) : List (Option Scalar) :=
  match stream with
  | none => List.replicate numTokens none
  | some values => values.map some

/-- The whole row as one run of tokens. -/
def columns (row : MicroBatch Scalar) : Segment Scalar where
  tokenIds := row.inputIds
  lossMask := row.lossMask
  advantages := row.advantages
  logprobs := row.inferenceLogprobs
  positionIds := row.positionIds
  temperatures := row.temperatures
  envNames := row.envNames
  refLogprobs := weightColumn row.refLogprobs row.inputIds.length
  rlWeights := weightColumn row.rlWeights row.inputIds.length
  ceWeights := weightColumn row.ceWeights row.inputIds.length
  refKlWeights := weightColumn row.refKlWeights row.inputIds.length

/-- The segments that the sequence lengths of a row cut it into. -/
def segments (row : MicroBatch Scalar) : List (Segment Scalar) :=
  Segment.split row.sequenceLengths (columns row)

/-- The streams of a row are aligned with its tokens, and its sequence lengths cut
all of them. -/
structure Cuts (row : MicroBatch Scalar) : Prop where
  aligned : (columns row).Aligned
  whole : row.sequenceLengths.sum = row.inputIds.length

section Counting
variable [Zero Scalar] [DecidableEq Scalar]

/-- The loss tokens of one micro batch, as the trainer counts them. -/
def batchLossTokens (row : MicroBatch Scalar) : Nat × Nat × Nat :=
  (match row.rlWeights with
    | some weights => (row.lossMask.zip weights).countP (fun token => token.1 && decide (token.2 ≠ 0))
    | none => row.lossMask.countP id,
    match row.ceWeights with
    | some weights => weights.countP (fun weight => decide (weight ≠ 0))
    | none => 0,
    match row.refKlWeights with
    | some weights => weights.countP (fun weight => decide (weight ≠ 0))
    | none => 0)

/-- The (rl, ce, ref_kl) loss tokens of micro batches. -/
def countLossTokens (rows : List (MicroBatch Scalar)) : Nat × Nat × Nat :=
  (rows.map batchLossTokens).sum

theorem column_lossCounts (stream : Option (List Scalar)) (numTokens : Nat) :
    (weightColumn stream numTokens).countP (fun weight => decide (weight.getD 0 ≠ 0)) =
      match stream with
      | some weights => weights.countP (fun weight => decide (weight ≠ 0))
      | none => 0 := by
  cases stream with
  | none => simp [weightColumn, List.countP_replicate]
  | some weights => rw [weightColumn, List.countP_map]; rfl

variable [One Scalar] [NeZero (1 : Scalar)]

/-- The trainer counts a row as its columns are counted: an absent rl stream
has weight one on the mask. -/
theorem batch_loss_tokens_columns (row : MicroBatch Scalar)
    (aligned : row.lossMask.length = row.inputIds.length) :
    batchLossTokens row = (columns row).lossCounts := by
  have rl : (match row.rlWeights with
      | some weights => (row.lossMask.zip weights).countP
          (fun token => token.1 && decide (token.2 ≠ 0))
      | none => row.lossMask.countP id) =
      (row.lossMask.zip (weightColumn row.rlWeights row.inputIds.length)).countP
        (fun token => token.1 && decide (token.2.getD 1 ≠ 0)) := by
    cases row.rlWeights with
    | some weights =>
      dsimp only [weightColumn]
      rw [List.zip_map_right, List.countP_map]
      rfl
    | none =>
      dsimp only [weightColumn]
      rw [← aligned]
      induction row.lossMask with
      | nil => rfl
      | cons trained rest inductionHypothesis =>
        rw [List.length_cons, List.replicate_succ, List.zip_cons_cons, List.countP_cons,
          List.countP_cons, inductionHypothesis]
        simp
  simp only [batchLossTokens, Segment.lossCounts, columns, column_lossCounts, rl]

end Counting

end PrimeRl.Trainer.Batch
