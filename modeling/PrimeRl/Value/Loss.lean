import Mathlib.Data.List.FinRange
import Mathlib.Data.List.MinMax
import PrimeRl.Support.PartialSum
import PrimeRl.Value.TargetProjection

/-!
# The value loss of a row

The loss of a row sums over its masked tokens and divides by a count that is the same for
every row of a batch. A token's part of it depends on its logits and its target alone, so
the loss of a row is a sum over tokens, which has no value when a target is refused.
Exponential and logarithm are given as functions.
-/

namespace PrimeRl.Value.Math

universe u
variable {Scalar : Type u} {Entry Other : Type u}

/-- The entries of a row at the masked positions. -/
def select (mask : List Bool) (row : List Entry) : List Entry :=
  ((mask.zip row).filter Prod.fst).map Prod.snd

/-- The streams that a row reports of its masked tokens. The last three are those of the
classification loss. -/
structure ValueMetrics (Scalar : Type u) where
  loss : List Scalar := []
  prediction : List Scalar := []
  target : List Scalar := []
  error : List Scalar := []
  absError : List Scalar := []
  squaredError : List Scalar := []
  accuracy : Option (List Scalar) := none
  entropy : Option (List Scalar) := none
  confidence : Option (List Scalar) := none
deriving DecidableEq, Repr

section
variable [Field Scalar] [LinearOrder Scalar] [FloorRing Scalar]
  (exponential logarithm : Scalar → Scalar)

def logSoftmax {numBins : Nat} (logit : Fin numBins → Scalar) (bin : Fin numBins) : Scalar :=
  logit bin - logarithm (∑ other, exponential (logit other))

/-- The first bin with the largest entry. -/
def argmax {numBins : Nat} (entries : Fin numBins → Scalar) : Option (Fin numBins) :=
  (List.finRange numBins).argmax entries

def crossEntropy {numBins : Nat} (distribution logit : Fin numBins → Scalar) : Scalar :=
  -∑ bin, distribution bin * logSoftmax exponential logarithm logit bin

def entropy {numBins : Nat} (logit : Fin numBins → Scalar) : Scalar :=
  -∑ bin, exponential (logSoftmax exponential logarithm logit bin) *
    logSoftmax exponential logarithm logit bin

def confidence {numBins : Nat} (logit : Fin numBins → Scalar) : Scalar :=
  let probability := fun bin => exponential (logSoftmax exponential logarithm logit bin)
  ((argmax probability).map probability).getD 0

/-- The losses of masked tokens, with the accuracy, entropy and confidence of a
classification. -/
def perToken : (config : ValueLossConfig Scalar) →
    List (Fin (valueHeadOutputSize config) → Scalar) → List Scalar →
      Except (ProjectionError Scalar)
        (List Scalar × Option (List Scalar × List Scalar × List Scalar))
  | .mse, logits, targets =>
    .ok (List.zipWith (fun logit target => (predictValues exponential .mse logit - target) ^ 2)
      logits targets, none)
  | .classification low high numBins, logits, targets => do
    let distributions ← classificationTargetDistribution low high numBins targets
    .ok (List.zipWith (crossEntropy exponential logarithm) distributions logits, some
      (List.zipWith (fun distribution logit =>
        if argmax logit = argmax distribution then 1 else 0) distributions logits,
        logits.map (entropy exponential logarithm), logits.map (confidence exponential logarithm)))

/-- The loss of a row and its streams. -/
def computeValueLoss (config : ValueLossConfig Scalar)
    (logits : List (Fin (valueHeadOutputSize config) → Scalar)) (targets : List Scalar)
    (mask : List Bool) (scale : Nat) :
    Except (ProjectionError Scalar) (Scalar × ValueMetrics Scalar) :=
  let predictions := logits.map (predictValues exponential config)
  if ¬ mask.any id then .ok ((logits.map (fun logit => ∑ output, logit output)).sum * 0, {})
  else do
    let (losses, classified) ←
      perToken exponential logarithm config (select mask logits) (select mask targets)
    let errors := List.zipWith (· - ·) (select mask predictions) (select mask targets)
    .ok (losses.sum / ((max scale 1 : Nat) : Scalar),
      { loss := losses
        prediction := select mask predictions
        target := select mask targets
        error := errors
        absError := errors.map abs
        squaredError := errors.map (· ^ 2)
        accuracy := classified.map Prod.fst
        entropy := classified.map (fun streams => streams.2.1)
        confidence := classified.map (fun streams => streams.2.2) })

/-- The loss of one token, which a refused target does not have. -/
def tokenLoss : (config : ValueLossConfig Scalar) →
    (Fin (valueHeadOutputSize config) → Scalar) × Scalar → Option Scalar
  | .mse, (logit, target) => some ((predictValues exponential .mse logit - target) ^ 2)
  | .classification low high numBins, (logit, target) =>
    if Invalid low high target then none
    else (projectTarget low high numBins target).toOption.map fun distribution =>
      crossEntropy exponential logarithm distribution logit

end

/-! ## Selecting -/

theorem select_none {mask : List Bool} (none : ¬ mask.any id) (row : List Entry) :
    select mask row = [] := by
  have refused : ∀ masked ∈ mask.zip row, ¬ masked.1 = true := fun masked member isMasked =>
    none (List.any_eq_true.mpr ⟨masked.1, (List.of_mem_zip member).1, isMasked⟩)
  rw [select, List.filter_eq_nil_iff.mpr refused, List.map_nil]

theorem select_append {left right : List Bool} {leftRow rightRow : List Entry}
    (aligned : left.length = leftRow.length) :
    select (left ++ right) (leftRow ++ rightRow) = select left leftRow ++ select right rightRow := by
  rw [select, List.zip_append aligned, List.filter_append, List.map_append]
  rfl

/-- A row of parts is selected part by part. -/
theorem select_parts {Part : Type u} (parts : List Part) (mask : Part → List Bool)
    (row : Part → List Entry) (aligned : ∀ part ∈ parts, (mask part).length = (row part).length) :
    select (parts.flatMap mask) (parts.flatMap row) =
      parts.flatMap (fun part => select (mask part) (row part)) := by
  induction parts with
  | nil => rfl
  | cons part rest inductionHypothesis =>
    obtain ⟨here, later⟩ := List.forall_mem_cons.mp aligned
    rw [List.flatMap_cons, List.flatMap_cons, List.flatMap_cons, select_append here,
      inductionHypothesis later]

/-- Two streams of one row are selected together. -/
theorem select_zip (mask : List Bool) (row : List Entry) (other : List Other)
    (aligned : row.length = other.length) :
    (select mask row).zip (select mask other) = select mask (row.zip other) := by
  induction mask generalizing row other with
  | nil => rfl
  | cons masked rest inductionHypothesis =>
    cases row with
    | nil => simp [select]
    | cons entry row =>
      cases other with
      | nil => cases aligned
      | cons entryOther other =>
        have later := inductionHypothesis row other (Nat.succ.inj aligned)
        cases masked with
        | false => exact later
        | true => exact congrArg ((entry, entryOther) :: ·) later

theorem select_length (mask : List Bool) (row : List Entry) (aligned : mask.length = row.length) :
    (select mask row).length = mask.count true := by
  induction mask generalizing row with
  | nil => rfl
  | cons masked rest inductionHypothesis =>
    cases row with
    | nil => cases aligned
    | cons entry row =>
      have later := inductionHypothesis row (Nat.succ.inj aligned)
      cases masked with
      | false => simpa [select] using later
      | true => simpa [select] using later

/-! ## The loss of a row is that of its tokens -/

section
variable [Field Scalar] [LinearOrder Scalar] [FloorRing Scalar]
  (exponential logarithm : Scalar → Scalar)

/-- Projected targets have the losses of their tokens. -/
theorem projected_losses (low high : Scalar) (numBins : Nat)
    (logits : List (Fin numBins → Scalar)) (targets : List Scalar)
    (aligned : logits.length = targets.length)
    (valid : ∀ target ∈ targets, ¬ Invalid low high target) :
    ((Fallible.collect (projectTarget low high numBins) targets).map (fun distributions =>
        (List.zipWith (crossEntropy exponential logarithm) distributions logits).sum)).toOption =
      PartialSum.total (tokenLoss exponential logarithm (.classification low high numBins))
        (logits.zip targets) := by
  induction targets generalizing logits with
  | nil =>
    rw [List.zip_nil_right]
    rfl
  | cons target rest inductionHypothesis =>
    cases logits with
    | nil => cases aligned
    | cons logit others =>
      obtain ⟨here, later⟩ := List.forall_mem_cons.mp valid
      have tail := inductionHypothesis others (Nat.succ.inj aligned) later
      have first : tokenLoss exponential logarithm (.classification low high numBins)
          (logit, target) = (projectTarget low high numBins target).toOption.map
            (fun distribution => crossEntropy exponential logarithm distribution logit) :=
        if_neg here
      change _ = (tokenLoss exponential logarithm (.classification low high numBins)
        (logit, target)).bind fun here => (PartialSum.total (tokenLoss exponential logarithm
          (.classification low high numBins)) (others.zip rest)).map fun later => here + later
      rw [first, ← tail, Fallible.collect]
      cases projectTarget low high numBins target with
      | error reason => rfl
      | ok distribution =>
        cases Fallible.collect (projectTarget low high numBins) rest with
        | error reason => rfl
        | ok distributions =>
          simp only [Except.map, Except.toOption, Option.map_some, Option.bind_some,
            List.zipWith_cons_cons, List.sum_cons]

/-- A refused target leaves the row and its own token without a loss. -/
theorem classification_losses (low high : Scalar) (numBins : Nat)
    (logits : List (Fin numBins → Scalar)) (targets : List Scalar)
    (aligned : logits.length = targets.length) :
    ((classificationTargetDistribution low high numBins targets).map (fun distributions =>
        (List.zipWith (crossEntropy exponential logarithm) distributions logits).sum)).toOption =
      PartialSum.total (tokenLoss exponential logarithm (.classification low high numBins))
        (logits.zip targets) := by
  rw [classificationTargetDistribution]
  cases found : targets.find? (fun target => decide (Invalid low high target)) with
  | none =>
    apply projected_losses exponential logarithm low high numBins logits targets aligned
    simpa using found
  | some target =>
    have refused : Invalid low high target := by
      simpa using List.find?_some found
    obtain ⟨place, inside, isTarget⟩ := List.getElem_of_mem (List.mem_of_find?_eq_some found)
    have insideLogits : place < logits.length := aligned.symm ▸ inside
    have paired : (logits[place], target) ∈ logits.zip targets := by
      refine List.mem_iff_getElem.mpr ⟨place, ?_, ?_⟩
      · rw [List.length_zip, aligned, Nat.min_self]
        exact inside
      · rw [List.getElem_zip, isTarget]
    exact (PartialSum.total_none paired (if_pos refused)).symm

/-- The losses of masked tokens sum over the tokens. -/
theorem per_token_total (config : ValueLossConfig Scalar)
    (logits : List (Fin (valueHeadOutputSize config) → Scalar)) (targets : List Scalar)
    (aligned : logits.length = targets.length) :
    ((perToken exponential logarithm config logits targets).map (fun terms => terms.1.sum)).toOption =
      PartialSum.total (tokenLoss exponential logarithm config) (logits.zip targets) := by
  cases config with
  | mse =>
    have losses := PartialSum.total_some
      (fun token : (Fin (valueHeadOutputSize (.mse : ValueLossConfig Scalar)) → Scalar) × Scalar =>
        (predictValues exponential .mse token.1 - token.2) ^ 2) (logits.zip targets)
    refine Eq.trans ?_ losses.symm
    apply congrArg (fun terms : List Scalar => some terms.sum)
    exact (List.map_uncurry_zip_eq_zipWith).symm
  | classification low high numBins =>
    have losses := classification_losses exponential logarithm low high numBins logits targets aligned
    refine Eq.trans ?_ losses
    rw [perToken]
    cases classificationTargetDistribution low high numBins targets with
    | error reason => rfl
    | ok distributions => rfl

/-- The loss of a row is the sum over its masked tokens, divided by the scale. -/
theorem value_loss_total (config : ValueLossConfig Scalar)
    (logits : List (Fin (valueHeadOutputSize config) → Scalar)) (targets : List Scalar)
    (mask : List Bool) (scale : Nat) (masked : mask.length = logits.length)
    (aligned : logits.length = targets.length) :
    (computeValueLoss exponential logarithm config logits targets mask scale).toOption.map Prod.fst =
      (PartialSum.total (tokenLoss exponential logarithm config)
        (select mask (logits.zip targets))).map (· / ((max scale 1 : Nat) : Scalar)) := by
  dsimp only [computeValueLoss]
  split
  · rename_i none
    rw [select_none none]
    simp [PartialSum.total, Except.toOption]
  · have sameLength : (select mask logits).length = (select mask targets).length := by
      rw [select_length mask logits masked, select_length mask targets (masked.trans aligned)]
    have losses := per_token_total exponential logarithm config (select mask logits)
      (select mask targets) sameLength
    rw [← select_zip mask logits targets aligned, ← losses]
    cases perToken exponential logarithm config (select mask logits) (select mask targets) with
    | error reason => rfl
    | ok terms => rfl

end

end PrimeRl.Value.Math
