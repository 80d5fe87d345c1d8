import Mathlib.Data.List.GetD
import PrimeRl.Orchestrator.MessageGraph
import PrimeRl.Support.Decimal
import PrimeRl.Support.Fallible
import PrimeRl.Support.SignedWord

/-!
# Observed engine labels

Weight versions label intervals of a node's sampled tokens with the engine's own
texts. A text counts as a step only when it is the decimal the publisher writes;
all other labels, and tokens under none, have step -1. Intervals count sampled
tokens while the steps stand at physical positions.
-/

namespace PrimeRl.Orchestrator.Provenance

open PrimeRl.Orchestrator.MessageGraph

/-- The intervals are ordered, disjoint and inside the sampled tokens. -/
def orderedVersions (sampledCount : Int) : Int → List WeightVersion → Bool
  | _, [] => true
  | previousEnd, span :: rest =>
      decide (0 ≤ previousEnd ∧ previousEnd ≤ span.start ∧ span.start ≤ span.stop ∧
        span.stop ≤ sampledCount) && orderedVersions sampledCount span.stop rest

def validateWeightVersions (node : MessageNode) : Except String Unit :=
  match node.weightVersions with
  | none => .ok ()
  | some versions =>
      if node.mask.length ≠ node.tokenIds.length then
        .error "weight versions require a token-aligned boolean sampling mask"
      else if !node.sampled && (!versions.isEmpty || node.mask.any id) then
        .error "weight versions require a sampled node"
      else if !orderedVersions (node.mask.count true) 0 versions then
        .error "weight versions require ordered, nonoverlapping sampled-token intervals"
      else .ok ()

/-- A canonical decimal of a signed 64-bit step; other labels are unknown. -/
def policyStep (label : String) : Int :=
  let canonical := match label.toList with
    | [] => false
    | first :: rest => (first :: rest).all Char.isDigit && (rest.isEmpty || first != '0')
  if !canonical then -1
  else if "9223372036854775807".length < label.length ||
      (label.length == "9223372036854775807".length && decide ("9223372036854775807" < label)) then
    -1
  else Nat.ofDigitChars 10 label.toList 0

/-- The label check accepts the canonical decimals. -/
theorem canonical_label (label : String) :
    (match label.toList with
      | [] => false
      | first :: rest => (first :: rest).all Char.isDigit && (rest.isEmpty || first != '0')) = true ↔
    Decimal.Canonical label.toList := by
  cases label.toList with
  | nil => simp [Decimal.Canonical]
  | cons first rest =>
    have noZero : (rest.isEmpty || first != '0') = true ↔
        ((first :: rest).head? = some '0' → first :: rest = ['0']) := by
      cases rest <;> simp
    rw [Bool.and_eq_true, noZero, List.all_eq_true, Decimal.Canonical]
    exact (and_iff_right (List.cons_ne_nil first rest)).symm

/-- A decimal is a step when it fits a signed 64-bit word. -/
theorem policy_step_decimal (step : Nat) :
    policyStep (toString step) = if (step : Int) ≤ SignedWord.highest then (step : Int) else -1 := by
  have text : (toString step).toList = Nat.toDigits 10 step := Nat.toList_repr
  have bound : "9223372036854775807".toList = Nat.toDigits 10 9223372036854775807 := by decide
  have canonical := (canonical_label (toString step)).mpr
    (text ▸ Decimal.canonical_toDigits step)
  have exceeds : ("9223372036854775807".length < (toString step).length ||
      ((toString step).length == "9223372036854775807".length &&
        decide ("9223372036854775807" < toString step))) = true ↔ 9223372036854775807 < step := by
    simp only [Bool.or_eq_true, Bool.and_eq_true, decide_eq_true_iff, beq_iff_eq, String.lt_iff,
      ← String.length_toList, text, bound]
    exact (Decimal.exceeds_iff step 9223372036854775807).symm
  have fits : (step : Int) ≤ SignedWord.highest ↔ ¬ 9223372036854775807 < step := by
    simp only [SignedWord.highest]
    omega
  unfold policyStep
  rw [canonical]
  dsimp only
  rw [Bool.not_true, if_neg Bool.false_ne_true]
  by_cases tooLarge : 9223372036854775807 < step
  · rw [if_pos (exceeds.mpr tooLarge), if_neg (fits.not.mpr (not_not_intro tooLarge))]
  · rw [if_neg (exceeds.not.mpr tooLarge), if_pos (fits.mpr tooLarge), text,
      Nat.ofDigitChars_ten_toDigits]

/-- A label that is no decimal is unknown. -/
theorem policy_step_other (label : String) (other : ∀ step : Nat, label ≠ toString step) :
    policyStep label = -1 := by
  have notCanonical : ¬ Decimal.Canonical label.toList := by
    intro canonical
    obtain ⟨step, text⟩ := Decimal.canonical_decimal label.toList canonical
    exact other step (String.toList_inj.mp (text.trans Nat.toList_repr.symm))
  unfold policyStep
  rw [Bool.eq_false_iff.mpr ((canonical_label label).not.mpr notCanonical)]
  exact if_pos rfl

/-- Steps are exactly the decimals of the words that are not negative. -/
theorem policy_step_iff (label : String) (step : Nat) :
    policyStep label = step ↔ label = toString step ∧ (step : Int) ≤ SignedWord.highest := by
  constructor
  · intro isStep
    by_cases decimal : ∃ other : Nat, label = toString other
    · obtain ⟨other, rfl⟩ := decimal
      rw [policy_step_decimal] at isStep
      split at isStep
      · rename_i fits
        rw [← isStep, Int.ofNat.inj isStep]
        exact ⟨rfl, Int.ofNat.inj isStep ▸ fits⟩
      · omega
    · rw [policy_step_other label (not_exists.mp decimal)] at isStep
      omega
  · rintro ⟨rfl, fits⟩
    rw [policy_step_decimal, if_pos fits]

/-- Steps are words, and -1 is the only negative one. -/
theorem policy_step_range (label : String) :
    -1 ≤ policyStep label ∧ policyStep label ≤ SignedWord.highest := by
  by_cases decimal : ∃ step : Nat, label = toString step
  · obtain ⟨step, rfl⟩ := decimal
    rw [policy_step_decimal]
    by_cases fits : (step : Int) ≤ SignedWord.highest
    · rw [if_pos fits]
      exact ⟨by omega, fits⟩
    · rw [if_neg fits]
      decide
  · rw [policy_step_other label (not_exists.mp decimal)]
    decide

/-- Physical positions of the sampled tokens. -/
def sampledPositions (mask : List Bool) : List Nat :=
  (List.range mask.length).filter (fun index => mask.getD index false)

theorem sampled_positions_append (mask : List Bool) (last : Bool) :
    sampledPositions (mask ++ [last]) =
      sampledPositions mask ++ if last then [mask.length] else [] := by
  have before : (List.range mask.length).filter (fun index => (mask ++ [last]).getD index false) =
      sampledPositions mask := by
    apply List.filter_congr
    intro index member
    rw [List.getD_append _ _ _ _ (List.mem_range.mp member)]
  rw [sampledPositions, List.length_append, List.length_singleton, List.range_succ,
    List.filter_append, before, List.filter_singleton, List.getD_append_right _ _ _ _ (Nat.le_refl _),
    Nat.sub_self]
  cases last <;> rfl

theorem sampled_positions_length (mask : List Bool) :
    (sampledPositions mask).length = mask.count true := by
  induction mask using List.reverseRecOn with
  | nil => rfl
  | append_singleton mask last inductionHypothesis =>
    rw [sampled_positions_append, List.length_append, inductionHypothesis, List.count_append]
    cases last <;> rfl

/-- The sampled token with a given number of sampled tokens in front of it. The
    induction adds the last token of the mask. -/
theorem sampled_position_iff (mask : List Bool) (rank index : Nat) :
    (sampledPositions mask)[rank]? = some index ↔
      mask.getD index false = true ∧ (mask.take index).count true = rank := by
  induction mask using List.reverseRecOn with
  | nil => simp [sampledPositions]
  | append_singleton mask last inductionHypothesis =>
    have listed : (sampledPositions (mask ++ [last]))[rank]? = some index ↔
        (sampledPositions mask)[rank]? = some index ∨
          last = true ∧ rank = mask.count true ∧ mask.length = index := by
      rw [sampled_positions_append, ← sampled_positions_length mask]
      cases last with
      | false => simp
      | true =>
        rcases Nat.lt_trichotomy rank (sampledPositions mask).length with inside | rfl | beyond
        · rw [if_pos rfl, List.getElem?_append_left inside]
          simp [Nat.ne_of_lt inside]
        · simp
        · rw [List.getElem?_eq_none (by simp; omega),
            List.getElem?_eq_none (Nat.le_of_lt beyond)]
          simp [Nat.ne_of_gt beyond]
    have counted : (mask ++ [last]).getD index false = true ∧
          ((mask ++ [last]).take index).count true = rank ↔
        mask.getD index false = true ∧ (mask.take index).count true = rank ∨
          last = true ∧ rank = mask.count true ∧ mask.length = index := by
      rcases Nat.lt_trichotomy index mask.length with before | rfl | behind
      · rw [List.getD_append _ _ _ _ before, List.take_append_of_le_length (Nat.le_of_lt before)]
        simp [Nat.ne_of_gt before]
      · rw [List.getD_append_right _ _ _ _ (Nat.le_refl _), List.take_left, Nat.sub_self,
          List.getD_eq_default _ _ (Nat.le_refl _), List.getD_cons_zero]
        simp [eq_comm]
      · rw [List.getD_eq_default _ _ (by simp; omega), List.getD_eq_default _ _ (Nat.le_of_lt behind)]
        simp
        omega
    rw [listed, counted, inductionHypothesis]

/-- Write the step of an interval over its sampled tokens. -/
def markSpan (mask : List Bool) (versions : List Int) (span : WeightVersion) : List Int :=
  (((sampledPositions mask).take span.stop.toNat).drop span.start.toNat).foldl
    (fun versions position => versions.set position (policyStep span.version)) versions

/-- Steps of the tokens of a node whose intervals are in order, written over
    tokens that start out unknown. -/
def stepVersions (node : MessageNode) : List Int :=
  (node.weightVersions.getD []).foldl (markSpan node.mask) (List.replicate node.tokenIds.length (-1))

/-- The interval of a sampled token, given how many sampled tokens are in front of it. -/
def covers (rank : Nat) (span : WeightVersion) : Bool :=
  decide (span.start ≤ rank ∧ (rank : Int) < span.stop)

/-- Step of a sampled token. -/
def stepAt (versions : List WeightVersion) (rank : Nat) : Int :=
  ((versions.find? (covers rank)).map (fun span => policyStep span.version)).getD (-1)

/-- An interval takes in the sampled tokens whose count lies between its bounds. -/
theorem interval_positions (mask : List Bool) (span : WeightVersion) (index : Nat) :
    index ∈ ((sampledPositions mask).take span.stop.toNat).drop span.start.toNat ↔
      mask.getD index false = true ∧ covers ((mask.take index).count true) span = true := by
  rw [List.mem_iff_getElem?, covers, decide_eq_true_iff]
  constructor
  · rintro ⟨offset, listed⟩
    rw [List.getElem?_drop, List.getElem?_take] at listed
    split at listed
    · rename_i inside
      obtain ⟨sampled, rank⟩ := (sampled_position_iff mask _ index).mp listed
      exact ⟨sampled, by omega, by omega⟩
    · cases listed
  · rintro ⟨sampled, above, below⟩
    refine ⟨(mask.take index).count true - span.start.toNat, ?_⟩
    rw [List.getElem?_drop, List.getElem?_take, if_pos (by omega)]
    exact (sampled_position_iff mask _ index).mpr ⟨sampled, by omega⟩

/-- Writing one step over listed positions changes those alone. -/
theorem written_at (positions : List Nat) (step : Int) (values : List Int) (index : Nat)
    {value : Int} (before : values[index]? = some value) :
    (positions.foldl (fun values position => values.set position step) values)[index]? =
      some (if index ∈ positions then step else value) := by
  induction positions generalizing values value with
  | nil => rw [List.foldl_nil, before, if_neg List.not_mem_nil]
  | cons position rest inductionHypothesis =>
    rw [List.foldl_cons]
    by_cases same : index = position
    · have written : (values.set position step)[index]? = some step := by
        rw [same, List.getElem?_set_self]
        exact (List.getElem?_eq_some_iff.mp (same ▸ before)).1
      rw [inductionHypothesis (values.set position step) written, ite_self,
        if_pos (same ▸ List.mem_cons_self)]
    · have kept : (values.set position step)[index]? = some value := by
        rw [List.getElem?_set_ne (Ne.symm same), before]
      rw [inductionHypothesis (values.set position step) kept]
      simp only [List.mem_cons, same, false_or]

/-- Intervals behind a token do not cover it. -/
theorem uncovered_behind (sampledCount previousEnd : Int) (spans : List WeightVersion) (rank : Nat)
    (ordered : orderedVersions sampledCount previousEnd spans = true)
    (behind : (rank : Int) < previousEnd) : spans.find? (covers rank) = none := by
  induction spans generalizing previousEnd with
  | nil => rfl
  | cons span rest inductionHypothesis =>
    rw [orderedVersions, Bool.and_eq_true, decide_eq_true_iff] at ordered
    obtain ⟨⟨_, after, nonempty, _⟩, later⟩ := ordered
    have apart : covers rank span = false := decide_eq_false (by omega)
    rw [List.find?_cons, apart]
    exact inductionHypothesis span.stop later (by omega)

/-- Each sampled token gets the step of the interval that covers it, however the
    intervals are written. The induction is on the intervals; those behind the
    covering one leave its step in place. -/
theorem marked_at (mask : List Bool) (sampledCount previousEnd : Int) (spans : List WeightVersion)
    (values : List Int) (index : Nat) {value : Int} (before : values[index]? = some value)
    (ordered : orderedVersions sampledCount previousEnd spans = true) :
    (spans.foldl (markSpan mask) values)[index]? =
      some (if mask.getD index false then
        ((spans.find? (covers ((mask.take index).count true))).map
          (fun span => policyStep span.version)).getD value
        else value) := by
  induction spans generalizing values value previousEnd with
  | nil => rw [List.foldl_nil, before, List.find?_nil, Option.map_none, Option.getD_none, ite_self]
  | cons span rest inductionHypothesis =>
    rw [orderedVersions, Bool.and_eq_true, decide_eq_true_iff] at ordered
    obtain ⟨⟨_, _, nonempty, _⟩, later⟩ := ordered
    have written := written_at (((sampledPositions mask).take span.stop.toNat).drop span.start.toNat)
      (policyStep span.version) values index before
    rw [List.foldl_cons, inductionHypothesis span.stop (markSpan mask values span) written later,
      List.find?_cons]
    simp only [interval_positions]
    cases sampled : mask.getD index false with
    | false => simp
    | true =>
      cases covered : covers ((mask.take index).count true) span with
      | false => simp
      | true =>
        have inside := (of_decide_eq_true covered).2
        rw [uncovered_behind sampledCount span.stop rest _ later inside]
        simp

/-- A token has the step of the interval that covers it, and -1 as context or
    when no interval does. -/
theorem step_versions_at (node : MessageNode) (index : Nat) (inside : index < node.tokenIds.length)
    (ordered : orderedVersions (node.mask.count true) 0 (node.weightVersions.getD []) = true) :
    (stepVersions node)[index]? =
      some (if node.mask.getD index false then
        stepAt (node.weightVersions.getD []) ((node.mask.take index).count true) else -1) := by
  have unknown : (List.replicate node.tokenIds.length (-1 : Int))[index]? = some (-1) := by
    rw [List.getElem?_replicate, if_pos inside]
  exact marked_at node.mask _ 0 (node.weightVersions.getD []) _ index unknown ordered

theorem step_versions_length (node : MessageNode) :
    (stepVersions node).length = node.tokenIds.length := by
  have written : ∀ (positions : List Nat) (step : Int) (values : List Int),
      (positions.foldl (fun values position => values.set position step) values).length =
        values.length := by
    intro positions step
    induction positions with
    | nil => exact fun values => rfl
    | cons position rest inductionHypothesis =>
      intro values
      rw [List.foldl_cons, inductionHypothesis, List.length_set]
  have marked : ∀ (spans : List WeightVersion) (values : List Int),
      (spans.foldl (markSpan node.mask) values).length = values.length := by
    intro spans
    induction spans with
    | nil => exact fun values => rfl
    | cons span rest inductionHypothesis =>
      intro values
      rw [List.foldl_cons, inductionHypothesis, markSpan, written]
  rw [stepVersions, marked, List.length_replicate]

/-- Engine steps of a node's tokens; context and unknown tokens have step -1. -/
def nodePolicyVersions (node : MessageNode) : Except String (List Int) :=
  (validateWeightVersions node).map (fun _ => stepVersions node)

/-- A node is accepted when its tokens and mask are aligned, only sampled nodes
    have sampled tokens or intervals, and the intervals are in order. -/
theorem validate_weight_versions_iff (node : MessageNode) :
    validateWeightVersions node = .ok () ↔
      ∀ versions, node.weightVersions = some versions →
        node.mask.length = node.tokenIds.length ∧
        (node.sampled = false → versions = [] ∧ ∀ flag ∈ node.mask, flag = false) ∧
        orderedVersions (node.mask.count true) 0 versions = true := by
  unfold validateWeightVersions
  cases node.weightVersions with
  | none => exact iff_of_true rfl nofun
  | some versions =>
    have unsampled : (!node.sampled && (!versions.isEmpty || node.mask.any id)) = true ↔
        ¬ (node.sampled = false → versions = [] ∧ ∀ flag ∈ node.mask, flag = false) := by
      cases node.sampled <;> simp [Classical.or_iff_not_imp_left]
    simp only [Option.some.injEq, forall_eq']
    by_cases aligned : node.mask.length = node.tokenIds.length
    · rw [if_neg (not_not_intro aligned), and_iff_right aligned]
      by_cases placed : node.sampled = false → versions = [] ∧ ∀ flag ∈ node.mask, flag = false
      · rw [if_neg (unsampled.not.mpr (not_not_intro placed)), and_iff_right placed]
        cases orderedVersions (node.mask.count true) 0 versions with
        | false => exact iff_of_false nofun nofun
        | true => exact iff_of_true rfl rfl
      · rw [if_pos (unsampled.mpr placed)]
        exact iff_of_false nofun (fun valid => placed valid.1)
    · rw [if_pos aligned]
      exact iff_of_false nofun (fun valid => aligned valid.1)

/-- Accepted intervals are in order, absent ones vacuously. -/
theorem accepted_ordered (node : MessageNode) (valid : validateWeightVersions node = .ok ()) :
    orderedVersions (node.mask.count true) 0 (node.weightVersions.getD []) = true := by
  cases present : node.weightVersions with
  | none => rfl
  | some versions => exact ((validate_weight_versions_iff node).mp valid versions present).2.2

/-- Intervals in order do not share a token, so the first that covers one is the
    only one. -/
theorem covering_unique (sampledCount previousEnd : Int) (spans : List WeightVersion) (rank : Nat)
    (ordered : orderedVersions sampledCount previousEnd spans = true) (span : WeightVersion)
    (member : span ∈ spans) (covered : covers rank span = true) :
    spans.find? (covers rank) = some span := by
  induction spans generalizing previousEnd with
  | nil => exact absurd member List.not_mem_nil
  | cons first rest inductionHypothesis =>
    rw [orderedVersions, Bool.and_eq_true, decide_eq_true_iff] at ordered
    obtain ⟨-, later⟩ := ordered
    cases isFirst : covers rank first with
    | false =>
      rw [List.find?_cons, isFirst]
      rcases List.mem_cons.mp member with rfl | inRest
      · rw [covered] at isFirst
        cases isFirst
      · exact inductionHypothesis first.stop later inRest
    | true =>
      rw [List.find?_cons, isFirst]
      rcases List.mem_cons.mp member with rfl | inRest
      · rfl
      · have behind := uncovered_behind sampledCount first.stop rest rank later
          (of_decide_eq_true isFirst).2
        exact absurd covered (List.find?_eq_none.mp behind span inRest)

/-- A sampled token that an interval labels with the decimal of a step. -/
def Labelled (node : MessageNode) (index step : Nat) : Prop :=
  node.mask.getD index false = true ∧
    ∃ span ∈ node.weightVersions.getD [], covers ((node.mask.take index).count true) span = true ∧
      span.version = toString step ∧ (step : Int) ≤ SignedWord.highest

/-- A token has a step exactly when it is labelled with it, and is unknown
    otherwise. -/
theorem node_policy_versions_labels (node : MessageNode) (steps : List Int)
    (accepted : nodePolicyVersions node = .ok steps) :
    steps.length = node.tokenIds.length ∧ ∀ index < node.tokenIds.length,
      (∀ step : Nat, steps[index]? = some (step : Int) ↔ Labelled node index step) ∧
      ((¬ ∃ step, Labelled node index step) → steps[index]? = some (-1)) := by
  obtain ⟨_, valid, rfl⟩ := Fallible.map_ok accepted
  have ordered := accepted_ordered node valid
  refine ⟨step_versions_length node, ?_⟩
  intro index inside
  have labels : ∀ step : Nat,
      (stepVersions node)[index]? = some (step : Int) ↔ Labelled node index step := by
    intro step
    rw [step_versions_at node index inside ordered, Option.some.injEq, Labelled]
    cases sampled : node.mask.getD index false with
    | false =>
      rw [if_neg Bool.false_ne_true]
      exact iff_of_false (by omega) (fun labelled => Bool.false_ne_true labelled.1)
    | true =>
      rw [if_pos rfl, and_iff_right rfl, stepAt]
      constructor
      · intro isStep
        cases found : (node.weightVersions.getD []).find?
            (covers ((node.mask.take index).count true)) with
        | none =>
          rw [found, Option.map_none, Option.getD_none] at isStep
          omega
        | some span =>
          rw [found, Option.map_some, Option.getD_some] at isStep
          exact ⟨span, List.mem_of_find?_eq_some found, List.find?_some found,
            (policy_step_iff span.version step).mp isStep⟩
      · rintro ⟨span, member, covered, label⟩
        rw [covering_unique _ 0 _ _ ordered span member covered, Option.map_some, Option.getD_some]
        exact (policy_step_iff span.version step).mpr label
  refine ⟨labels, ?_⟩
  intro unlabelled
  have low : -1 ≤ stepAt (node.weightVersions.getD []) ((node.mask.take index).count true) := by
    rw [stepAt]
    cases (node.weightVersions.getD []).find? (covers ((node.mask.take index).count true)) with
    | none => exact Int.le_refl (-1)
    | some span => exact (policy_step_range span.version).1
  have isValue := step_versions_at node index inside ordered
  rw [isValue]
  apply congrArg some
  by_contra known
  split_ifs at known isValue with sampled
  · refine unlabelled ⟨(stepAt (node.weightVersions.getD [])
      ((node.mask.take index).count true)).toNat, (labels _).mp ?_⟩
    rw [isValue, Int.toNat_of_nonneg (by omega)]
  · exact known rfl

/-- Steps of a node are words, and -1 is the only negative one. -/
theorem node_versions_range (node : MessageNode) (steps : List Int)
    (accepted : nodePolicyVersions node = .ok steps) :
    ∀ value ∈ steps, -1 ≤ value ∧ value ≤ SignedWord.highest := by
  obtain ⟨_, valid, rfl⟩ := Fallible.map_ok accepted
  intro value member
  obtain ⟨index, inside, isValue⟩ := List.mem_iff_getElem.mp member
  have found := step_versions_at node index (step_versions_length node ▸ inside)
    (accepted_ordered node valid)
  rw [List.getElem?_eq_getElem inside, isValue] at found
  rw [Option.some.inj found, stepAt]
  by_cases sampled : node.mask.getD index false = true
  · rw [if_pos sampled]
    cases (node.weightVersions.getD []).find? (covers ((node.mask.take index).count true)) with
    | none => decide
    | some span => exact policy_step_range span.version
  · rw [if_neg sampled]
    decide

/-- The intervals that start inside a prefix of the sampled tokens, cut to it. -/
def clipSpans (retainedSampled : Int) (versions : List WeightVersion) : List WeightVersion :=
  (versions.filter (fun span => decide (span.start < retainedSampled))).map (fun span =>
    { span with stop := min span.stop retainedSampled })

/-- Copy the intervals onto a prefix of the sampled tokens. -/
def clipWeightVersions (node : MessageNode) (retainedSampled : Int) :
    Except String (Option (List WeightVersion)) :=
  match validateWeightVersions node with
  | .error message => .error message
  | .ok () =>
      if ¬ (0 ≤ retainedSampled ∧ retainedSampled ≤ node.mask.count true) then
        .error "invalid retained sampled-token count"
      else
        .ok (node.weightVersions.map (clipSpans retainedSampled))

theorem clip_spans_cons (retainedSampled : Int) (span : WeightVersion) (rest : List WeightVersion) :
    clipSpans retainedSampled (span :: rest) =
      if span.start < retainedSampled then
        { span with stop := min span.stop retainedSampled } :: clipSpans retainedSampled rest
      else clipSpans retainedSampled rest := by
  by_cases kept : span.start < retainedSampled <;> simp [clipSpans, kept]

/-- Clipped intervals are in order inside what is retained. The induction
    allows an earlier previous end, since clipping only lowers ends. -/
theorem clipped_ordered (sampledCount retainedSampled previousEnd clippedEnd : Int)
    (spans : List WeightVersion) (ordered : orderedVersions sampledCount previousEnd spans = true)
    (nonnegative : 0 ≤ clippedEnd) (earlier : clippedEnd ≤ previousEnd) :
    orderedVersions retainedSampled clippedEnd (clipSpans retainedSampled spans) = true := by
  induction spans generalizing previousEnd clippedEnd with
  | nil => rfl
  | cons span rest inductionHypothesis =>
    rw [orderedVersions, Bool.and_eq_true, decide_eq_true_iff] at ordered
    obtain ⟨⟨_, after, nonempty, _⟩, later⟩ := ordered
    rw [clip_spans_cons]
    by_cases kept : span.start < retainedSampled
    · rw [if_pos kept, orderedVersions, Bool.and_eq_true, decide_eq_true_iff]
      refine ⟨⟨nonnegative, ?_, ?_, ?_⟩, ?_⟩
      · exact Int.le_trans earlier after
      · dsimp only
        omega
      · exact Int.min_le_right _ _
      · exact inductionHypothesis span.stop (min span.stop retainedSampled) later (by omega)
          (Int.min_le_left _ _)
    · rw [if_neg kept]
      exact inductionHypothesis span.stop clippedEnd later nonnegative (by omega)

/-- Tokens in the retained prefix keep their step. -/
theorem clipped_step (retainedSampled : Int) (spans : List WeightVersion) (rank : Nat)
    (inside : (rank : Int) < retainedSampled) :
    stepAt (clipSpans retainedSampled spans) rank = stepAt spans rank := by
  unfold stepAt
  induction spans with
  | nil => rfl
  | cons span rest inductionHypothesis =>
    rw [clip_spans_cons]
    by_cases kept : span.start < retainedSampled
    · have same : covers rank { span with stop := min span.stop retainedSampled } =
          covers rank span := by
        simp only [covers, decide_eq_decide]
        omega
      rw [if_pos kept, List.find?_cons, List.find?_cons, same]
      cases covers rank span with
      | true => rfl
      | false => exact inductionHypothesis
    · have apart : covers rank span = false := decide_eq_false (by omega)
      rw [if_neg kept, List.find?_cons, apart]
      exact inductionHypothesis

/-- A sampled token in a prefix is among its sampled tokens. -/
theorem rank_retained (mask : List Bool) (index retained : Nat) (inside : index < retained)
    (sampled : mask.getD index false = true) :
    (mask.take index).count true < (mask.take retained).count true := by
  have here : mask[index]? = some true := by
    rw [List.getD_eq_getElem?_getD] at sampled
    cases present : mask[index]? with
    | none => rw [present] at sampled; cases sampled
    | some flag => rw [present] at sampled; exact congrArg some sampled
  have next : (mask.take (index + 1)).count true = (mask.take index).count true + 1 := by
    rw [List.take_add_one, here, List.count_append]
    rfl
  have grows := (List.take_prefix_take_left (l := mask) (show index + 1 ≤ retained from inside)).sublist.count_le true
  omega

/-- A node cut to a prefix of its tokens. -/
def cutMessage (node : MessageNode) (retained : Nat) (versions : Option (List WeightVersion)) :
    MessageNode :=
  { node with
    tokenIds := node.tokenIds.take retained
    mask := node.mask.take retained
    weightVersions := versions }

/-- The intervals of an accepted node can be clipped to any prefix of its tokens. -/
theorem clip_accepted (node : MessageNode) (valid : validateWeightVersions node = .ok ())
    (retained : Nat) :
    clipWeightVersions node ((node.mask.take retained).count true) =
      .ok (node.weightVersions.map (clipSpans ((node.mask.take retained).count true))) := by
  have fewer := (List.take_sublist retained node.mask).count_le true
  rw [clipWeightVersions, valid]
  exact if_neg (not_not_intro ⟨Int.natCast_nonneg _, Int.ofNat_le.mpr fewer⟩)

/-- A node cut together with its intervals is accepted. -/
theorem cut_accepted (node : MessageNode) (valid : validateWeightVersions node = .ok ())
    (retained : Nat) :
    validateWeightVersions (cutMessage node retained
      (node.weightVersions.map (clipSpans ((node.mask.take retained).count true)))) = .ok () := by
  rw [validate_weight_versions_iff]
  intro versions present
  obtain ⟨original, isOriginal, rfl⟩ := Option.map_eq_some_iff.mp present
  obtain ⟨aligned, unsampled, ordered⟩ :=
    (validate_weight_versions_iff node).mp valid original isOriginal
  refine ⟨?_, ?_, ?_⟩
  · exact (List.length_take.trans (congrArg _ aligned)).trans List.length_take.symm
  · intro context
    obtain ⟨rfl, noMask⟩ := unsampled context
    exact ⟨rfl, fun flag member => noMask flag (List.mem_of_mem_take member)⟩
  · exact clipped_ordered _ _ 0 0 original ordered (Int.le_refl 0) (Int.le_refl 0)

/-- Clipping commutes with decoding: the steps of the cut node are the prefix of
    the steps of the node, wherever the cut falls among its intervals. -/
theorem cut_policy_versions (node : MessageNode) (valid : validateWeightVersions node = .ok ())
    (retained : Nat) :
    nodePolicyVersions (cutMessage node retained
      (node.weightVersions.map (clipSpans ((node.mask.take retained).count true)))) =
      .ok ((stepVersions node).take retained) := by
  have cutValid := cut_accepted node valid retained
  rw [nodePolicyVersions, cutValid]
  apply congrArg Except.ok
  apply List.ext_getElem?
  intro index
  rw [List.getElem?_take]
  by_cases inside : index < min retained node.tokenIds.length
  · have isCut : index < (cutMessage node retained
        (node.weightVersions.map (clipSpans ((node.mask.take retained).count true)))).tokenIds.length := by
      simpa only [cutMessage, List.length_take] using inside
    have within : index < retained := by omega
    rw [step_versions_at _ index isCut (accepted_ordered _ cutValid), if_pos within,
      step_versions_at node index (by omega) (accepted_ordered node valid)]
    have sameMask : (node.mask.take retained).getD index false = node.mask.getD index false := by
      rw [List.getD_eq_getElem?_getD, List.getD_eq_getElem?_getD, List.getElem?_take, if_pos within]
    have sameRank : (node.mask.take retained).take index = node.mask.take index := by
      rw [List.take_take, Nat.min_eq_left (Nat.le_of_lt within)]
    have clipped : (node.weightVersions.map
          (clipSpans ((node.mask.take retained).count true))).getD [] =
        clipSpans ((node.mask.take retained).count true) (node.weightVersions.getD []) := by
      cases node.weightVersions <;> rfl
    simp only [cutMessage, sameMask, sameRank, clipped]
    cases sampled : node.mask.getD index false with
    | false => rfl
    | true =>
      have counted := rank_retained node.mask index retained within sampled
      rw [if_pos rfl, if_pos rfl, clipped_step _ _ _ (Int.ofNat_lt.mpr counted)]
  · have cutShort : (stepVersions (cutMessage node retained (node.weightVersions.map
        (clipSpans ((node.mask.take retained).count true))))).length ≤ index := by
      rw [step_versions_length, cutMessage, List.length_take]
      omega
    rw [List.getElem?_eq_none cutShort]
    by_cases within : index < retained
    · have short : (stepVersions node).length ≤ index := by
        rw [step_versions_length]
        omega
      rw [if_pos within, List.getElem?_eq_none short]
    · rw [if_neg within]

end PrimeRl.Orchestrator.Provenance
