import Mathlib.Algebra.Ring.Int.Defs
import Mathlib.Algebra.Ring.Nat
import PrimeRl.Value.Batch
import PrimeRl.Value.CriticStates

/-!
# Publishing critic data

The sink renders a critic-only context into a prefix, and publishes the scored
rollouts as critic training data. The published sequences are those the critic
was asked about, and their targets sit at the same positions.
-/

namespace PrimeRl.Orchestrator.TrainSink

open PrimeRl.Orchestrator.Trajectories PrimeRl.Orchestrator.ValueContext PrimeRl.Transport
open PrimeRl.Value PrimeRl.Value.Batch PrimeRl.Value.Credit PrimeRl.Value.CriticStates
open PrimeRl.Value.Trajectory

universe u
variable {Scalar : Type u}

/-- What the sink knows of the value plane: the renderer of a system prompt, the
tokenizer's leading token and the critic's sequence length. -/
structure ValuePlane where
  renderIds : String → List Nat
  bosTokenId : Option Nat
  valueSeqLen : Option Nat

/-- The fields of a rollout that reach the critic. -/
structure Rollout (Scalar : Type u) where
  samples : List (TrainingSample Scalar)
  valueTrajectory : Option (ValueTrajectory Scalar)
  valueReturns : Option (List (List Scalar))
  valueVersion : Option Int

/-- White space of a Unicode string. -/
def isSpace (character : Char) : Bool :=
  let code := character.toNat
  (9 ≤ code && code ≤ 13) || (28 ≤ code && code ≤ 32) || code == 133 || code == 160 ||
    code == 5760 || (8192 ≤ code && code ≤ 8202) || code == 8232 || code == 8233 ||
    code == 8239 || code == 8287 || code == 12288

/-- A token sequence starts with the tokenizer's leading token. -/
def hasBos (bosTokenId : Option Nat) (tokenIds : List Nat) : Bool :=
  bosTokenId.isSome && decide (tokenIds.head? = bosTokenId)

/-- Length check of one branch after another. -/
def checkMergedLengths (place : String) (seqLen prefixTokens : Nat) :
    Nat → List (TrainingSample Scalar) → Except String Unit
  | _, [] => .ok ()
  | branch, sample :: rest =>
      let mergedLength := sample.tokenIds.length + prefixTokens
      if seqLen < mergedLength then
        .error (s!"conditioned value input exceeds value_function.model.seq_len ({place}, branch={branch}, original_tokens={sample.tokenIds.length}, prefix_tokens={prefixTokens}, merged_tokens={mergedLength}, seq_len={seqLen}); " ++
          "increase the critic sequence length, shorten the privileged context, or reduce the policy rollout length")
      else checkMergedLengths place seqLen prefixTokens (branch + 1) rest

/-- The prefix a prompt renders to. Its place behind a leading token follows the
convention that the rendered prompt and all branches share. -/
def renderValuePrefix (plane : ValuePlane) (place : String) (samples : List (TrainingSample Scalar))
    (prompt : String) : Except String TokenPrefix :=
  let rendered := plane.renderIds prompt
  let branchHasBos := samples.map (fun sample => hasBos plane.bosTokenId sample.tokenIds)
  let renderedHasBos := hasBos plane.bosTokenId rendered
  if prompt.toList.all isSpace then
    .error s!"value context prompt must contain non-whitespace text ({place})"
  else if branchHasBos.dedup.length ≠ 1 then
    .error s!"all branches in a rollout must use the same BOS convention ({place})"
  else if branchHasBos.head? ≠ some renderedHasBos then
    .error s!"rendered value context and policy branches must use the same BOS convention ({place})"
  else
    let prefixTokenIds := if renderedHasBos then rendered.tail else rendered
    if prefixTokenIds.isEmpty then .error s!"value context rendered to no prefix tokens ({place})"
    else TokenPrefix.make prefixTokenIds (if renderedHasBos then 1 else 0)

/-- The prefix of a rollout, when it has a critic-only context. -/
def buildValuePrefix (plane : ValuePlane) (envName : String) (taskIdx : Nat)
    (samples : List (TrainingSample Scalar)) (prompt : Option String) (enabled : Bool) :
    Except String (Option TokenPrefix) :=
  let place := s!"env='{envName}', task={taskIdx}"
  if !enabled || plane.valueSeqLen.isNone || samples.isEmpty then .ok none
  else
    match prompt with
    | none => .ok none
    | some text =>
        match renderValuePrefix plane place samples text with
        | .error message => .error message
        | .ok inserted =>
            match checkMergedLengths place (plane.valueSeqLen.getD 0) inserted.tokenIds.length 0
                samples with
            | .error message => .error message
            | .ok () => .ok (some inserted)

/-- The critic sample of one branch. -/
def valueTrainingSample [Zero Scalar] (inserted : Option TokenPrefix) (seqLen : Nat)
    (sample : ValueTrajectorySample) (targets : List Scalar) :
    Except String (ValueTrainingSample Scalar) :=
  match inserted with
  | some context =>
      match context.apply sample.tokenIds, context.lift sample.mask false,
          context.lift targets 0 with
      | .ok tokenIds, .ok mask, .ok valueTargets => .ok ⟨tokenIds, mask, valueTargets⟩
      | .error message, _, _ => .error message
      | _, .error message, _ => .error message
      | _, _, .error message => .error message
  | none =>
      let valueLength := min sample.tokenIds.length seqLen
      .ok ⟨sample.tokenIds.take valueLength, sample.mask.take valueLength, targets.take valueLength⟩

/-- The critic samples of a trajectory; samples and targets are zipped strictly. -/
def valueTrainingSamples [Zero Scalar] (inserted : Option TokenPrefix) (seqLen : Nat) :
    List ValueTrajectorySample → List (List Scalar) →
    Except String (List (ValueTrainingSample Scalar))
  | [], [] => .ok []
  | [], _ :: _ => .error "zip() argument 2 is longer than argument 1"
  | _ :: _, [] => .error "zip() argument 2 is shorter than argument 1"
  | sample :: samples, targets :: rest => do
      let first ← valueTrainingSample inserted seqLen sample targets
      let others ← valueTrainingSamples inserted seqLen samples rest
      .ok (first :: others)

/-- Publish the rollouts in turn. The published data, the next rollout id and the
error that ended the loop, if any. -/
def publishEach [Zero Scalar] (seqLen : Nat) : Int → List (Rollout Scalar) →
    List (ValueTrainingRollout Scalar) × Int × Option String
  | nextId, [] => ([], nextId, none)
  | nextId, rollout :: rest =>
      match rollout.valueTrajectory, rollout.valueReturns, rollout.valueVersion with
      | some trajectory, some returns, some version =>
          match valueTrainingSamples trajectory.inserted seqLen trajectory.samples returns with
          | .error message => ([], nextId, some message)
          | .ok samples =>
              let (published, finalId, raised) := publishEach seqLen (nextId + 1) rest
              (⟨samples, nextId, trajectory.policyVersion, version⟩ :: published, finalId, raised)
      | _, _, _ => ([], nextId, some "AssertionError")

/-- Rollouts with data for the critic. -/
def isTrainable (rollout : Rollout Scalar) : Bool :=
  rollout.valueTrajectory.any (fun trajectory => !trajectory.samples.isEmpty) ||
    !rollout.samples.isEmpty

def publishValueRollouts [Zero Scalar] (hasPublisher : Bool) (valueSeqLen : Option Nat)
    (nextId : Int) (rollouts : List (Rollout Scalar)) :
    List (ValueTrainingRollout Scalar) × Int × Option String :=
  let trainableRollouts := rollouts.filter isTrainable
  if !hasPublisher then ([], nextId, none)
  else if !trainableRollouts.any (fun rollout => rollout.valueReturns.isSome) then
    ([], nextId, none)
  else if !trainableRollouts.all (fun rollout =>
      rollout.valueReturns.isSome && rollout.valueVersion.isSome) then
    ([], nextId, some "value evaluator did not attach concrete lambda-return targets")
  else if trainableRollouts.any (fun rollout => rollout.valueTrajectory.isNone) then
    ([], nextId, some "value trajectory was not captured before critic publication")
  else
    match valueSeqLen with
    | none => ([], nextId, some "AssertionError")
    | some seqLen => publishEach seqLen nextId trainableRollouts

/-! ## Accepted prefixes -/

theorem merged_lengths_checked (place : String) (seqLen prefixTokens branch : Nat)
    (samples : List (TrainingSample Scalar))
    (checked : checkMergedLengths place seqLen prefixTokens branch samples = .ok ()) :
    ∀ sample ∈ samples, sample.tokenIds.length + prefixTokens ≤ seqLen := by
  induction samples generalizing branch with
  | nil => exact fun sample impossible => absurd impossible List.not_mem_nil
  | cons first rest inductionHypothesis =>
    rw [checkMergedLengths] at checked
    by_cases long : seqLen < first.tokenIds.length + prefixTokens
    · simp only [long, if_true] at checked
      exact absurd checked nofun
    · simp only [long, if_false] at checked
      intro sample member
      rcases List.mem_cons.mp member with rfl | later
      · exact Nat.not_lt.mp long
      · exact inductionHypothesis _ checked sample later

/-- An accepted prefix leaves every branch inside the critic's sequence length. -/
theorem value_prefix_fits (plane : ValuePlane) (envName : String) (taskIdx : Nat)
    (samples : List (TrainingSample Scalar)) (prompt : Option String) (enabled : Bool)
    (inserted : TokenPrefix)
    (accepted : buildValuePrefix plane envName taskIdx samples prompt enabled =
      .ok (some inserted)) :
    ∃ seqLen, plane.valueSeqLen = some seqLen ∧
      ∀ sample ∈ samples, sample.tokenIds.length + inserted.tokenIds.length ≤ seqLen := by
  simp only [buildValuePrefix] at accepted
  by_cases absent : (!enabled || plane.valueSeqLen.isNone || samples.isEmpty) = true
  · simp only [absent, if_true] at accepted
    exact absurd accepted nofun
  · obtain ⟨seqLen, sized⟩ : ∃ seqLen, plane.valueSeqLen = some seqLen := by
      cases found : plane.valueSeqLen with
      | none => simp [found] at absent
      | some seqLen => exact ⟨seqLen, rfl⟩
    refine ⟨seqLen, sized, ?_⟩
    rw [if_neg absent, sized] at accepted
    cases prompt with
    | none => exact absurd accepted nofun
    | some text =>
      cases rendered : renderValuePrefix plane s!"env='{envName}', task={taskIdx}" samples text with
      | error message =>
        simp only [rendered] at accepted
        exact absurd accepted nofun
      | ok created =>
        simp only [rendered, Option.getD_some] at accepted
        cases checked : checkMergedLengths s!"env='{envName}', task={taskIdx}" seqLen
            created.tokenIds.length 0 samples with
        | error message =>
          simp only [checked] at accepted
          exact absurd accepted nofun
        | ok done =>
          simp only [checked] at accepted
          cases accepted
          exact merged_lengths_checked _ seqLen _ 0 samples checked

/-! ## Published sequences -/

/-- A scored rollout: the trajectory the critic was asked about, its response,
the layout credit was computed with and the computed streams. -/
structure Scoring (Scalar : Type u) where
  trajectory : ValueTrajectory Scalar
  predictions : List (List Scalar)
  layout : Option TrainingLayout
  valuePredictions : List (List Scalar)
  advantages : List (List Scalar)
  returns : List (List Scalar)

/-- The trajectory has no prefix, or one the sink accepted for its samples. -/
def PrefixAccepted (plane : ValuePlane) (trajectory : ValueTrajectory Scalar) : Prop :=
  ∀ context, trajectory.inserted = some context →
    ∃ (samples : List (TrainingSample Scalar)) (envName : String) (taskIdx : Nat)
      (prompt : Option String) (enabled : Bool),
      samples.map TrainingSample.tokenIds =
          trajectory.samples.map ValueTrajectorySample.tokenIds ∧
        buildValuePrefix plane envName taskIdx samples prompt enabled = .ok (some context)

/-- A published sample is the sequence the critic was asked about, inside the
critic's lengths, with nothing trained in the prefix and the mask and target of
every visible original position at its image. -/
structure Faithful (inserted : Option TokenPrefix) (seqLen : Nat) (sample : ValueTrajectorySample)
    (returns : List Scalar) (published : ValueTrainingSample Scalar) : Prop where
  asked : valueInput sample.tokenIds inserted seqLen = .ok published.tokenIds
  maskWidth : published.mask.length = published.tokenIds.length
  targetWidth : published.targets.length = published.tokenIds.length
  bounded : 1 ≤ published.tokenIds.length ∧ published.tokenIds.length ≤ seqLen
  context : ∀ context, inserted = some context → ∀ position, context.insertAt ≤ position →
    position < context.insertAt + context.tokenIds.length → published.mask[position]? = some false
  visible : ∀ position : Nat, position < visibleLength inserted seqLen sample →
    published.mask[imageOf inserted position]? = sample.mask[position]? ∧
      published.targets[imageOf inserted position]? = returns[position]?

theorem value_training_sample_faithful [Zero Scalar] (inserted : Option TokenPrefix) (seqLen : Nat)
    (sample : ValueTrajectorySample) (returns : List Scalar) (filled : 1 ≤ sample.tokenIds.length)
    (positive : 1 ≤ seqLen)
    (fits : ∀ context, inserted = some context →
      sample.tokenIds.length + context.tokenIds.length ≤ seqLen)
    (width : returns.length = sample.tokenIds.length) :
    ∃ published, valueTrainingSample inserted seqLen sample returns = .ok published ∧
      Faithful inserted seqLen sample returns published := by
  have maskWidth : sample.mask.length = sample.tokenIds.length := sample.aligned.1.symm
  cases inserted with
  | none =>
    refine ⟨_, rfl, ?_, ?_, ?_, ?_, nofun, ?_⟩
    · rw [valueInput]
      congr 1
      rcases Nat.le_total seqLen sample.tokenIds.length with long | short
      · rw [Nat.min_eq_right long]
      · rw [Nat.min_eq_left short, List.take_length, List.take_of_length_le short]
    · simp only [List.length_take]
      omega
    · simp only [List.length_take]
      omega
    · simp only [List.length_take]
      omega
    · intro position seen
      have taken : position < min sample.tokenIds.length seqLen := seen
      simp only [imageOf, Option.elim_none, List.getElem?_take, if_pos taken, and_self]
  | some context =>
    obtain ⟨tokenIds, applied⟩ := context.apply_ok sample.tokenIds filled
    obtain ⟨mask, liftedMask, maskLength, maskImage, maskFill⟩ := context.lift_ok sample.mask false
      (by omega)
    obtain ⟨targets, liftedTargets, targetLength, targetImage, -⟩ := context.lift_ok returns 0
      (by omega)
    have tokenLength := context.apply_length _ _ applied
    have room := fits context rfl
    refine ⟨⟨tokenIds, mask, targets⟩, ?_, applied, ?_, ?_, ?_, ?_, ?_⟩
    · simp only [valueTrainingSample, applied, liftedMask, liftedTargets]
    · simp only
      omega
    · simp only
      omega
    · simp only
      omega
    · rintro other same position after before
      obtain rfl := Option.some.inj same
      exact maskFill position after before
    · intro position _
      exact ⟨maskImage position, targetImage position⟩

/-- All samples of a trajectory are published faithfully, in order. -/
theorem value_training_samples_faithful [Zero Scalar] (inserted : Option TokenPrefix) (seqLen : Nat)
    (samples : List ValueTrajectorySample) (returns : List (List Scalar)) (positive : 1 ≤ seqLen)
    (each : List.Forall₂ (fun sample row => 1 ≤ sample.tokenIds.length ∧
      (∀ context, inserted = some context →
        sample.tokenIds.length + context.tokenIds.length ≤ seqLen) ∧
      row.length = sample.tokenIds.length) samples returns) :
    ∃ published, valueTrainingSamples inserted seqLen samples returns = .ok published ∧
      published.length = samples.length ∧
      ∀ (sampleIndex : Nat) sample row, samples[sampleIndex]? = some sample →
        returns[sampleIndex]? = some row →
        ∃ critic, published[sampleIndex]? = some critic ∧
          Faithful inserted seqLen sample row critic := by
  induction each with
  | nil => exact ⟨[], rfl, rfl, fun sampleIndex sample row listed => absurd listed nofun⟩
  | cons here later inductionHypothesis =>
    rename_i sample row samples returns
    obtain ⟨filled, fits, width⟩ := here
    obtain ⟨first, firstOk, faithful⟩ := value_training_sample_faithful inserted seqLen sample row
      filled positive fits width
    obtain ⟨rest, restOk, restLength, restFaithful⟩ := inductionHypothesis
    refine ⟨first :: rest, ?_, by rw [List.length_cons, List.length_cons, restLength], ?_⟩
    · simp only [valueTrainingSamples, firstOk, restOk, bind, Except.bind]
    · intro sampleIndex other targets listed found
      cases sampleIndex with
      | zero =>
        obtain rfl := Option.some.inj listed
        obtain rfl := Option.some.inj found
        exact ⟨first, rfl, faithful⟩
      | succ sampleIndex => exact restFaithful sampleIndex other targets listed found

/-- Samples within the critic's lengths are never rejected by packing. -/
theorem packing_accepts [Zero Scalar] (samples : List (ValueTrainingSample Scalar)) (seqLen worldSize : Nat)
    (padTokenId : Nat) (packSequences : Bool) (nonempty : samples ≠ []) (positive : 1 ≤ worldSize)
    (aligned : ∀ sample ∈ samples, sample.mask.length = sample.tokenIds.length ∧
      sample.targets.length = sample.tokenIds.length ∧
      1 ≤ sample.tokenIds.length ∧ sample.tokenIds.length ≤ seqLen) :
    ∃ grid, packValueSamples samples seqLen worldSize padTokenId packSequences = .ok grid := by
  have noMisaligned : samples.any (fun sample =>
      decide (sample.mask.length ≠ sample.tokenIds.length) ||
        decide (sample.targets.length ≠ sample.tokenIds.length)) = false := by
    rw [List.any_eq_false]
    intro sample member
    obtain ⟨mask, targets, -⟩ := aligned sample member
    simp [mask, targets]
  obtain ⟨grid, -, packed, -⟩ := pack_indices_cases
    (samples.map (fun sample => sample.tokenIds.length)) seqLen worldSize packSequences
    (by simpa using nonempty) positive
    (by
      intro length member
      obtain ⟨sample, listed, rfl⟩ := List.mem_map.mp member
      exact (aligned sample listed).2.2)
  exact ⟨_, by rw [packValueSamples, noMisaligned, packed]; rfl⟩

/-! ## Publication -/

section
variable [CommRing Scalar] [LinearOrder Scalar]

/-- How a rollout was scored: nonempty samples, a prefix the sink accepted, the
layout chosen for a captured layout that partitions the trained positions, a
response of matching lengths, and the streams computed from them. -/
structure Scored [ToString Scalar] (plane : ValuePlane) (config : ValueFunctionConfig Scalar)
    (rollout : Rollout Scalar) (scoring : Scoring Scalar) : Prop where
  captured : rollout.valueTrajectory = some scoring.trajectory
  filled : ∀ sample ∈ scoring.trajectory.samples, 1 ≤ sample.tokenIds.length
  accepted : PrefixAccepted plane scoring.trajectory
  partition : ∀ layout, scoring.trajectory.trainingLayout = some layout →
    LayoutPartition scoring.trajectory.samples layout
  chosen : ∃ usesPolicyGae branchSemantics,
    sequentialValueLayout scoring.trajectory config usesPolicyGae branchSemantics =
      .ok scoring.layout
  response : Matching scoring.trajectory.inserted config.seqLen scoring.trajectory.samples
    scoring.predictions
  computed : computeValueResult scoring.trajectory scoring.predictions config scoring.layout =
    .ok (scoring.valuePredictions, scoring.advantages, scoring.returns)
  returned : rollout.valueReturns = some scoring.returns
  versioned : rollout.valueVersion.isSome = true

/-- The published data of a rollout: faithful samples that hold the credit
computed at their positions and that packing accepts. -/
structure PublishedFaithfully (config : ValueFunctionConfig Scalar) (scoring : Scoring Scalar)
    (critic : ValueTrainingRollout Scalar) : Prop where
  sameLength : critic.samples.length = scoring.trajectory.samples.length
  samples : ∀ (sampleIndex : Nat) sample, scoring.trajectory.samples[sampleIndex]? = some sample →
    ∃ published advantages returns, critic.samples[sampleIndex]? = some published ∧
      scoring.advantages[sampleIndex]? = some advantages ∧
      scoring.returns[sampleIndex]? = some returns ∧
      Faithful scoring.trajectory.inserted config.seqLen sample returns published ∧
      Credited scoring.trajectory scoring.predictions config scoring.layout sampleIndex sample
        advantages returns
  packed : critic.samples ≠ [] → ∀ worldSize padTokenId packSequences, 1 ≤ worldSize →
    ∃ grid, packValueSamples critic.samples config.seqLen worldSize padTokenId packSequences =
      .ok grid

/-- One scored rollout is published faithfully. -/
theorem scored_published [ToString Scalar] (plane : ValuePlane)
    (config : ValueFunctionConfig Scalar) (sized : plane.valueSeqLen = some config.seqLen)
    (positive : 1 ≤ config.seqLen) (rollout : Rollout Scalar) (scoring : Scoring Scalar)
    (scored : Scored plane config rollout scoring) :
    ∃ samples, valueTrainingSamples scoring.trajectory.inserted config.seqLen
        scoring.trajectory.samples scoring.returns = .ok samples ∧
      ∀ rolloutId policyVersion valueVersion, PublishedFaithfully config scoring
        ⟨samples, rolloutId, policyVersion, valueVersion⟩ := by
  obtain ⟨usesPolicyGae, branchSemantics, chosen⟩ := scored.chosen
  obtain ⟨valuePredictions, advantages, returns, computed, width, rows⟩ :=
    compute_value_result_credited scoring.trajectory scoring.predictions config scoring.layout
      scored.filled scored.response (sequential_layout_stitches scoring.trajectory config
        usesPolicyGae branchSemantics scoring.layout scored.partition chosen)
  have same := computed.symm.trans scored.computed
  simp only [Except.ok.injEq, Prod.mk.injEq] at same
  obtain ⟨-, rfl, rfl⟩ := same
  have fits : ∀ sample ∈ scoring.trajectory.samples, ∀ context,
      scoring.trajectory.inserted = some context →
      sample.tokenIds.length + context.tokenIds.length ≤ config.seqLen := by
    intro sample member context inserted
    obtain ⟨samples, envName, taskIdx, prompt, enabled, sameTokens, built⟩ :=
      scored.accepted context inserted
    obtain ⟨seqLen, found, bounded⟩ := value_prefix_fits plane envName taskIdx samples prompt
      enabled context built
    obtain rfl := Option.some.inj (sized.symm.trans found)
    have listed : sample.tokenIds ∈ samples.map TrainingSample.tokenIds := by
      rw [sameTokens]
      exact List.mem_map.mpr ⟨sample, member, rfl⟩
    obtain ⟨original, inSamples, tokens⟩ := List.mem_map.mp listed
    rw [← tokens]
    exact bounded original inSamples
  have each : List.Forall₂ (fun sample row => 1 ≤ sample.tokenIds.length ∧
      (∀ context, scoring.trajectory.inserted = some context →
        sample.tokenIds.length + context.tokenIds.length ≤ config.seqLen) ∧
      row.length = sample.tokenIds.length) scoring.trajectory.samples scoring.returns := by
    rw [List.forall₂_iff_get]
    refine ⟨width.symm, ?_⟩
    intro sampleIndex inSamples inReturns
    have listed := List.getElem?_eq_getElem inSamples
    obtain ⟨advantageRow, returnRow, -, found, credited⟩ := rows sampleIndex _ listed
    have member := List.getElem_mem inSamples
    have sameRow : scoring.returns[sampleIndex] = returnRow := by
      rw [List.getElem?_eq_getElem inReturns] at found
      exact Option.some.inj found
    refine ⟨scored.filled _ member, fits _ member, ?_⟩
    rw [List.get_eq_getElem, List.get_eq_getElem, sameRow]
    exact credited.returnWidth
  obtain ⟨samples, published, sameLength, faithful⟩ := value_training_samples_faithful
    scoring.trajectory.inserted config.seqLen scoring.trajectory.samples scoring.returns positive each
  refine ⟨samples, published, ?_⟩
  intro rolloutId policyVersion valueVersion
  refine ⟨sameLength, ?_, ?_⟩
  · intro sampleIndex sample listed
    obtain ⟨advantageRow, returnRow, advantageFound, returnFound, credited⟩ :=
      rows sampleIndex sample listed
    obtain ⟨critic, found, exact⟩ := faithful sampleIndex sample returnRow listed returnFound
    exact ⟨critic, advantageRow, returnRow, found, advantageFound, returnFound, exact, credited⟩
  · intro nonempty worldSize padTokenId packSequences ranks
    refine packing_accepts samples config.seqLen worldSize padTokenId packSequences nonempty ranks ?_
    intro critic member
    obtain ⟨sampleIndex, found⟩ := List.mem_iff_getElem?.mp member
    have inside := (List.getElem?_eq_some_iff.mp found).1
    obtain ⟨advantageRow, returnRow, -, returnFound, -⟩ := rows sampleIndex _
      (List.getElem?_eq_getElem (show sampleIndex < scoring.trajectory.samples.length by omega))
    obtain ⟨other, alsoFound, exact⟩ := faithful sampleIndex _ returnRow
      (List.getElem?_eq_getElem (by omega)) returnFound
    obtain rfl := Option.some.inj (found.symm.trans alsoFound)
    exact ⟨exact.maskWidth, exact.targetWidth, exact.bounded⟩

/-- The loop publishes every scored rollout with consecutive ids. -/
theorem publish_each_faithful [ToString Scalar] (plane : ValuePlane)
    (config : ValueFunctionConfig Scalar) (sized : plane.valueSeqLen = some config.seqLen)
    (positive : 1 ≤ config.seqLen) (scored : List (Rollout Scalar × Scoring Scalar))
    (each : ∀ pair ∈ scored, Scored plane config pair.1 pair.2) (nextId : Int) :
    ∃ published, publishEach config.seqLen nextId (scored.map Prod.fst) =
        (published, nextId + published.length, none) ∧
      List.Forall₂ (fun pair critic => PublishedFaithfully config pair.2 critic) scored published := by
  induction scored generalizing nextId with
  | nil => exact ⟨[], by simp [publishEach], List.Forall₂.nil⟩
  | cons pair rest inductionHypothesis =>
    have here := each pair List.mem_cons_self
    obtain ⟨samples, published, faithful⟩ :=
      scored_published plane config sized positive pair.1 pair.2 here
    obtain ⟨version, versioned⟩ := Option.isSome_iff_exists.mp here.versioned
    obtain ⟨later, laterOk, laterFaithful⟩ := inductionHypothesis
      (fun other member => each other (List.mem_cons_of_mem _ member)) (nextId + 1)
    refine ⟨⟨samples, nextId, pair.2.trajectory.policyVersion, version⟩ :: later, ?_,
      List.Forall₂.cons (faithful _ _ _) laterFaithful⟩
    simp only [List.map_cons, publishEach, here.captured, here.returned, versioned, published,
      laterOk, List.length_cons, Nat.cast_add, Nat.cast_one, Prod.mk.injEq, true_and, and_true]
    omega

/-- The critic is trained on the states it was scored on. Every scored rollout is
published, and each of its samples is the sequence the critic was asked about,
with the mask and the lambda-return of every visible original position at the
image of that position. -/
theorem critic_trained_on_scored_states [ToString Scalar] (plane : ValuePlane)
    (config : ValueFunctionConfig Scalar) (sized : plane.valueSeqLen = some config.seqLen)
    (positive : 1 ≤ config.seqLen) (scored : List (Rollout Scalar × Scoring Scalar))
    (each : ∀ pair ∈ scored, Scored plane config pair.1 pair.2) (nextId : Int) :
    ∃ published, publishValueRollouts true plane.valueSeqLen nextId (scored.map Prod.fst) =
        (published, nextId + published.length, none) ∧
      List.Forall₂ (fun pair critic => PublishedFaithfully config pair.2 critic)
        (scored.filter (fun pair => isTrainable pair.1)) published := by
  have trainable : (scored.map Prod.fst).filter isTrainable =
      (scored.filter (fun pair => isTrainable pair.1)).map Prod.fst := by
    rw [List.filter_map]
    rfl
  have eachTrainable : ∀ pair ∈ scored.filter (fun pair => isTrainable pair.1),
      Scored plane config pair.1 pair.2 :=
    fun pair member => each pair (List.mem_filter.mp member).1
  have returned : ∀ rollout ∈ (scored.filter (fun pair => isTrainable pair.1)).map Prod.fst,
      rollout.valueReturns.isSome = true ∧ rollout.valueVersion.isSome = true ∧
        rollout.valueTrajectory.isNone = false := by
    intro rollout member
    obtain ⟨pair, listed, rfl⟩ := List.mem_map.mp member
    have here := eachTrainable pair listed
    rw [here.returned, here.captured]
    exact ⟨rfl, here.versioned, rfl⟩
  simp only [publishValueRollouts, trainable, sized, Bool.not_true, Bool.false_eq_true, if_false]
  cases listed : scored.filter (fun pair => isTrainable pair.1) with
  | nil => exact ⟨[], by simp, List.Forall₂.nil⟩
  | cons pair rest =>
    rw [listed] at eachTrainable returned
    have attached : ((pair :: rest).map Prod.fst).any
        (fun rollout => rollout.valueReturns.isSome) = true :=
      List.any_eq_true.mpr ⟨pair.1, List.mem_cons_self, (returned pair.1 List.mem_cons_self).1⟩
    have concrete : ((pair :: rest).map Prod.fst).all (fun rollout =>
        rollout.valueReturns.isSome && rollout.valueVersion.isSome) = true := by
      rw [List.all_eq_true]
      intro rollout member
      obtain ⟨hasReturns, hasVersion, -⟩ := returned rollout member
      rw [hasReturns, hasVersion]
      rfl
    have captured : ((pair :: rest).map Prod.fst).any
        (fun rollout => rollout.valueTrajectory.isNone) = false := by
      rw [List.any_eq_false]
      intro rollout member
      rw [(returned rollout member).2.2]
      exact Bool.false_ne_true
    simp only [attached, concrete, captured, Bool.not_true, Bool.false_eq_true, if_false]
    exact publish_each_faithful plane config sized positive (pair :: rest) eachTrainable nextId

end

/-- A plane whose prompts render to a leading token and two more. -/
def conditionedPlane : ValuePlane := ⟨fun _ => [1, 50, 51], some 1, some 8⟩

/-- The prefix of these prompts. -/
def conditionedPrefix : TokenPrefix := ⟨[50, 51], 1, by decide⟩

/-- A branch of a prompt and one answer token behind the leading token. -/
def conditionedSample : ValueTrajectorySample :=
  ⟨[1, 5, 6], [false, false, true], [false, false, true], by decide, by decide⟩

/-- A rollout of this branch, scored under the prefix. -/
def conditionedScoring : Scoring Rat :=
  { trajectory := ⟨[conditionedSample], none, 1, some conditionedPrefix, "env", "group", 3⟩
    predictions := [[0, 0, 0, 1 / 4, 1 / 2]]
    layout := none
    valuePredictions := [[0, 1 / 4, 1 / 2]]
    advantages := [[0, 0, 1 / 2]]
    returns := [[0, 0, 1]] }

def conditionedRollout : Rollout Rat :=
  ⟨[], some conditionedScoring.trajectory, some conditionedScoring.returns, some 2⟩

theorem conditioned_scored :
    Scored conditionedPlane PrimeRl.Value.StitchedCredit.undecayedConfig conditionedRollout
      conditionedScoring :=
  { captured := rfl
    filled := by decide
    accepted := by
      rintro context same
      obtain rfl := Option.some.inj same
      exact ⟨[{ tokenIds := [1, 5, 6], mask := [false, false, true], logprobs := []
                temperatures := [], envName := "env", refLogprobs := none, rlWeights := none
                ceWeights := none, refKlWeights := none, advantages := none
                tokenPolicyVersions := none }],
        "env", 0, some "hint", true, rfl, rfl⟩
    partition := nofun
    chosen := ⟨true, none, rfl⟩
    response := List.Forall₂.cons ⟨_, rfl, rfl⟩ List.Forall₂.nil
    computed := by decide +kernel
    returned := rfl
    versioned := rfl }

/-- The conditioned rollout is published with its prefix. -/
theorem critic_trained_on_conditioned_states :
    ∃ published, publishValueRollouts true (some 8) 7 [conditionedRollout] =
        (published, (7 : Int) + published.length, none) ∧
      List.Forall₂ (fun pair critic =>
          PublishedFaithfully PrimeRl.Value.StitchedCredit.undecayedConfig pair.2 critic)
        ([(conditionedRollout, conditionedScoring)].filter (fun pair => isTrainable pair.1))
        published :=
  critic_trained_on_scored_states conditionedPlane PrimeRl.Value.StitchedCredit.undecayedConfig rfl
    (by decide) [(conditionedRollout, conditionedScoring)]
    (fun pair member => List.mem_singleton.mp member ▸ conditioned_scored) 7

/-- A critic without any sequence length. -/
def emptyConfig : ValueFunctionConfig Rat := ⟨0, 1, 1, 1, by decide, by decide, by decide⟩

/-- The unconditioned branch under this critic. -/
def emptyScoring : Scoring Rat :=
  { trajectory := ⟨[conditionedSample], none, 1, none, "env", "group", 3⟩
    predictions := [[]]
    layout := none
    valuePredictions := [[0, 0, 0]]
    advantages := [[0, 0, 0]]
    returns := [[0, 0, 0]] }

/-- With a sequence length of zero the critic is asked about an empty sequence,
and the published sample is one that packing rejects. -/
theorem published_sample_rejected :
    Scored ⟨fun _ => [], none, some 0⟩ emptyConfig
        ⟨[], some emptyScoring.trajectory, some emptyScoring.returns, some 2⟩ emptyScoring ∧
      publishValueRollouts true (some 0) 7
          [⟨[], some emptyScoring.trajectory, some emptyScoring.returns, some 2⟩] =
        ([⟨[⟨[], [], []⟩], 7, 3, 2⟩], 8, none) ∧
      packValueSamples [(⟨[], [], []⟩ : ValueTrainingSample Rat)] 0 1 0 true =
        .error "value sample length 0 is outside [1, 0]" := by
  refine ⟨?_, rfl, rfl⟩
  exact
    { captured := rfl
      filled := by decide
      accepted := nofun
      partition := nofun
      chosen := ⟨true, none, rfl⟩
      response := List.Forall₂.cons ⟨_, rfl, rfl⟩ List.Forall₂.nil
      computed := rfl
      returned := rfl
      versioned := rfl }

end PrimeRl.Orchestrator.TrainSink
