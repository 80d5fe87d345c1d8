import PrimeRl.Trainer.Packer
import PrimeRl.Trainer.PrepareBatch

/-!
# What validation leaves to the packer

The packer validates a sample when it is received and prepares it when it is
packed. Validation looks at five fields. A validated sample is prepared exactly
when the fields that it does not look at are sound as well.
-/

namespace PrimeRl.Trainer.Packer

open PrimeRl.Transport PrimeRl.Trainer.Batch

variable {Scalar : Type}

/-- The streams that every sample has are searched for one of another length. -/
theorem no_misaligned_stream_iff (sample : TrainingSample Scalar) :
    misalignedStream sample = none ↔
      sample.mask.length = sample.tokenIds.length ∧
        sample.logprobs.length = sample.tokenIds.length ∧
        sample.temperatures.length = sample.tokenIds.length := by
  rw [misalignedStream, List.find?_eq_none]
  simp

/-- What validation says of a sample. -/
theorem validate_sample_iff (seqLen : Nat) (sample : TrainingSample Scalar) :
    validateSample seqLen sample = .ok () ↔
      (sample.mask.length = sample.tokenIds.length ∧
        sample.logprobs.length = sample.tokenIds.length ∧
        sample.temperatures.length = sample.tokenIds.length) ∧
      0 < sample.tokenIds.length ∧ sample.tokenIds.length ≤ seqLen ∧
      StreamAligned sample.refLogprobs sample.tokenIds.length := by
  rw [← no_misaligned_stream_iff, validateSample]
  cases misaligned : misalignedStream sample with
  | some stream => exact iff_of_false nofun (fun sound => nomatch sound.1)
  | none =>
    dsimp only
    rw [Fallible.check_passed_iff, Fallible.check_passed_iff, Nat.pos_iff_ne_zero, Nat.not_lt]
    cases present : sample.refLogprobs with
    | none => simp [StreamAligned]
    | some refLogprobs => simp [StreamAligned]

/-- A payload of one valid policy version for each token. -/
def VersionsSent (payload : Option EncodedTensor) (numTokens : Nat) : Prop :=
  ∀ tensor, payload = some tensor →
    (tensor.dtype = "int64" ∧ tensor.shape = [numTokens] ∧ tensor.data.length = numTokens * 8) ∧
      ∀ value ∈ SignedWord.readWords numTokens tensor.data, -1 ≤ value

theorem versions_sent_iff (payload : Option EncodedTensor) (numTokens : Nat) :
    VersionsSent payload numTokens ↔ VersionsAligned payload numTokens := by
  cases payload with
  | none => exact iff_of_true nofun ⟨_, rfl⟩
  | some tensor =>
    constructor
    · intro sent
      obtain ⟨shaped, valid⟩ := sent tensor rfl
      exact ⟨_, (decode_policy_versions_iff tensor numTokens _).mpr ⟨shaped, rfl, valid⟩⟩
    · rintro ⟨values, decoded⟩ listed ⟨rfl⟩
      obtain ⟨shaped, rfl, valid⟩ := (decode_policy_versions_iff tensor numTokens values).mp decoded
      exact ⟨shaped, valid⟩

section
variable [Zero Scalar] [DecidableEq Scalar]

/-- The fields that validation does not look at are as packing needs them. -/
structure Sound (sample : TrainingSample Scalar) : Prop where
  advantages : StreamAligned sample.advantages sample.tokenIds.length
  credited : sample.advantages = none → hasRlMembers sample = false
  named : sample.envName ≠ "all"
  rlWeights : StreamAligned sample.rlWeights sample.tokenIds.length
  ceWeights : StreamAligned sample.ceWeights sample.tokenIds.length
  refKlWeights : StreamAligned sample.refKlWeights sample.tokenIds.length
  mmTokenTypeIds : StreamAligned sample.mmTokenTypeIds sample.tokenIds.length
  tokenPolicyVersions : VersionsSent sample.tokenPolicyVersions sample.tokenIds.length
  routedExperts : ExpertsListed sample.routedExperts sample.tokenIds.length

/-- A validated sample is well-formed where it is sound. -/
theorem validated_well_formed (seqLen : Nat) (sample : TrainingSample Scalar)
    (validated : validateSample seqLen sample = .ok ()) (sound : Sound sample) :
    WellFormed sample := by
  obtain ⟨⟨mask, logprobs, temperatures⟩, -, -, refLogprobs⟩ :=
    (validate_sample_iff seqLen sample).mp validated
  exact
    { mask := mask
      logprobs := logprobs
      temperatures := temperatures
      advantages := sound.advantages
      refLogprobs := refLogprobs
      rlWeights := sound.rlWeights
      ceWeights := sound.ceWeights
      refKlWeights := sound.refKlWeights
      mmTokenTypeIds := sound.mmTokenTypeIds
      tokenPolicyVersions := (versions_sent_iff _ _).mp sound.tokenPolicyVersions
      routedExperts := sound.routedExperts
      credited := sound.credited
      named := sound.named }

/-- A sample that fits is only prepared when it is sound. -/
theorem prepared_sound (numpy : Numpy) (sample : TrainingSample Scalar) (seqLen : Nat)
    (prepared : MicroBatch Scalar) (fits : sample.tokenIds.length ≤ seqLen)
    (accepted : prepareSample numpy sample seqLen = .ok prepared) : Sound sample := by
  obtain ⟨advantages, cut, kept, versions, experts, rows, checked, credited, named, isCut, -, routed,
    asserted, -⟩ := (prepare_sample_iff numpy sample seqLen prepared).mp accepted
  have short := Nat.not_lt.mpr fits
  obtain ⟨rfl, -⟩ := (sample_cut_bounded numpy sample seqLen cut kept isCut).2.2 short
  have uncut : sampleStreams sample seqLen advantages sample.tokenIds.length kept versions =
      wholeSample sample advantages := if_neg short
  rw [uncut] at asserted
  obtain ⟨⟨advantagesFit, -⟩, -, rlFit, ceFit, refKlFit, expertsFit, typesFit, -⟩ :=
    (assert_prepared_iff _ experts rows).mp asserted
  have same : experts = sample.routedExperts := by
    rw [sampleExperts] at routed
    cases present : sample.routedExperts with
    | none =>
      rw [present] at routed
      exact (Except.ok.inj routed).symm
    | some whole =>
      rw [present] at routed
      dsimp only at routed
      rw [if_neg short] at routed
      exact (Except.ok.inj routed).symm
  rw [same] at expertsFit
  constructor
  case advantages =>
    intro values present
    rw [sampleAdvantages, present] at credited
    obtain rfl := Except.ok.inj credited
    exact advantagesFit.symm
  case credited =>
    intro absent
    rw [sampleAdvantages, absent] at credited
    exact Bool.not_eq_true _ ▸ (Fallible.check_passed credited).1
  case named => exact named
  case rlWeights => exact (stream_fits_iff _ _).mp rlFit
  case ceWeights => exact (stream_fits_iff _ _).mp ceFit
  case refKlWeights => exact (stream_fits_iff _ _).mp refKlFit
  case mmTokenTypeIds => exact (stream_fits_iff _ _).mp typesFit
  case tokenPolicyVersions =>
    exact (versions_sent_iff _ _).mpr ((check_versions_iff _ _).mp checked)
  case routedExperts => exact (assert_rows_iff _ _).mp ⟨rows, expertsFit⟩

/-- A validated sample is prepared exactly when it is sound. -/
theorem validated_prepares_iff_sound (numpy : Numpy) (sample : TrainingSample Scalar) (seqLen : Nat)
    (validated : validateSample seqLen sample = .ok ()) :
    (∃ prepared, prepareSample numpy sample seqLen = .ok prepared) ↔ Sound sample := by
  obtain ⟨-, -, fits, -⟩ := (validate_sample_iff seqLen sample).mp validated
  constructor
  · rintro ⟨prepared, accepted⟩
    exact prepared_sound numpy sample seqLen prepared fits accepted
  · intro sound
    have whole : sampleCut numpy sample seqLen = .ok (sample.tokenIds.length, sample.mmKwargs) :=
      if_neg (Nat.not_lt.mpr fits)
    obtain ⟨prepared, accepted, -⟩ := well_formed_prepares numpy sample seqLen _ _
      (validated_well_formed seqLen sample validated sound) whole
    exact ⟨prepared, accepted⟩

end

/-- The sample of the policy gradient tests is prepared as it is. -/
theorem validated_prepares_iff_sound_credited :
    (∃ prepared, prepareSample noImages creditedSample 3 = .ok prepared) ↔ Sound creditedSample :=
  validated_prepares_iff_sound noImages creditedSample 3 (by decide +kernel)

/-- A sample of one trainable token whose advantage was never stamped. -/
def unstampedSample : TrainingSample Rat where
  tokenIds := [1]
  mask := [true]
  logprobs := [0]
  temperatures := [1]
  envName := "env"
  refLogprobs := none
  rlWeights := none
  ceWeights := none
  refKlWeights := none
  advantages := none
  tokenPolicyVersions := none

/-- Validation accepts a sample without its advantages, one of the reserved name, and one
whose weights are too short; each of them ends the batch it is packed in. -/
theorem validated_sample_raises :
    (validateSample 4 unstampedSample = .ok () ∧
      prepareSample noImages unstampedSample 4 =
        .error "sample from env 'env' has rl member tokens but no advantages — the producer must stamp the advantage stream (the orchestrator broadcasts the rollout scalar)") ∧
    (validateSample 4 { unstampedSample with advantages := some [1], envName := "all" } = .ok () ∧
      prepareSample noImages { unstampedSample with advantages := some [1], envName := "all" } 4 =
        .error "env_name='all' is reserved for aggregate metric keys") ∧
    (validateSample 4 { unstampedSample with advantages := some [1], ceWeights := some [] } =
        .ok () ∧
      prepareBatch noImages
          [{ unstampedSample with advantages := some [1], ceWeights := some [] }, creditedSample] 4 1
          [0, 0] 1 (fun lengths => (lengths.sum : Int)) 1 =
        .error "ce_weights") := by
  decide +kernel

end PrimeRl.Trainer.Packer
