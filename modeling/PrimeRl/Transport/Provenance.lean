import PrimeRl.Support.Fallible
import PrimeRl.Support.LittleEndian
import PrimeRl.Transport.Types

/-!
# Policy versions on the wire

One signed 64-bit step for each token, -1 where it is unknown, as raw bytes. A
payload without a known step is not carried, so an absent payload stands for
unknown steps throughout.
-/

namespace PrimeRl.Transport

def decodePolicyVersions (payload : EncodedTensor) (numTokens : Nat) : Except String (List Int) :=
  if payload.dtype ≠ "int64" ∨ payload.shape ≠ [numTokens] ∨ payload.data.length ≠ numTokens * 8 then
    .error "token_policy_versions must be int64 with exactly one value per physical token"
  else if (SignedWord.readWords numTokens payload.data).any (fun value => decide (value < -1)) then
    .error "token_policy_versions values must be -1 (unknown) or a nonnegative step"
  else .ok (SignedWord.readWords numTokens payload.data)

/-- The payload of an array of words; other integers are no such array. -/
def encodePolicyVersions (values : List Int) : Except String (Option EncodedTensor) :=
  if values.any (fun value => decide (¬ SignedWord.Fits value ∨ value < -1)) then
    .error "policy versions require a one-dimensional int64 array with values >= -1"
  else if ¬ values.any (fun value => decide (0 ≤ value)) then .ok none
  else
    .ok (some
      { dtype := "int64"
        shape := [values.length]
        data := SignedWord.writeWords values })

/-- The steps an optional payload stands for. -/
def versionsOf (payload : Option EncodedTensor) (numTokens : Nat) : Except String (List Int) :=
  match payload with
  | none => .ok (List.replicate numTokens (-1))
  | some tensor => decodePolicyVersions tensor numTokens

/-- An array of words that are -1 or a step. -/
def StepWords (values : List Int) : Prop := ∀ value ∈ values, SignedWord.Fits value ∧ -1 ≤ value

theorem decode_policy_versions_iff (payload : EncodedTensor) (numTokens : Nat) (values : List Int) :
    decodePolicyVersions payload numTokens = .ok values ↔
      (payload.dtype = "int64" ∧ payload.shape = [numTokens] ∧ payload.data.length = numTokens * 8) ∧
      values = SignedWord.readWords numTokens payload.data ∧ ∀ value ∈ values, -1 ≤ value := by
  rw [decodePolicyVersions]
  constructor
  · intro accepted
    obtain ⟨shaped, accepted⟩ := Fallible.check_passed accepted
    obtain ⟨low, accepted⟩ := Fallible.check_passed accepted
    obtain rfl := Except.ok.inj accepted
    refine ⟨by simpa only [not_or, not_not] using shaped, rfl, ?_⟩
    intro value member
    by_contra below
    exact low (List.any_eq_true.mpr ⟨value, member, decide_eq_true (by omega)⟩)
  · rintro ⟨⟨dtype, shape, length⟩, rfl, valid⟩
    have shaped : ¬ (payload.dtype ≠ "int64" ∨ payload.shape ≠ [numTokens] ∨
        payload.data.length ≠ numTokens * 8) := by
      simp only [dtype, shape, length, ne_eq, not_true_eq_false, or_self, not_false_eq_true]
    rw [if_neg shaped, if_neg]
    intro low
    obtain ⟨value, member, below⟩ := List.any_eq_true.mp low
    have high := valid value member
    have lower := of_decide_eq_true below
    omega

/-- What is decoded is an array of one word for each token. -/
theorem decoded_words {payload : EncodedTensor} {numTokens : Nat} {values : List Int}
    (decoded : decodePolicyVersions payload numTokens = .ok values) :
    values.length = numTokens ∧ StepWords values := by
  obtain ⟨-, rfl, valid⟩ := (decode_policy_versions_iff payload numTokens values).mp decoded
  exact ⟨SignedWord.readWords_length _ _,
    fun value member => ⟨SignedWord.fits_readWords _ _ value member, valid value member⟩⟩

theorem versions_words {payload : Option EncodedTensor} {numTokens : Nat} {values : List Int}
    (read : versionsOf payload numTokens = .ok values) :
    values.length = numTokens ∧ StepWords values := by
  cases payload with
  | some tensor => exact decoded_words read
  | none =>
    obtain rfl := Except.ok.inj read
    refine ⟨List.length_replicate, ?_⟩
    intro value member
    rw [List.eq_of_mem_replicate member]
    decide

/-- Only arrays of steps are encoded. -/
theorem encoded_words {values : List Int} {payload : Option EncodedTensor}
    (encoded : encodePolicyVersions values = .ok payload) : StepWords values := by
  obtain ⟨valid, -⟩ := Fallible.check_passed encoded
  intro value member
  by_contra outside
  refine valid (List.any_eq_true.mpr ⟨value, member, decide_eq_true ?_⟩)
  by_cases fits : SignedWord.Fits value
  · exact .inr (Int.not_le.mp (fun high => outside ⟨fits, high⟩))
  · exact .inl fits

/-- Every array of steps is encoded, as its bytes when a step is known. -/
theorem encode_policy_versions_eq {values : List Int} (words : StepWords values) :
    encodePolicyVersions values =
      .ok (if values.any (fun value => decide (0 ≤ value)) then
        some ⟨"int64", [values.length], SignedWord.writeWords values⟩ else none) := by
  have valid : ¬ values.any (fun value => decide (¬ SignedWord.Fits value ∨ value < -1)) = true := by
    intro invalid
    obtain ⟨value, member, wrong⟩ := List.any_eq_true.mp invalid
    obtain ⟨fits, high⟩ := words value member
    exact (of_decide_eq_true wrong).elim (absurd fits) (fun low => by omega)
  rw [encodePolicyVersions, if_neg valid]
  cases values.any (fun value => decide (0 ≤ value)) <;> rfl

/-- Decoding returns the array that was encoded. -/
theorem decode_encode {values : List Int} {payload : EncodedTensor}
    (encoded : encodePolicyVersions values = .ok (some payload)) :
    decodePolicyVersions payload values.length = .ok values := by
  have words := encoded_words encoded
  rw [encode_policy_versions_eq words] at encoded
  obtain ⟨-, isPayload⟩ := Option.ite_none_right_eq_some.mp (Except.ok.inj encoded)
  obtain rfl := Option.some.inj isPayload
  rw [decode_policy_versions_iff]
  refine ⟨⟨rfl, rfl, ?_⟩, ?_, fun value member => (words value member).2⟩
  · rw [SignedWord.writeWords_length, Nat.mul_comm]
  · exact (SignedWord.readWords_writeWords values (fun value member => (words value member).1)).symm

/-- Encoding returns the payload that was decoded, byte for byte, when a step is
    known. -/
theorem encode_decode {payload : EncodedTensor} {numTokens : Nat} {values : List Int}
    (decoded : decodePolicyVersions payload numTokens = .ok values)
    (known : ∃ value ∈ values, 0 ≤ value) : encodePolicyVersions values = .ok (some payload) := by
  obtain ⟨length, words⟩ := decoded_words decoded
  obtain ⟨⟨dtype, shape, bytes⟩, isRead, -⟩ :=
    (decode_policy_versions_iff payload numTokens values).mp decoded
  obtain ⟨value, member, step⟩ := known
  have some_known : values.any (fun value => decide (0 ≤ value)) = true :=
    List.any_eq_true.mpr ⟨value, member, decide_eq_true step⟩
  have written : SignedWord.writeWords values = payload.data := by
    rw [isRead]
    exact SignedWord.writeWords_readWords _ _ (bytes.trans (Nat.mul_comm _ _))
  rw [encode_policy_versions_eq words, if_pos some_known, length, written, ← shape, ← dtype]

/-- Whatever an array of steps is encoded as stands for it. -/
theorem encode_reads {values : List Int} (words : StepWords values) :
    ∃ payload, encodePolicyVersions values = .ok payload ∧
      versionsOf payload values.length = .ok values := by
  refine ⟨_, encode_policy_versions_eq words, ?_⟩
  by_cases known : values.any (fun value => decide (0 ≤ value)) = true
  · have encoded := encode_policy_versions_eq words
    rw [if_pos known] at encoded ⊢
    exact decode_encode encoded
  · rw [if_neg known]
    apply congrArg Except.ok
    apply (List.eq_replicate_iff.mpr ⟨rfl, ?_⟩).symm
    intro value member
    have low : ¬ 0 ≤ value := fun high =>
      known (List.any_eq_true.mpr ⟨value, member, decide_eq_true high⟩)
    have high := (words value member).2
    omega

/-! ## Joints -/

/-- The bytes of a payload, with filler for an absent one. -/
def versionBytes (payload : Option EncodedTensor) (numTokens : Nat) : List UInt8 :=
  match payload with
  | none => List.replicate (8 * numTokens) 255
  | some tensor => tensor.data

/-- The bytes of a payload are the words it stands for. -/
theorem version_bytes_read {payload : Option EncodedTensor} {numTokens : Nat} {values : List Int}
    (read : versionsOf payload numTokens = .ok values) :
    (versionBytes payload numTokens).length = 8 * numTokens ∧
      SignedWord.readWords numTokens (versionBytes payload numTokens) = values := by
  cases payload with
  | none =>
    obtain rfl := Except.ok.inj read
    exact ⟨List.length_replicate, SignedWord.readWords_filler numTokens⟩
  | some tensor =>
    obtain ⟨⟨-, -, bytes⟩, isRead, -⟩ :=
      (decode_policy_versions_iff tensor numTokens values).mp read
    exact ⟨bytes.trans (Nat.mul_comm _ _), isRead.symm⟩

/-- Bytes that read as an array of steps carry it. -/
theorem bytes_carry {values : List Int} {numTokens : Nat} {data : List UInt8}
    (length : data.length = 8 * numTokens) (read : SignedWord.readWords numTokens data = values)
    (valid : ∀ value ∈ values, -1 ≤ value) :
    versionsOf (some ⟨"int64", [numTokens], data⟩) numTokens = .ok values :=
  (decode_policy_versions_iff _ _ _).mpr
    ⟨⟨rfl, rfl, length.trans (Nat.mul_comm _ _)⟩, read.symm, valid⟩

end PrimeRl.Transport
