import Mathlib.Algebra.BigOperators.Ring.List
import Mathlib.Algebra.Ring.Nat
import PrimeRl.Support.Fallible
import PrimeRl.Support.MessagePack
import PrimeRl.Value.Service

/-!
# The size of a request body

The server reads a body only up to a limit that it computes once, from the widest token
of the vocabulary and the tokens that may be pending. The client writes a request as a map
with one key. A sequence adds a header to its tokens, which the limit pays for with one
byte for each token.
-/

namespace PrimeRl.Value

universe u
variable {Scalar : Type u}

/-- MessagePack bodies are at least this long before a limit is applied. -/
def maxValueRequestBytes : Nat := 16 * 1024 * 1024

/-- The bytes that the client sends. -/
def ValueEvaluationRequest.encode (request : ValueEvaluationRequest) : Option (List UInt8) := do
  let header ← MessagePack.mapHeader 1
  let key ← MessagePack.text "token_ids".toUTF8.toList
  let value ← MessagePack.array (MessagePack.array MessagePack.natural) request.tokenIds
  some (header ++ key ++ value)

namespace ValueRequestService

/-- The limit of the service, which has none when the vocabulary is beyond every integer
of the encoding. -/
def maxRequestBytes (service : ValueRequestService Scalar) : Option Nat :=
  (MessagePack.natural (service.vocabSize - 1)).map fun token =>
    max maxValueRequestBytes (64 + service.config.maxPendingTokens * (token.length + 1))

/-- The check of a body by its announced length. -/
def checkBody (limit : Nat) (length : Int) : Except ServiceError Unit :=
  if length ≤ 0 then .error (.invalid "content-length must be positive")
  else if (limit : Int) < length then
    .error (.tooLarge s!"value request body exceeds {limit} bytes")
  else .ok ()

/-- What validation promises of a request. -/
theorem validated {service : ValueRequestService Scalar} {request : ValueEvaluationRequest}
    (valid : service.validate request = .ok ()) :
    ∀ tokens ∈ request.tokenIds, tokens ≠ [] ∧ ∀ token ∈ tokens, token < service.vocabSize := by
  obtain ⟨-, checked⟩ := Fallible.check_passed valid
  intro tokens member
  obtain ⟨index, inside, isTokens⟩ := List.getElem_of_mem member
  have each := Fallible.each_passed checked (tokens, index)
    (List.mem_zipIdx_iff_getElem?.mpr (by rw [List.getElem?_eq_getElem inside, isTokens]))
  obtain ⟨proper, known⟩ := Fallible.check_passed each
  obtain ⟨inVocabulary, -⟩ := Fallible.check_passed known
  constructor
  · intro empty
    exact proper (by simp [empty])
  · intro token isToken
    by_contra outside
    exact inVocabulary (List.any_eq_true.mpr ⟨token, isToken, by simpa using outside⟩)

/-- The tokens of a sequence and its header take at most one byte for each token beyond the
widest token. -/
theorem sequence_length {tokens : List Nat} {width : Nat} (nonempty : tokens ≠ [])
    (narrow : ∀ token ∈ tokens, MessagePack.naturalWidth token ≤ width) {written : List UInt8}
    (encoded : MessagePack.array MessagePack.natural tokens = some written) :
    written.length ≤ tokens.length * (width + 1) := by
  obtain ⟨header, body, isHeader, isBody, rfl⟩ := MessagePack.array_eq_some_iff.mp encoded
  have paid := (MessagePack.array_header_length isHeader).2 (List.length_pos_iff.mpr nonempty)
  have bodyBound : body.length ≤ (tokens.map (fun _ => width)).sum :=
    MessagePack.concat_length (fun token member written encoded =>
      (MessagePack.natural_length encoded).trans_le (narrow token member)) isBody
  rw [List.map_const', List.sum_replicate_nat] at bodyBound
  rw [List.length_append, Nat.mul_succ]
  omega

theorem key_length : "token_ids".toUTF8.toList.length = 9 := by decide +kernel

/-- The envelope of a request: a map header of one entry, and its key. -/
theorem encode_eq (request : ValueEvaluationRequest) : request.encode =
    (MessagePack.array (MessagePack.array MessagePack.natural) request.tokenIds).map
      ((0x81 : UInt8) :: 0xa9 :: "token_ids".toUTF8.toList ++ ·) := by
  have header : MessagePack.mapHeader 1 = some [0x81] := rfl
  have key : MessagePack.text "token_ids".toUTF8.toList =
      some (0xa9 :: "token_ids".toUTF8.toList) := by
    simp only [MessagePack.text, key_length]
    rfl
  rw [ValueEvaluationRequest.encode, header, key]
  cases MessagePack.array (MessagePack.array MessagePack.natural) request.tokenIds with
  | none => rfl
  | some value => rfl

/-- The parts of a written request. -/
theorem encode_eq_some {request : ValueEvaluationRequest} {payload : List UInt8}
    (encoded : request.encode = some payload) :
    ∃ header body, MessagePack.arrayHeader request.tokenIds.length = some header ∧
      MessagePack.concat (MessagePack.array MessagePack.natural) request.tokenIds = some body ∧
        payload.length = 11 + header.length + body.length := by
  rw [encode_eq] at encoded
  obtain ⟨value, isValue, rfl⟩ := Option.map_eq_some_iff.mp encoded
  obtain ⟨header, body, isHeader, isBody, rfl⟩ := MessagePack.array_eq_some_iff.mp isValue
  refine ⟨header, body, isHeader, isBody, ?_⟩
  simp only [List.cons_append, List.length_cons, List.length_append, key_length]
  omega

theorem body_length {service : ValueRequestService Scalar} {request : ValueEvaluationRequest}
    (valid : service.validate request = .ok ()) {body : List UInt8}
    (encoded : MessagePack.concat (MessagePack.array MessagePack.natural) request.tokenIds =
      some body) : body.length ≤ (request.tokenIds.map List.length).sum *
        (MessagePack.naturalWidth (service.vocabSize - 1) + 1) := by
  have bound : body.length ≤ (request.tokenIds.map (fun tokens =>
      tokens.length * (MessagePack.naturalWidth (service.vocabSize - 1) + 1))).sum := by
    refine MessagePack.concat_length (fun tokens member written isWritten => ?_) encoded
    obtain ⟨nonempty, known⟩ := validated valid tokens member
    refine sequence_length nonempty (fun token isToken => ?_) isWritten
    apply MessagePack.natural_width_mono
    have below := known token isToken
    omega
  exact bound.trans_eq (List.sum_map_mul_right request.tokenIds List.length _)

/-- An admissible request is within the limit of the body, and the limit and the encoding
exist whenever the token ids and the counts can be written at all. -/
theorem admissible_body_accepted (service : ValueRequestService Scalar)
    (request : ValueEvaluationRequest) (valid : service.validate request = .ok ())
    (bounded : (request.tokenIds.map List.length).sum ≤ service.config.maxPendingTokens) :
    (∀ limit payload, service.maxRequestBytes = some limit → request.encode = some payload →
      payload.length ≤ limit ∧ checkBody limit payload.length = .ok ()) ∧
    (service.vocabSize ≤ 2 ^ 64 → ∃ limit, service.maxRequestBytes = some limit) ∧
    (service.vocabSize ≤ 2 ^ 64 → request.tokenIds.length < 2 ^ 32 →
      (∀ tokens ∈ request.tokenIds, tokens.length < 2 ^ 32) →
        ∃ payload, request.encode = some payload) := by
  refine ⟨?_, ?_, ?_⟩
  · intro limit payload isLimit encoded
    obtain ⟨token, isToken, rfl⟩ := Option.map_eq_some_iff.mp isLimit
    obtain ⟨header, body, isHeader, isBody, size⟩ := encode_eq_some encoded
    have headerBound := (MessagePack.array_header_length isHeader).1
    have bodyBound := body_length valid isBody
    rw [← MessagePack.natural_length isToken] at bodyBound
    have scaled := Nat.mul_le_mul_right (token.length + 1) bounded
    have within : payload.length ≤
        max maxValueRequestBytes (64 + service.config.maxPendingTokens * (token.length + 1)) :=
      le_max_of_le_right (by omega)
    refine ⟨within, ?_⟩
    have positive : ¬ (payload.length : Int) ≤ 0 := by omega
    have small : ¬ (Nat.cast (max maxValueRequestBytes
        (64 + service.config.maxPendingTokens * (token.length + 1))) : Int) < payload.length :=
      Int.not_lt.mpr (Int.ofNat_le.mpr within)
    rw [checkBody, if_neg positive, if_neg small]
  · intro small
    obtain ⟨token, isToken⟩ : ∃ token, MessagePack.natural (service.vocabSize - 1) = some token :=
      MessagePack.natural_encodes (by omega)
    exact ⟨_, Option.map_eq_some_iff.mpr ⟨token, isToken, rfl⟩⟩
  · intro small few short
    obtain ⟨header, isHeader⟩ := MessagePack.array_header_encodes few
    obtain ⟨body, isBody⟩ : ∃ body, MessagePack.concat (MessagePack.array MessagePack.natural)
        request.tokenIds = some body := by
      apply MessagePack.concat_encodes
      intro tokens member
      obtain ⟨inner, isInner⟩ := MessagePack.array_header_encodes (short tokens member)
      obtain ⟨values, areValues⟩ := MessagePack.concat_encodes (fun token isToken =>
        MessagePack.natural_encodes (((validated valid tokens member).2 token isToken).trans_le small))
      exact ⟨_, MessagePack.array_eq_some_iff.mpr ⟨inner, values, isInner, areValues, rfl⟩⟩
    have value := MessagePack.array_eq_some_iff.mpr ⟨header, body, isHeader, isBody, rfl⟩
    exact ⟨_, by rw [encode_eq, value, Option.map_some]⟩

/-- A service over a vocabulary of 300 tokens that admits 5 tokens at a time. -/
def smallService : ValueRequestService Rat where
  config :=
    { maxBatchTokens := 4
      batchWaitMs := 0
      maxPendingRequests := 1
      maxPendingTokens := 5
      requestTimeout := 1
      batch_positive := by decide
      wait_nonnegative := by decide
      requests_positive := by decide
      tokens_positive := by decide
      timeout_positive := by decide }
  seqLen := 4
  vocabSize := 300
  version := some 0

/-- The same 5 tokens in sequences of one and of several tokens. -/
theorem admissible_body_accepted_two_splits :
    ((∀ limit payload, smallService.maxRequestBytes = some limit →
      (ValueEvaluationRequest.mk [[299], [0, 130], [5, 255]]).encode = some payload →
        payload.length ≤ limit ∧ checkBody limit payload.length = .ok ()) ∧
      (smallService.vocabSize ≤ 2 ^ 64 → ∃ limit, smallService.maxRequestBytes = some limit) ∧
      (smallService.vocabSize ≤ 2 ^ 64 → 3 < 2 ^ 32 →
        (∀ tokens ∈ [[299], [0, 130], [5, 255]], tokens.length < 2 ^ 32) →
          ∃ payload, (ValueEvaluationRequest.mk [[299], [0, 130], [5, 255]]).encode = some payload)) ∧
      (MessagePack.array (MessagePack.array MessagePack.natural) [[299], [0, 130], [5, 255]]).map
        List.length = some 13 :=
  ⟨admissible_body_accepted smallService ⟨[[299], [0, 130], [5, 255]]⟩ (by decide) (by decide),
    by decide⟩

end ValueRequestService

end PrimeRl.Value
