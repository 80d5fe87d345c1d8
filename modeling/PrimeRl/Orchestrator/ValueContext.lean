import Mathlib.Data.List.Basic

/-!
# Critic-only context

A prefix is inserted into every branch of a rollout behind an optional leading
token. Streams aligned with the conditioned sequence are projected back, and
streams aligned with the original sequence are lifted.
-/

namespace PrimeRl.Orchestrator.ValueContext

universe u
variable {Entry : Type u}

/-- Tokens inserted at one stable position in every branch of a rollout. -/
structure TokenPrefix where
  tokenIds : List Nat
  insertAt : Nat
  position : insertAt = 0 ∨ insertAt = 1
deriving DecidableEq

/-- Only the first two positions can take a prefix. -/
def TokenPrefix.make (tokenIds : List Nat) (insertAt : Nat) : Except String TokenPrefix :=
  if position : insertAt = 0 ∨ insertAt = 1 then .ok ⟨tokenIds, insertAt, position⟩
  else .error s!"prefix insertion position must be 0 or 1, got {insertAt}"

namespace TokenPrefix

/-- The conditioned sequence. -/
def apply (inserted : TokenPrefix) (tokenIds : List Nat) : Except String (List Nat) :=
  if tokenIds.length < inserted.insertAt then
    .error s!"prefix insertion position {inserted.insertAt} exceeds sequence length {tokenIds.length}"
  else .ok (tokenIds.take inserted.insertAt ++ inserted.tokenIds ++ tokenIds.drop inserted.insertAt)

/-- Drop the entries of the prefix. -/
def project (inserted : TokenPrefix) (values : List Entry) : Except String (List Entry) :=
  let stop := inserted.insertAt + inserted.tokenIds.length
  if values.length < stop then
    .error s!"prefixed span [{inserted.insertAt}, {stop}) exceeds sequence length {values.length}"
  else .ok (values.take inserted.insertAt ++ values.drop stop)

/-- Fill the positions of the prefix. -/
def lift (inserted : TokenPrefix) (values : List Entry) (fill : Entry) : Except String (List Entry) :=
  if values.length < inserted.insertAt then
    .error s!"prefix insertion position {inserted.insertAt} exceeds sequence length {values.length}"
  else
    .ok (values.take inserted.insertAt ++ List.replicate inserted.tokenIds.length fill ++
      values.drop inserted.insertAt)

/-- Where an original position lies in the conditioned sequence. -/
def image (inserted : TokenPrefix) (position : Nat) : Nat :=
  if position < inserted.insertAt then position else position + inserted.tokenIds.length

/-- The conditioned sequence is longer by the prefix. -/
theorem apply_length (inserted : TokenPrefix) (tokenIds conditioned : List Nat)
    (accepted : inserted.apply tokenIds = .ok conditioned) :
    conditioned.length = tokenIds.length + inserted.tokenIds.length := by
  rw [apply] at accepted
  by_cases short : tokenIds.length < inserted.insertAt
  · rw [if_pos short] at accepted
    exact absurd accepted nofun
  · rw [if_neg short] at accepted
    cases accepted
    simp only [List.length_append, List.length_take, List.length_drop]
    omega

/-- Sequences of at least one token accept every prefix. -/
theorem apply_ok (inserted : TokenPrefix) (tokenIds : List Nat) (filled : 1 ≤ tokenIds.length) :
    ∃ conditioned, inserted.apply tokenIds = .ok conditioned := by
  have room : ¬ tokenIds.length < inserted.insertAt := by
    rcases inserted.position with first | second
    · omega
    · omega
  exact ⟨_, by rw [apply, if_neg room]⟩

theorem project_length (inserted : TokenPrefix) (values projected : List Entry)
    (accepted : inserted.project values = .ok projected) :
    projected.length + inserted.tokenIds.length = values.length := by
  rw [project] at accepted
  by_cases short : values.length < inserted.insertAt + inserted.tokenIds.length
  · rw [if_pos short] at accepted
    exact absurd accepted nofun
  · rw [if_neg short] at accepted
    cases accepted
    simp only [List.length_append, List.length_take, List.length_drop]
    omega

/-- Projection reads the original positions at their images. -/
theorem project_ok (inserted : TokenPrefix) (values : List Entry) (length : Nat)
    (filled : 1 ≤ length) (width : values.length = length + inserted.tokenIds.length) :
    ∃ projected, inserted.project values = .ok projected ∧ projected.length = length ∧
      ∀ position : Nat, projected[position]? = values[inserted.image position]? := by
  have start : inserted.insertAt ≤ 1 := by
    rcases inserted.position with first | second
    · omega
    · omega
  have room : ¬ values.length < inserted.insertAt + inserted.tokenIds.length := by omega
  refine ⟨_, by rw [project, if_neg room], ?_, ?_⟩
  · simp only [List.length_append, List.length_take, List.length_drop]
    omega
  · intro position
    have taken : (values.take inserted.insertAt).length = inserted.insertAt := by
      rw [List.length_take]
      omega
    by_cases before : position < inserted.insertAt
    · rw [List.getElem?_append_left (by omega), List.getElem?_take, if_pos before, image,
        if_pos before]
    · rw [List.getElem?_append_right (by omega), taken, List.getElem?_drop, image, if_neg before]
      congr 1
      omega

/-- Lifting keeps every entry at its image and fills the prefix. -/
theorem lift_ok (inserted : TokenPrefix) (values : List Entry) (fill : Entry)
    (filled : 1 ≤ values.length) :
    ∃ lifted, inserted.lift values fill = .ok lifted ∧
      lifted.length = values.length + inserted.tokenIds.length ∧
      (∀ position : Nat, lifted[inserted.image position]? = values[position]?) ∧
      ∀ position, inserted.insertAt ≤ position →
        position < inserted.insertAt + inserted.tokenIds.length → lifted[position]? = some fill := by
  have start : inserted.insertAt ≤ 1 := by
    rcases inserted.position with first | second
    · omega
    · omega
  have room : ¬ values.length < inserted.insertAt := by omega
  have taken : (values.take inserted.insertAt).length = inserted.insertAt := by
    rw [List.length_take]
    omega
  refine ⟨_, by rw [lift, if_neg room], ?_, ?_, ?_⟩
  · simp only [List.length_append, List.length_take, List.length_drop, List.length_replicate]
    omega
  · intro position
    by_cases before : position < inserted.insertAt
    · rw [image, if_pos before, List.append_assoc, List.getElem?_append_left (by omega),
        List.getElem?_take, if_pos before]
    · rw [image, if_neg before, List.getElem?_append_right
        (by rw [List.length_append, List.length_replicate]; omega), List.length_append,
        List.length_replicate, taken, List.getElem?_drop]
      congr 1
      omega
  · intro position after inside
    rw [List.append_assoc, List.getElem?_append_right (by omega), taken,
      List.getElem?_append_left (by rw [List.length_replicate]; omega), List.getElem?_replicate,
      if_pos (by omega)]

end TokenPrefix

end PrimeRl.Orchestrator.ValueContext
