import Mathlib.Algebra.BigOperators.Fin
import Mathlib.Algebra.Field.Defs
import Mathlib.Algebra.Ring.Int.Defs
import Mathlib.Algebra.Ring.Nat
import PrimeRl.Utils.Sequence

/-!
# Aligning value logits with actions

Token `t` of a sequence is scored by the state before it. On a packed row this
is one rotation followed by overwriting the first position of every sequence,
so that neither the previous sequence nor the end of the row is read there. The
overwritten entry is a product with zero, which is zero in exact arithmetic.
-/

namespace PrimeRl.Value.Math

open PrimeRl.Utils.Sequence

universe u
variable {Scalar : Type u} {outputSize : Nat}

/-- `roll(1)` on the token axis: the last entry moves to the front. -/
def roll {Entry : Type u} (row : List Entry) : List Entry := row.getLast?.toList ++ row.dropLast

/-- First positions of consecutive sequences. -/
def starts (sequenceLengths : List Nat) : List Nat := (accumulate sequenceLengths).dropLast

/-- `index_copy`: write each value at its position, in order. -/
def indexCopy {Entry : Type u} (row : List Entry) (positions : List Nat) (values : List Entry) :
    List Entry :=
  (positions.zip values).foldl (fun copied entry => copied.set entry.1 entry.2) row

/-- Read action `t` from state `t-1` without crossing packed boundaries. The
batch axis has size one, so a row is the list of its token logits. -/
def alignValueLogits [Mul Scalar] [Zero Scalar] (logits : List (Fin outputSize → Scalar))
    (sequenceLengths : List Nat) : Except String (List (Fin outputSize → Scalar)) :=
  if sequenceLengths.sum ≠ logits.length then
    .error s!"sequence_lengths sum {sequenceLengths.sum} does not match packed length {logits.length}"
  else if (starts sequenceLengths).any (fun start => decide (logits.length ≤ start)) then
    .error "index out of range in self"
  else
    let boundaryValues := (starts sequenceLengths).filterMap
      (fun start => (logits[start]?).map (fun entry output => entry output * 0))
    .ok (indexCopy (roll logits) (starts sequenceLengths) boundaryValues)

/-- The configured value loss, which fixes the width of the value head. -/
inductive ValueLossConfig (Scalar : Type u) where
  | mse
  | classification (low high : Scalar) (numBins : Nat)

/-- Number of logits the value head produces for a token. -/
def valueHeadOutputSize : ValueLossConfig Scalar → Nat
  | .mse => 1
  | .classification _ _ numBins => numBins

/-- `linspace`: uniformly spaced support points with both endpoints. -/
def support [Field Scalar] (low high : Scalar) (numBins : Nat) (bin : Fin numBins) : Scalar :=
  low + (high - low) / ((numBins - 1 : Nat) : Scalar) * ((bin : Nat) : Scalar)

/-- The value a token's logits predict: the logit itself, or the expectation of
the categorical distribution over the support. -/
def predictValues [Field Scalar] (exponential : Scalar → Scalar) :
    (config : ValueLossConfig Scalar) → (Fin (valueHeadOutputSize config) → Scalar) → Scalar
  | .mse, logit => logit (0 : Fin 1)
  | .classification low high numBins, logit =>
      ∑ bin, exponential (logit bin) / (∑ other, exponential (logit other)) *
        support low high numBins bin

/-! ## Alignment acts on every sequence separately -/

/-- Starts counted from a position inside a longer row. -/
def startsFrom (position : Nat) (sequenceLengths : List Nat) : List Nat :=
  (sequenceLengths.scanl (· + ·) position).dropLast

theorem starts_from_cons (position length : Nat) (rest : List Nat) :
    startsFrom position (length :: rest) = position :: startsFrom (position + length) rest := by
  cases rest with
  | nil => rfl
  | cons next later => simp only [startsFrom, List.scanl_cons, List.dropLast_cons_cons]

/-- The entries at the starts are the first entries of the sequences. -/
theorem starts_read {Entry : Type u} (before : List Entry) (sequences : List (List Entry))
    (nonempty : ∀ sequence ∈ sequences, sequence ≠ []) :
    (startsFrom before.length (sequences.map List.length)).filterMap
        (fun start => (before ++ sequences.flatten)[start]?) =
      sequences.filterMap List.head? ∧
      ∀ start ∈ startsFrom before.length (sequences.map List.length),
        start < (before ++ sequences.flatten).length := by
  induction sequences generalizing before with
  | nil => exact ⟨rfl, fun start impossible => absurd impossible List.not_mem_nil⟩
  | cons sequence rest inductionHypothesis =>
    obtain ⟨first, tail, rfl⟩ := List.exists_cons_of_ne_nil (nonempty sequence List.mem_cons_self)
    obtain ⟨restRead, restInside⟩ := inductionHypothesis (before ++ first :: tail)
      (fun other member => nonempty other (List.mem_cons_of_mem _ member))
    rw [List.length_append] at restRead restInside
    have sameRow : before ++ ((first :: tail) :: rest).flatten =
        (before ++ first :: tail) ++ rest.flatten := by
      rw [List.flatten_cons, List.append_assoc]
    rw [List.map_cons, starts_from_cons, sameRow]
    refine ⟨?_, ?_⟩
    · have readFirst : (before ++ first :: tail ++ rest.flatten)[before.length]? = some first := by
        simp
      rw [List.filterMap_cons, readFirst, restRead]
      rfl
    · intro start member
      rcases List.mem_cons.mp member with rfl | later
      · simp only [List.length_append, List.length_cons]
        omega
      · exact restInside start later

/-- One sequence shifted by one action, with a given entry at its first position. -/
def alignSequence {Entry : Type u} (boundary : Entry → Entry) : List Entry → List Entry
  | [] => []
  | first :: tail => boundary first :: (first :: tail).dropLast

/-- Overwriting the starts of a rotated row shifts every sequence separately.
The induction carries the part of the row already aligned and the entry that the
rotation moved in front of the remaining sequences. -/
theorem index_copy_sequences {Entry : Type u} (boundary : Entry → Entry) (aligned : List Entry)
    (carried : Entry) (sequences : List (List Entry))
    (nonempty : ∀ sequence ∈ sequences, sequence ≠ []) :
    indexCopy (aligned ++ (carried :: sequences.flatten).dropLast)
        (startsFrom aligned.length (sequences.map List.length))
        ((sequences.filterMap List.head?).map boundary) =
      aligned ++ sequences.flatMap (alignSequence boundary) := by
  induction sequences generalizing aligned carried with
  | nil => simp [indexCopy]
  | cons sequence rest inductionHypothesis =>
    obtain ⟨first, tail, rfl⟩ := List.exists_cons_of_ne_nil (nonempty sequence List.mem_cons_self)
    have restNonempty : ∀ other ∈ rest, other ≠ [] :=
      fun other member => nonempty other (List.mem_cons_of_mem _ member)
    have alignedWidth : (aligned ++ alignSequence boundary (first :: tail)).length =
        aligned.length + (first :: tail).length := by
      simp [alignSequence]
    have next := inductionHypothesis (aligned ++ alignSequence boundary (first :: tail))
      ((first :: tail).getLast (List.cons_ne_nil _ _)) restNonempty
    rw [alignedWidth] at next
    have shifted : (first :: tail).dropLast ++
        ((first :: tail).getLast (List.cons_ne_nil _ _) :: rest.flatten).dropLast =
        (first :: tail ++ rest.flatten).dropLast := by
      conv_rhs => rw [← List.dropLast_append_getLast (List.cons_ne_nil first tail)]
      rw [List.append_assoc, List.singleton_append,
        List.dropLast_append_of_ne_nil (List.cons_ne_nil _ _)]
    have written : (aligned ++ (carried :: (first :: tail ++ rest.flatten)).dropLast).set
        aligned.length (boundary first) =
        (aligned ++ alignSequence boundary (first :: tail)) ++
          ((first :: tail).getLast (List.cons_ne_nil _ _) :: rest.flatten).dropLast := by
      rw [List.cons_append, List.dropLast_cons_cons, List.set_append_right _ _ (Nat.le_refl _),
        Nat.sub_self, List.set_cons_zero, ← List.cons_append, ← shifted, alignSequence,
        List.append_assoc, List.cons_append]
    have heads : ((first :: tail) :: rest).filterMap List.head? =
        first :: rest.filterMap List.head? := rfl
    rw [List.map_cons, starts_from_cons, heads, List.map_cons, List.flatten_cons, indexCopy,
      List.zip_cons_cons, List.foldl_cons, written]
    exact next.trans (by rw [List.flatMap_cons, List.append_assoc])

/-- On a row of nonempty sequences alignment is accepted, shifts each sequence by
one and starts it from zero logits. -/
theorem align_sequences [MulZeroClass Scalar] (sequences : List (List (Fin outputSize → Scalar)))
    (nonempty : ∀ sequence ∈ sequences, sequence ≠ []) :
    alignValueLogits sequences.flatten (sequences.map List.length) =
      .ok (sequences.flatMap (alignSequence (fun _ => 0))) := by
  obtain ⟨read, inside⟩ := starts_read [] sequences nonempty
  simp only [List.nil_append, List.length_nil] at read inside
  have noOverflow : (starts (sequences.map List.length)).any
      (fun start => decide (sequences.flatten.length ≤ start)) = false := by
    rw [List.any_eq_false]
    intro start member
    have below := inside start member
    simp only [decide_eq_true_eq]
    omega
  have boundaries : (starts (sequences.map List.length)).filterMap
      (fun start => (sequences.flatten[start]?).map
        (fun (entry : Fin outputSize → Scalar) output => entry output * 0)) =
      (sequences.filterMap List.head?).map (fun _ => 0) := by
    rw [← read, List.map_filterMap]
    apply List.filterMap_congr
    intro start _
    congr 1
    funext entry output
    exact mul_zero _
  have sums : (sequences.map List.length).sum = sequences.flatten.length := by
    rw [List.length_flatten]
  simp only [alignValueLogits, sums, ne_eq, not_true_eq_false, noOverflow, Bool.false_eq_true,
    if_false, boundaries]
  congr 1
  cases filled : sequences.flatten.getLast? with
  | none =>
    have empty : sequences = [] := by
      cases sequences with
      | nil => rfl
      | cons sequence rest =>
        rw [List.getLast?_eq_none_iff, List.flatten_cons, List.append_eq_nil_iff] at filled
        exact absurd filled.1 (nonempty sequence List.mem_cons_self)
    subst empty
    rfl
  | some last =>
    have rotated : roll sequences.flatten = (last :: sequences.flatten).dropLast := by
      have filledRow : sequences.flatten ≠ [] := by
        intro empty
        simp [empty] at filled
      obtain ⟨first, tail, listed⟩ := List.exists_cons_of_ne_nil filledRow
      simp only [roll, filled, Option.toList_some, List.singleton_append]
      rw [listed, List.dropLast_cons_cons]
    rw [rotated]
    exact index_copy_sequences (fun _ => 0) [] last sequences nonempty

end PrimeRl.Value.Math
