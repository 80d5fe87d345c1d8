import Mathlib.Data.List.GetD
import Mathlib.Data.List.Range
import Mathlib.Data.List.Sort

/-!
# Sorting positions by value

`argsort` lists the positions of a list so that reading the values in that
order gives them sorted. When the values are `0, ..., n - 1` in some order, the
position listed at `k` therefore holds `k`: sorting the positions inverts the
placement.
-/

namespace Argsort

/-- Reading every position gives the values. -/
theorem range_getD {Value : Type} (values : List Value) (other : Value) :
    (List.range values.length).map (fun place => values.getD place other) = values := by
  apply List.ext_getElem
  · rw [List.length_map, List.length_range]
  · intro place _ inside
    rw [List.getElem_map, List.getElem_range, List.getD_eq_getElem _ _ inside]

/-- Positions in the order of their values; equal values keep their order. -/
def argsort (values : List Int) : List Nat :=
  (List.range values.length).insertionSort
    (fun first second => values.getD first 0 ≤ values.getD second 0)

theorem argsort_perm (values : List Int) :
    (argsort values).Perm (List.range values.length) :=
  List.perm_insertionSort _ _

/-- The values, read in the order of the sorted positions. -/
def inOrder (values : List Int) : List Int :=
  (argsort values).map (fun place => values.getD place 0)

theorem in_order_perm (values : List Int) : (inOrder values).Perm values := by
  have reordered := (argsort_perm values).map (fun place => values.getD place 0)
  rw [range_getD] at reordered
  exact reordered

theorem in_order_sorted (values : List Int) : (inOrder values).Pairwise (· ≤ ·) := by
  apply List.pairwise_map.mpr
  exact List.pairwise_insertionSort
    (fun first second : Nat => values.getD first 0 ≤ values.getD second 0) _

/-- A placement onto `0, ..., n - 1` is read back in order. -/
theorem in_order_eq_range (values : List Int) (count : Nat)
    (placed : values.Perm ((List.range count).map Int.ofNat)) :
    inOrder values = (List.range count).map Int.ofNat := by
  have sorted : ((List.range count).map Int.ofNat).Pairwise (· ≤ ·) := by
    apply List.pairwise_map.mpr
    refine List.pairwise_lt_range.imp ?_
    intro first second before
    exact Int.ofNat_le.mpr (Nat.le_of_lt before)
  exact ((in_order_perm values).trans placed).eq_of_pairwise' (in_order_sorted values) sorted

end Argsort
