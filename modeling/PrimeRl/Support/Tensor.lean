import Mathlib.Algebra.BigOperators.Group.List.Basic
import PrimeRl.Support.Blocks

/-!
# Row-major tensors

A tensor lists its values row by row and carries a proof that they fill its
shape. The rows are the slices along the first dimension. Gathering builds the
tensor whose rows are chosen rows of another one, and the only thing to know
about it is which row stands where.
-/

universe u

/-- Values in row-major order, exactly as many as the shape asks for. -/
structure Tensor (Value : Type u) where
  shape : List Nat
  data : List Value
  sized : data.length = shape.prod
deriving DecidableEq

namespace Tensor

variable {Value : Type u}

/-- A tensor of one dimension. -/
def vector (values : List Value) : Tensor Value := ⟨[values.length], values, by simp⟩

/-- A batch of one row. -/
def single (values : List Value) : Tensor Value := ⟨[1, values.length], values, by simp⟩

/-- Values in one slice along the first dimension. -/
def rowSize (tensor : Tensor Value) : Nat := tensor.shape.tail.prod

/-- The slice at one index of the first dimension. -/
def row (tensor : Tensor Value) (index : Nat) : List Value :=
  (tensor.data.drop (index * tensor.rowSize)).take tensor.rowSize

/-- A slice inside the first dimension is whole. -/
theorem row_length (tensor : Tensor Value) (count index : Nat)
    (counted : tensor.shape.head? = some count) (inside : index < count) :
    (tensor.row index).length = tensor.rowSize := by
  obtain ⟨tail, listed⟩ : ∃ tail, tensor.shape = count :: tail :=
    List.head?_eq_some_iff.mp counted
  have sized : tensor.data.length = count * tensor.rowSize := by
    rw [tensor.sized, rowSize, listed, List.tail_cons, List.prod_cons]
  have enough : index * tensor.rowSize + tensor.rowSize ≤ count * tensor.rowSize := by
    rw [← Nat.succ_mul]
    exact Nat.mul_le_mul_right _ inside
  simp only [row, List.length_take, List.length_drop]
  omega

theorem single_row (values : List Value) : (single values).row 0 = values := by
  simp [row, rowSize, single]

/-- The chosen rows, one after the other. -/
def gatherRows (tensor : Tensor Value) (indices : List Nat) : List Value :=
  indices.flatMap tensor.row

/-- `tensor[indices]`: without a first dimension, or with an index outside it, there is none. -/
def gather (tensor : Tensor Value) (indices : List Nat) : Option (Tensor Value) :=
  match counted : tensor.shape.head? with
  | none => none
  | some count =>
    if inside : ∀ index ∈ indices, index < count then
      some
        { shape := indices.length :: tensor.shape.tail
          data := tensor.gatherRows indices
          sized := by
            have each : ∀ index ∈ indices, (tensor.row index).length = tensor.rowSize :=
              fun index member => tensor.row_length count index counted (inside index member)
            rw [gatherRows, List.length_flatMap, List.map_congr_left each, List.map_const',
              List.sum_replicate, List.prod_cons, Nat.nsmul_eq_mul, rowSize] }
    else none

theorem gather_shape {tensor gathered : Tensor Value} {indices : List Nat}
    (found : tensor.gather indices = some gathered) :
    gathered.shape = indices.length :: tensor.shape.tail := by
  unfold gather at found
  split at found
  · cases found
  · split at found
    · cases found
      rfl
    · cases found

/-- Row `place` of the gathered tensor is the row that was chosen for it. -/
theorem gather_row {tensor gathered : Tensor Value} {indices : List Nat}
    (found : tensor.gather indices = some gathered) (place index : Nat)
    (chosen : indices[place]? = some index) :
    gathered.row place = tensor.row index := by
  unfold gather at found
  split at found
  · cases found
  · rename_i count counted
    split at found
    · rename_i inside
      cases found
      have blocks : Blocks.Cut tensor.rowSize (tensor.gatherRows indices)
          (indices.map tensor.row) [] :=
        { assembled := by rw [gatherRows, List.flatMap_def, List.append_nil]
          full := by
            intro block member
            obtain ⟨other, listed, rfl⟩ := List.mem_map.mp member
            exact tensor.row_length count other counted (inside other listed) }
      have block := blocks.block_at place (tensor.row index) (by simp [chosen])
      exact block.2.symm
    · cases found

end Tensor
