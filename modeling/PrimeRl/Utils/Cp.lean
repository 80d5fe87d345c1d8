import Mathlib.Data.List.Basic

/-!
# Shards of a row under context parallelism

A row of tokens is cut into contiguous chunks of one size, of which only the last may
be shorter, and every rank keeps its own.
-/

namespace PrimeRl.Utils.Cp

universe u
variable {α : Type u}

/-- The length of the chunks of a row. -/
def chunkLength (total cpWorldSize : Nat) : Nat := (total + cpWorldSize - 1) / cpWorldSize

/-- The chunk of a rank, where the row has so many. -/
def shardForCp (row : List α) (cpRank cpWorldSize : Nat) : Option (List α) :=
  let chunk := chunkLength row.length cpWorldSize
  if cpRank * chunk < row.length then some ((row.drop (cpRank * chunk)).take chunk) else none

/-- A row that divides evenly has chunks of the quotient. -/
theorem chunk_length_of_dvd {total cpWorldSize : Nat} (positive : 0 < cpWorldSize)
    (divides : cpWorldSize ∣ total) : chunkLength total cpWorldSize = total / cpWorldSize := by
  obtain ⟨chunk, rfl⟩ := divides
  rw [chunkLength, Nat.mul_div_cancel_left chunk positive]
  apply Nat.div_eq_of_lt_le
  · rw [Nat.mul_comm chunk]
    omega
  · rw [Nat.succ_mul, Nat.mul_comm chunk]
    omega

/-- Every rank has a chunk of an even, nonempty row. -/
theorem shard_for_cp_of_dvd {row : List α} {cpRank cpWorldSize : Nat} (nonempty : 0 < row.length)
    (divides : cpWorldSize ∣ row.length) (rank : cpRank < cpWorldSize) :
    shardForCp row cpRank cpWorldSize = some
      ((row.drop (cpRank * (row.length / cpWorldSize))).take (row.length / cpWorldSize)) := by
  have positive : 0 < cpWorldSize := Nat.zero_lt_of_lt rank
  have chunk : 0 < row.length / cpWorldSize :=
    Nat.div_pos (Nat.le_of_dvd nonempty divides) positive
  have inside : cpRank * (row.length / cpWorldSize) < row.length :=
    calc cpRank * (row.length / cpWorldSize) < cpWorldSize * (row.length / cpWorldSize) :=
          Nat.mul_lt_mul_of_pos_right rank chunk
      _ = row.length := Nat.mul_div_cancel' divides
  simp only [shardForCp, chunk_length_of_dvd positive divides]
  exact if_pos inside

end PrimeRl.Utils.Cp
