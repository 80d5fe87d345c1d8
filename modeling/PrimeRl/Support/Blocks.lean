import Mathlib.Data.List.Basic

/-!
# Consecutive blocks of a growing stream

A stream is cut into full blocks from its start, with a remainder that is not
cut yet. Arrivals lengthen the remainder, and a remainder of exactly one width
may be closed into the next block. Where a block lies in the stream is then
decided by its number alone.
-/

namespace Blocks

universe u
variable {Item : Type u}

/-- Full blocks of one width, in order, followed by what is not cut yet. -/
structure Cut (width : Nat) (stream : List Item) (blocks : List (List Item))
    (rest : List Item) : Prop where
  assembled : stream = blocks.flatten ++ rest
  full : ∀ block ∈ blocks, block.length = width

theorem cut_nil (width : Nat) : Cut width ([] : List Item) [] [] where
  assembled := rfl
  full := fun _ impossible => absurd impossible List.not_mem_nil

/-- Arrivals go behind the remainder. -/
theorem Cut.extend {width : Nat} {stream rest : List Item} {blocks : List (List Item)}
    (cut : Cut width stream blocks rest) (arrivals : List Item) :
    Cut width (stream ++ arrivals) blocks (rest ++ arrivals) where
  assembled := by rw [cut.assembled, List.append_assoc]
  full := cut.full

/-- A remainder of one width becomes the last block. -/
theorem Cut.close {width : Nat} {stream rest : List Item} {blocks : List (List Item)}
    (cut : Cut width stream blocks rest) (whole : rest.length = width) :
    Cut width stream (blocks ++ [rest]) [] where
  assembled := by
    rw [cut.assembled, List.flatten_append, List.flatten_singleton, List.append_nil]
  full := by
    intro block member
    rcases List.mem_append.mp member with earlier | last
    · exact cut.full block earlier
    · obtain rfl := List.mem_singleton.mp last
      exact whole

/-- Blocks and remainder make up the length. -/
theorem Cut.length {width : Nat} {stream rest : List Item} {blocks : List (List Item)}
    (cut : Cut width stream blocks rest) :
    stream.length = width * blocks.length + rest.length := by
  have widths : blocks.map List.length = List.replicate blocks.length width := by
    rw [List.eq_replicate_iff]
    refine ⟨List.length_map _, ?_⟩
    intro length listed
    obtain ⟨block, member, rfl⟩ := List.mem_map.mp listed
    exact cut.full block member
  rw [cut.assembled, List.length_append, List.length_flatten, widths, List.sum_replicate_nat,
    Nat.mul_comm]

/-- Below a width of remainder, number of blocks and remainder are those of a division. -/
theorem Cut.counts {width : Nat} {stream rest : List Item} {blocks : List (List Item)}
    (cut : Cut width stream blocks rest) (short : rest.length < width) :
    blocks.length = stream.length / width ∧ rest.length = stream.length % width := by
  have positive : 0 < width := Nat.zero_lt_of_lt short
  rw [cut.length]
  constructor
  · rw [Nat.mul_add_div positive, Nat.div_eq_of_lt short, Nat.add_zero]
  · rw [Nat.mul_add_mod, Nat.mod_eq_of_lt short]

/-- Block `index` is the stream from `index * width` on, one width long. -/
theorem Cut.block_at {width : Nat} {stream rest : List Item} {blocks : List (List Item)}
    (cut : Cut width stream blocks rest) (index : Nat) (block : List Item)
    (found : blocks[index]? = some block) :
    index * width + width ≤ stream.length ∧
      block = (stream.drop (index * width)).take width := by
  obtain ⟨assembled, full⟩ := cut
  induction blocks generalizing stream index with
  | nil => simp at found
  | cons first others inductionHypothesis =>
    have firstFull : first.length = width := full first List.mem_cons_self
    have othersFull : ∀ other ∈ others, other.length = width :=
      fun other member => full other (List.mem_cons_of_mem first member)
    rw [List.flatten_cons, List.append_assoc] at assembled
    cases index with
    | zero =>
      simp only [List.getElem?_cons_zero, Option.some.injEq] at found
      subst found
      constructor
      · rw [assembled, List.length_append]
        omega
      · rw [assembled, Nat.zero_mul, List.drop_zero, ← firstFull, List.take_left]
    | succ earlier =>
      rw [List.getElem?_cons_succ] at found
      obtain ⟨inside, same⟩ := inductionHypothesis earlier found rfl othersFull
      have skipped : stream.drop ((earlier + 1) * width) =
          (others.flatten ++ rest).drop (earlier * width) := by
        have sum : (earlier + 1) * width = first.length + earlier * width := by
          rw [firstFull, Nat.add_mul, Nat.one_mul, Nat.add_comm]
        rw [assembled, sum, ← List.drop_drop, List.drop_left]
      constructor
      · have sum : (earlier + 1) * width = earlier * width + width := Nat.succ_mul _ _
        rw [assembled, List.length_append]
        omega
      · rw [skipped]
        exact same

end Blocks
