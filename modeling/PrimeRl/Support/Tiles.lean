import Mathlib.Data.List.FinRange

/-!
# Loops over tiles

A range is walked in strides of one size, the last of which may be short. Each
stride sees the entries from its start to its stop, so that what holds of the
entries done so far is carried from one stride to the next.
-/

namespace Tiles

universe u
variable {State : Type u}

/-- The starts of the strides over a range. -/
def starts (total size : Nat) : List Nat :=
  (List.range ((total + size - 1) / size)).map (· * size)

/-- The entries from a start up to a stop. -/
def slice (total start stop : Nat) : List (Fin total) :=
  ((List.finRange total).take stop).drop start

section
variable {total size : Nat} (positive : 0 < size)
include positive

/-- Every start is inside the range. -/
theorem starts_inside (count : Nat) (listed : count < (total + size - 1) / size) :
    count * size < total := by
  have product := (Nat.le_div_iff_mul_le positive).mp (Nat.succ_le_of_lt listed)
  rw [Nat.succ_mul] at product
  omega

/-- The strides reach the end of the range. -/
theorem strides_reach : total ≤ (total + size - 1) / size * size := by
  have whole := Nat.div_add_mod (total + size - 1) size
  have rest := Nat.mod_lt (total + size - 1) positive
  rw [Nat.mul_comm] at whole
  omega

/-- What each stride carries from its start to its stop holds at the end of the range. -/
theorem carried {Holds : Nat → State → Prop} {step : State → Nat → State} {initial : State}
    (base : Holds 0 initial)
    (next : ∀ start state, start < total → Holds start state →
      Holds (min (start + size) total) (step state start)) :
    Holds total ((starts total size).foldl step initial) := by
  have upto : ∀ count ≤ (total + size - 1) / size,
      Holds (min (count * size) total)
        (((List.range count).map (· * size)).foldl step initial) := by
    intro count within
    induction count with
    | zero => simpa using base
    | succ count inductionHypothesis =>
      have inside := starts_inside positive count within
      have reached := inductionHypothesis (Nat.le_of_succ_le within)
      rw [Nat.min_eq_left (Nat.le_of_lt inside)] at reached
      rw [List.range_succ, List.map_append, List.foldl_append, Nat.succ_mul]
      exact next (count * size) _ inside reached
  have done := upto _ (Nat.le_refl _)
  rw [Nat.min_eq_right (strides_reach positive)] at done
  exact done

end

section
variable {total : Nat}

theorem slice_all : slice total 0 total = List.finRange total := by
  have whole : (List.finRange total).take total = List.finRange total :=
    List.take_of_length_le (by simp)
  rw [slice, List.drop_zero, whole]

theorem slice_none (start : Nat) : slice total start start = [] := by
  rw [slice, List.drop_eq_nil_iff]
  simp

/-- The entries up to a start and those of its stride are the entries up to its stop. -/
theorem slice_append {start stop : Nat} (ordered : start ≤ stop) :
    slice total 0 start ++ slice total start stop = slice total 0 stop := by
  have shorter : (List.finRange total).take start =
      ((List.finRange total).take stop).take start := by
    rw [List.take_take, Nat.min_eq_left ordered]
  rw [slice, slice, slice, List.drop_zero, List.drop_zero, shorter, List.take_append_drop]

theorem mem_slice {start stop : Nat} {entry : Fin total} :
    entry ∈ slice total start stop ↔ start ≤ entry.val ∧ entry.val < stop := by
  rw [slice, List.mem_drop_iff_getElem]
  constructor
  · rintro ⟨inner, bound, rfl⟩
    rw [List.length_take] at bound
    simp only [List.getElem_take, List.getElem_finRange, Fin.val_cast]
    omega
  · rintro ⟨above, below⟩
    refine ⟨entry.val - start, ?_, ?_⟩
    · rw [List.length_take, List.length_finRange]
      omega
    · have place : start + (entry.val - start) = entry.val := by omega
      ext
      simp [List.getElem_take, place]

/-- An entry is found in its stride behind the start. -/
theorem slice_at {start stop : Nat} (entry : Fin total) (above : start ≤ entry.val)
    (below : entry.val < stop) : (slice total start stop)[entry.val - start]? = some entry := by
  have place : start + (entry.val - start) = entry.val := by omega
  rw [slice, List.getElem?_drop, place, List.getElem?_take_of_lt below,
    List.getElem?_eq_getElem (by simp)]
  simp

end

end Tiles
