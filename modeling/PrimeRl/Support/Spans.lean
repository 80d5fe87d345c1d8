import Mathlib.Data.List.Basic

/-!
# Blocks with gaps between them

A sequence of blocks, each after a gap of its own, occupies spans of positions. A
limit is moved back to the last point that is not strictly inside a block, and
the blocks that end by that point are the first ones.
-/

namespace Spans

universe u
variable {Item : Type u}

/-- The start and the end of each block, given its gap and its width. -/
def bounds : Nat → List (Nat × Nat) → List (Nat × Nat)
  | _, [] => []
  | position, (gap, width) :: rest =>
      (position + gap, position + gap + width) :: bounds (position + gap + width) rest

/-- A point that is not strictly inside a span. -/
def Clear (spans : List (Nat × Nat)) (point : Nat) : Prop :=
  ∀ span ∈ spans, ¬ (span.1 < point ∧ point < span.2)

/-- The number of blocks before a limit, and the last clear point up to it. -/
def cutAt : Nat → List (Nat × Nat) → Nat × Nat
  | limit, [] => (0, limit)
  | limit, (gap, width) :: rest =>
      if limit < gap + width then (0, min limit gap)
      else
        let (kept, cut) := cutAt (limit - (gap + width)) rest
        (kept + 1, gap + width + cut)

variable (limit gap width : Nat) (rest blocks : List (Nat × Nat))

theorem cutAt_split (inside : limit < gap + width) :
    cutAt limit ((gap, width) :: rest) = (0, min limit gap) := if_pos inside

theorem cutAt_whole (past : gap + width ≤ limit) :
    cutAt limit ((gap, width) :: rest) =
      ((cutAt (limit - (gap + width)) rest).1 + 1,
        gap + width + (cutAt (limit - (gap + width)) rest).2) := if_neg (Nat.not_lt.mpr past)

theorem cut_le : (cutAt limit blocks).2 ≤ limit := by
  induction blocks generalizing limit with
  | nil => exact Nat.le_refl limit
  | cons block rest inductionHypothesis =>
    obtain ⟨gap, width⟩ := block
    rcases Nat.lt_or_ge limit (gap + width) with inside | past
    · rw [cutAt_split limit gap width rest inside]
      exact Nat.min_le_left limit gap
    · rw [cutAt_whole limit gap width rest past]
      have within := inductionHypothesis (limit - (gap + width))
      dsimp only
      omega

theorem cut_kept_le : (cutAt limit blocks).1 ≤ blocks.length := by
  induction blocks generalizing limit with
  | nil => exact Nat.le_refl 0
  | cons block rest inductionHypothesis =>
    obtain ⟨gap, width⟩ := block
    rcases Nat.lt_or_ge limit (gap + width) with inside | past
    · rw [cutAt_split limit gap width rest inside]
      exact Nat.zero_le _
    · rw [cutAt_whole limit gap width rest past]
      exact Nat.succ_le_succ (inductionHypothesis _)

/-- Spans lie at or after the position they start from. -/
theorem bounds_from (position : Nat) : ∀ span ∈ bounds position blocks,
    position ≤ span.1 ∧ span.1 ≤ span.2 := by
  induction blocks generalizing position with
  | nil => exact nofun
  | cons block rest inductionHypothesis =>
    obtain ⟨gap, width⟩ := block
    intro span member
    rcases List.mem_cons.mp member with rfl | later
    · dsimp only
      omega
    · have after := inductionHypothesis (position + gap + width) span later
      omega

/-- The cut is not strictly inside a block. -/
theorem cut_clear (position : Nat) :
    Clear (bounds position blocks) (position + (cutAt limit blocks).2) := by
  induction blocks generalizing limit position with
  | nil => exact nofun
  | cons block rest inductionHypothesis =>
    obtain ⟨gap, width⟩ := block
    intro span member
    rcases Nat.lt_or_ge limit (gap + width) with inside | past
    · rw [cutAt_split limit gap width rest inside]
      have before : position + gap ≤ span.1 := by
        rcases List.mem_cons.mp member with rfl | later
        · exact Nat.le_refl _
        · have after := bounds_from rest (position + gap + width) span later
          omega
      dsimp only
      omega
    · rw [cutAt_whole limit gap width rest past]
      rcases List.mem_cons.mp member with rfl | later
      · dsimp only
        omega
      · have clear := inductionHypothesis (limit - (gap + width)) (position + gap + width) span later
        dsimp only
        omega

/-- No clear point up to the limit lies behind the cut. -/
theorem cut_greatest (position point : Nat) (within : point ≤ position + limit)
    (clear : Clear (bounds position blocks) point) :
    point ≤ position + (cutAt limit blocks).2 := by
  induction blocks generalizing limit position with
  | nil => exact within
  | cons block rest inductionHypothesis =>
    obtain ⟨gap, width⟩ := block
    rcases Nat.lt_or_ge limit (gap + width) with inside | past
    · rw [cutAt_split limit gap width rest inside]
      have outside := clear (position + gap, position + gap + width) List.mem_cons_self
      dsimp only at outside ⊢
      omega
    · rw [cutAt_whole limit gap width rest past]
      have further := inductionHypothesis (limit - (gap + width)) (position + gap + width)
        (by omega) (fun span later => clear span (List.mem_cons_of_mem _ later))
      dsimp only
      omega

/-- The items whose blocks end by a point. -/
def endingBy (point position : Nat) (size : Item → Nat × Nat) (items : List Item) : List Item :=
  ((items.zip (bounds position (items.map size))).filter
    (fun entry => decide (entry.2.2 ≤ point))).map Prod.fst

/-- No item after a point ends by it. -/
theorem endingBy_after (point position : Nat) (size : Item → Nat × Nat) (items : List Item)
    (wide : ∀ item ∈ items, 0 < (size item).2) (before : point ≤ position) :
    endingBy point position size items = [] := by
  induction items generalizing position with
  | nil => rfl
  | cons item rest inductionHypothesis =>
    rcases hasSize : size item with ⟨gap, width⟩
    have positive := wide item List.mem_cons_self
    rw [hasSize] at positive
    have later := inductionHypothesis (position + gap + width)
      (fun other member => wide other (List.mem_cons_of_mem item member)) (by omega)
    rw [endingBy, List.map_cons, hasSize, bounds, List.zip_cons_cons, List.filter_cons_of_neg]
    · exact later
    · simp only [decide_eq_true_eq]
      omega

/-- The items that end by the cut are the ones kept. -/
theorem endingBy_cut (position : Nat) (size : Item → Nat × Nat) (items : List Item)
    (wide : ∀ item ∈ items, 0 < (size item).2) :
    endingBy (position + (cutAt limit (items.map size)).2) position size items =
      items.take (cutAt limit (items.map size)).1 := by
  induction items generalizing limit position with
  | nil => rfl
  | cons item rest inductionHypothesis =>
    rcases hasSize : size item with ⟨gap, width⟩
    have positive := wide item List.mem_cons_self
    rw [hasSize] at positive
    have others : ∀ other ∈ rest, 0 < (size other).2 :=
      fun other member => wide other (List.mem_cons_of_mem item member)
    rw [List.map_cons, hasSize]
    rcases Nat.lt_or_ge limit (gap + width) with inside | past
    · rw [cutAt_split limit gap width _ inside, List.take_zero, endingBy, List.map_cons, hasSize, bounds,
        List.zip_cons_cons, List.filter_cons_of_neg]
      · exact endingBy_after _ _ size rest others (by dsimp only; omega)
      · simp only [decide_eq_true_eq]
        omega
    · rw [cutAt_whole limit gap width _ past, List.take_succ_cons, endingBy, List.map_cons, hasSize,
        bounds, List.zip_cons_cons, List.filter_cons_of_pos, List.map_cons]
      · have tail := inductionHypothesis (limit - (gap + width)) (position + gap + width) others
        rw [show position + (gap + width + (cutAt (limit - (gap + width)) (rest.map size)).2) =
          position + gap + width + (cutAt (limit - (gap + width)) (rest.map size)).2 by omega]
        exact congrArg (item :: ·) tail
      · simp only [decide_eq_true_eq]
        omega

end Spans
