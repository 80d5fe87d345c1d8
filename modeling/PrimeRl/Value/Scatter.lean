import PrimeRl.Orchestrator.TrainingLayout
import PrimeRl.Value.Credit

/-!
# Writing flat credit back to the samples

A flat stream over the spans of a layout is written back by slice assignments.
Each assignment changes exactly the cells of its span, so with spans inside the
samples the rows keep their widths and only covered cells change.
-/

namespace PrimeRl.Value.Scatter

open PrimeRl.Orchestrator.Trajectories PrimeRl.Orchestrator.TrainingLayout PrimeRl.Value.Credit

universe u
variable {Scalar : Type u}

theorem assign_slice_spec [Zero Scalar] (row : List Scalar) (start : Nat) (entries : List Scalar)
    (inside : start + entries.length ≤ row.length) :
    (assignSlice row start (start + entries.length) entries).length = row.length ∧
      ∀ position : Nat, (assignSlice row start (start + entries.length) entries).getD position 0 =
        if start ≤ position ∧ position < start + entries.length then
          entries.getD (position - start) 0
        else row.getD position 0 := by
  have taken : (row.take start).length = start := by
    rw [List.length_take]
    omega
  have ordered : max start (start + entries.length) = start + entries.length := by omega
  rw [assignSlice, ordered, List.append_assoc]
  refine ⟨?_, ?_⟩
  · simp only [List.length_append, List.length_take, List.length_drop]
    omega
  · intro position
    simp only [List.getD_eq_getElem?_getD]
    by_cases before : position < start
    · rw [if_neg (by omega), List.getElem?_append_left (by omega), List.getElem?_take,
        if_pos before]
    · rw [List.getElem?_append_right (by omega), taken]
      by_cases within : position < start + entries.length
      · rw [if_pos (by omega), List.getElem?_append_left (by omega)]
      · rw [if_neg (by omega), List.getElem?_append_right (by omega), List.getElem?_drop]
        congr 2
        omega

/-- A cell of a list of rows. -/
def cell [Zero Scalar] (rows : List (List Scalar)) (sampleIndex position : Nat) : Scalar :=
  (rows.getD sampleIndex []).getD position 0

theorem mem_sample_tokens_iff (span : TrainableSpan) (sampleIndex position : Nat) :
    (sampleIndex, position) ∈ sampleTokens span ↔ sampleIndex = span.sampleIndex ∧
      span.sampleStart ≤ position ∧ position < span.sampleStart + span.length := by
  rw [sampleTokens, List.mem_map]
  constructor
  · rintro ⟨covered, member, same⟩
    obtain ⟨rfl, rfl⟩ := Prod.mk.inj same
    rw [List.mem_range'_1] at member
    exact ⟨rfl, member⟩
  · rintro ⟨rfl, bounds⟩
    exact ⟨position, List.mem_range'_1.mpr bounds, rfl⟩

/-- Assign entries to the slice of a span. -/
def writeEntries (rows : List (List Scalar)) (span : TrainableSpan) (entries : List Scalar) :
    List (List Scalar) :=
  rows.modify span.sampleIndex (fun row =>
    assignSlice row span.sampleStart (span.sampleStart + span.length) entries)

theorem write_entries_empty (rows : List (List Scalar)) (span : TrainableSpan)
    (empty : span.length = 0) : writeEntries rows span [] = rows := by
  have untouched (row : List Scalar) :
      assignSlice row span.sampleStart (span.sampleStart + span.length) [] = row := by
    rw [empty, assignSlice, List.append_nil, Nat.add_zero, Nat.max_self, List.take_append_drop]
  apply List.ext_getElem?
  intro sampleIndex
  rw [writeEntries, List.getElem?_modify, Option.map_eq_map]
  simp only [untouched, ite_self, Option.map_id']

/-- Assigning to a span inside its row changes exactly the cells of the span. -/
theorem write_entries_cells [Zero Scalar] (rows : List (List Scalar)) (span : TrainableSpan)
    (entries : List Scalar) (width : entries.length = span.length)
    (within : span.sampleIndex < rows.length)
    (bounded : span.sampleStart + span.length ≤ (rows.getD span.sampleIndex []).length) :
    (writeEntries rows span entries).map List.length = rows.map List.length ∧
      ∀ sampleIndex position, cell (writeEntries rows span entries) sampleIndex position =
        if (sampleIndex, position) ∈ sampleTokens span then
          entries.getD (position - span.sampleStart) 0
        else cell rows sampleIndex position := by
  obtain ⟨sameWidth, cells⟩ := assign_slice_spec (rows.getD span.sampleIndex [])
    span.sampleStart entries (by rw [width]; exact bounded)
  rw [width] at sameWidth cells
  have ownRow : rows[span.sampleIndex]? = some (rows.getD span.sampleIndex []) := by
    rw [List.getD_eq_getElem _ _ within, List.getElem?_eq_getElem within]
  refine ⟨?_, ?_⟩
  · apply List.ext_getElem?
    intro sampleIndex
    rw [List.getElem?_map, List.getElem?_map, writeEntries, List.getElem?_modify,
      Option.map_eq_map, Option.map_map]
    by_cases same : span.sampleIndex = sampleIndex
    · subst same
      rw [ownRow]
      simp only [Option.map_some, Function.comp_apply, if_true, sameWidth]
    · simp only [same, if_false, Function.comp_def]
  · intro sampleIndex position
    simp only [mem_sample_tokens_iff]
    by_cases same : span.sampleIndex = sampleIndex
    · subst same
      have readRow : (writeEntries rows span entries)[span.sampleIndex]? =
          some (assignSlice (rows.getD span.sampleIndex []) span.sampleStart
            (span.sampleStart + span.length) entries) := by
        rw [writeEntries, List.getElem?_modify, ownRow]
        simp only [Option.map_eq_map, Option.map_some, if_true]
      have row := congrArg (fun found => found.getD []) readRow
      simp only [← List.getD_eq_getElem?_getD, Option.getD_some] at row
      rw [cell, row, cells]
      by_cases covered : span.sampleStart ≤ position ∧ position < span.sampleStart + span.length
      · rw [if_pos covered, if_pos ⟨rfl, covered⟩]
      · rw [if_neg covered, if_neg (fun member => covered member.2), cell]
    · have readCell : (writeEntries rows span entries)[sampleIndex]? = rows[sampleIndex]? := by
        rw [writeEntries, List.getElem?_modify]
        simp only [same, if_false, Option.map_eq_map, Option.map_id']
      rw [if_neg (fun member => same member.1.symm), cell, cell, List.getD_eq_getElem?_getD,
        List.getD_eq_getElem?_getD, readCell, ← List.getD_eq_getElem?_getD,
        ← List.getD_eq_getElem?_getD]

/-- A span lies inside the row of its sample, unless it is empty. -/
def Inside (rows : List (List Scalar)) (span : TrainableSpan) : Prop :=
  span.length = 0 ∨ (span.sampleIndex < rows.length ∧
    span.sampleStart + span.length ≤ (rows.map List.length).getD span.sampleIndex 0)

/-- The same holds of empty spans, so one assignment of a fitting slice keeps the
widths and changes exactly the cells of the span. -/
theorem write_inside [Zero Scalar] (rows : List (List Scalar)) (span : TrainableSpan)
    (entries : List Scalar) (width : entries.length = span.length) (inside : Inside rows span) :
    (writeEntries rows span entries).map List.length = rows.map List.length ∧
      ∀ sampleIndex position, cell (writeEntries rows span entries) sampleIndex position =
        if (sampleIndex, position) ∈ sampleTokens span then
          entries.getD (position - span.sampleStart) 0
        else cell rows sampleIndex position := by
  rcases inside with empty | ⟨within, bounded⟩
  · rw [empty, List.length_eq_zero_iff] at width
    subst width
    rw [write_entries_empty rows span empty]
    refine ⟨rfl, ?_⟩
    intro sampleIndex position
    rw [if_neg]
    rw [mem_sample_tokens_iff]
    omega
  · refine write_entries_cells rows span entries width within ?_
    have rowLength : (rows.map List.length).getD span.sampleIndex 0 =
        (rows.getD span.sampleIndex []).length := by
      rw [List.getD_eq_getElem _ _ (by rw [List.length_map]; exact within),
        List.getD_eq_getElem _ _ within, List.getElem_map]
    rwa [← rowLength]

/-- Widths decide whether a span is inside. -/
theorem inside_congr {rows others : List (List Scalar)} {span : TrainableSpan}
    (sameWidths : others.map List.length = rows.map List.length) (inside : Inside rows span) :
    Inside others span := by
  have sameLength : others.length = rows.length := by
    have lengths := congrArg List.length sameWidths
    rwa [List.length_map, List.length_map] at lengths
  rcases inside with empty | ⟨within, bounded⟩
  · exact Or.inl empty
  · exact Or.inr ⟨by rw [sameLength]; exact within, by rw [sameWidths]; exact bounded⟩

/-- Number of tokens the spans cover. -/
def covered (spans : List TrainableSpan) : Nat := (spans.map TrainableSpan.length).sum

/-- Over spans without common tokens, the entry for the token listed at a place
is the entry of the flat stream at that place; other cells are unchanged. -/
theorem scatter_cells [Zero Scalar] (flat : List Scalar) (offset : Nat)
    (spans : List TrainableSpan) (rows : List (List Scalar))
    (available : offset + covered spans ≤ flat.length)
    (inside : ∀ span ∈ spans, Inside rows span)
    (distinct : (spans.flatMap sampleTokens).Nodup) :
    (scatter flat offset spans rows).map List.length = rows.map List.length ∧
      (∀ place sampleIndex position,
        (spans.flatMap sampleTokens)[place]? = some (sampleIndex, position) →
        cell (scatter flat offset spans rows) sampleIndex position = flat.getD (offset + place) 0) ∧
      ∀ sampleIndex position, (sampleIndex, position) ∉ spans.flatMap sampleTokens →
        cell (scatter flat offset spans rows) sampleIndex position = cell rows sampleIndex position := by
  induction spans generalizing offset rows with
  | nil =>
    refine ⟨rfl, ?_, fun _ _ _ => rfl⟩
    intro place sampleIndex position listed
    exact absurd listed nofun
  | cons span rest inductionHypothesis =>
    rw [covered, List.map_cons, List.sum_cons] at available
    rw [List.flatMap_cons, List.nodup_append] at distinct
    obtain ⟨-, restDistinct, apart⟩ := distinct
    have width : ((flat.drop offset).take span.length).length = span.length := by
      rw [List.length_take, List.length_drop]
      omega
    obtain ⟨sameWidths, written⟩ := write_inside rows span ((flat.drop offset).take span.length)
      width (inside span List.mem_cons_self)
    obtain ⟨finalWidths, listedCells, otherCells⟩ := inductionHypothesis (offset + span.length)
      (writeEntries rows span ((flat.drop offset).take span.length))
      (by rw [covered]; omega)
      (fun other member =>
        inside_congr sameWidths (inside other (List.mem_cons_of_mem _ member)))
      restDistinct
    refine ⟨finalWidths.trans sameWidths, ?_, ?_⟩
    · intro place sampleIndex position listed
      have tokenWidth : (sampleTokens span).length = span.length := by
        rw [sampleTokens, List.length_map, List.length_range']
      rw [List.flatMap_cons] at listed
      by_cases first : place < span.length
      · rw [List.getElem?_append_left (by omega)] at listed
        have member := List.mem_of_getElem? listed
        have fresh : (sampleIndex, position) ∉ rest.flatMap sampleTokens :=
          fun later => apart _ member _ later rfl
        rw [sampleTokens, List.getElem?_map, List.getElem?_range' first, Option.map_some,
          Option.some.injEq, Prod.mk.injEq] at listed
        obtain ⟨rfl, rfl⟩ := listed
        rw [scatter]
        refine (otherCells _ _ fresh).trans ?_
        rw [written, if_pos member, List.getD_eq_getElem?_getD, List.getElem?_take,
          if_pos (by omega), List.getElem?_drop, List.getD_eq_getElem?_getD]
        congr 2
        omega
      · rw [List.getElem?_append_right (by omega), tokenWidth] at listed
        rw [scatter]
        refine (listedCells (place - span.length) sampleIndex position listed).trans ?_
        congr 1
        omega
    · intro sampleIndex position absent
      rw [List.flatMap_cons, List.mem_append, not_or] at absent
      rw [scatter]
      refine (otherCells sampleIndex position absent.2).trans ?_
      rw [written, if_neg absent.1]

end PrimeRl.Value.Scatter
