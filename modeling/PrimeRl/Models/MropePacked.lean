import Mathlib.Algebra.BigOperators.Ring.Finset
import Mathlib.Data.List.Forall2
import Mathlib.Data.List.SplitLengths
import PrimeRl.Models.MropePositions

/-!
# Packed segments are placed as alone

The builder succeeds exactly when consecutive grids fill each run of image
tokens and none is left over. A segment takes its own grids off the iterator and
restarts its positions, so it is placed as it would be alone.
-/

namespace PrimeRl.Models.Mrope

open Fallible

variable (spatialMergeSize : Nat)

/-- A grid of positive size that merges evenly. -/
structure GridThw.Proper (gridThw : GridThw) : Prop where
  frames : 0 < gridThw.t
  height : 0 < gridThw.h
  width : 0 < gridThw.w
  evenHeight : spatialMergeSize ∣ gridThw.h
  evenWidth : spatialMergeSize ∣ gridThw.w

theorem GridThw.Proper.tokens_pos {spatialMergeSize : Nat} {gridThw : GridThw}
    (proper : gridThw.Proper spatialMergeSize) : 0 < imageTokens spatialMergeSize gridThw := by
  have merging : 0 < spatialMergeSize := Nat.pos_of_dvd_of_pos proper.evenHeight proper.height
  have rows := Nat.div_pos (Nat.le_of_dvd proper.height proper.evenHeight) merging
  have columns := Nat.div_pos (Nat.le_of_dvd proper.width proper.evenWidth) merging
  exact Nat.mul_pos proper.frames (Nat.mul_pos rows columns)

/-! ## Runs of image tokens -/

/-- A run of image tokens takes the first grids that fill it exactly. -/
theorem fill_images_ok (groupLen remaining currentPos : Nat) (grids : List GridThw)
    (proper : ∀ grid ∈ grids, 0 < imageTokens spatialMergeSize grid)
    (filled : List (List Position) × Nat × List GridThw) :
    fillImages spatialMergeSize groupLen remaining currentPos grids = .ok filled ↔
      ∃ here, grids = here ++ filled.2.2 ∧
        (here.map (imageTokens spatialMergeSize)).sum = remaining ∧
        filled.1 = visionBlocks spatialMergeSize currentPos here ∧
        filled.2.1 = currentPos + (here.map (imageAdvance spatialMergeSize)).sum := by
  obtain ⟨blocks, after, rest⟩ := filled
  dsimp only
  induction grids generalizing remaining currentPos blocks with
  | nil =>
    cases remaining with
    | zero =>
      simp only [fillImages, Except.ok.injEq, Prod.mk.injEq]
      constructor
      · rintro ⟨rfl, rfl, rfl⟩
        exact ⟨[], rfl, rfl, rfl, rfl⟩
      · rintro ⟨here, split, -, laid, moved⟩
        obtain ⟨rfl, rfl⟩ := List.nil_eq_append_iff.mp split
        exact ⟨laid.symm, moved.symm, rfl⟩
    | succ remaining =>
      refine iff_of_false nofun ?_
      rintro ⟨here, split, sum, -⟩
      obtain ⟨rfl, -⟩ := List.nil_eq_append_iff.mp split
      cases sum
  | cons grid grids inductionHypothesis =>
    obtain ⟨positive, othersProper⟩ := List.forall_mem_cons.mp proper
    cases remaining with
    | zero =>
      simp only [fillImages, Except.ok.injEq, Prod.mk.injEq]
      constructor
      · rintro ⟨rfl, rfl, rfl⟩
        exact ⟨[], rfl, rfl, rfl, rfl⟩
      · rintro ⟨here, split, sum, laid, moved⟩
        cases here with
        | nil => exact ⟨laid.symm, moved.symm, split⟩
        | cons image others =>
          obtain rfl := (List.cons.inj split).1
          rw [List.map_cons, List.sum_cons] at sum
          omega
    | succ remaining =>
      simp only [fillImages, vision_positions_length]
      rw [check_passed_iff]
      constructor
      · rintro ⟨fits, accepted⟩
        obtain ⟨⟨others, moved, left⟩, later, same⟩ := map_ok accepted
        cases same
        obtain ⟨here, split, sum, laid, advanced⟩ :=
          (inductionHypothesis _ _ othersProper _).mp later
        refine ⟨grid :: here, by rw [split, List.cons_append], ?_, by rw [laid]; rfl, ?_⟩
        · rw [List.map_cons, List.sum_cons, sum]
          omega
        · rw [advanced, List.map_cons, List.sum_cons, imageAdvance, Nat.add_assoc]
      · rintro ⟨here, split, sum, laid, moved⟩
        cases here with
        | nil => cases sum
        | cons image others =>
          obtain ⟨rfl, rest⟩ := List.cons.inj split
          rw [List.map_cons, List.sum_cons] at sum moved
          refine ⟨by omega, ?_⟩
          have later := (inductionHypothesis (remaining + 1 - imageTokens spatialMergeSize grid)
            (currentPos + imageAdvance spatialMergeSize grid) othersProper
            (visionBlocks spatialMergeSize
              (currentPos + imageAdvance spatialMergeSize grid) others)).mpr
            ⟨others, rest, by omega, rfl, by omega⟩
          rw [← imageAdvance, later, laid]
          rfl

/-! ## Runs of a segment -/

/-- Runs that are text or image tokens, none of them empty. -/
def Modal (groups : List (Int × Nat)) : Prop :=
  ∀ group ∈ groups, (group.1 = 0 ∨ group.1 = 1) ∧ 0 < group.2

/-- A run of text is placed. -/
theorem place_text (building : Building) (groupLen : Nat) :
    placeGroup spatialMergeSize building (0, groupLen) =
      .ok { building with
        segmentPositions :=
          building.segmentPositions ++ [textPositions building.currentPos groupLen]
        currentPos := building.currentPos + groupLen } := rfl

/-- A run of image tokens takes its grids from the iterator. -/
theorem place_images (building : Building) (groupLen : Nat) (grids : List GridThw)
    (available : building.imageGrids = some grids) :
    placeGroup spatialMergeSize building (1, groupLen) =
      (fillImages spatialMergeSize groupLen groupLen building.currentPos grids).map
        (fun filled =>
          { segmentPositions := building.segmentPositions ++ filled.1
            currentPos := filled.2.1
            imageGrids := some filled.2.2 }) := by
  simp [placeGroup, available]

/-- Placed runs are laid out with the grids they took. -/
theorem place_groups_sound {groups : List (Int × Nat)} (modal : Modal groups)
    {building built : Building}
    (placed : placeGroups spatialMergeSize building groups = .ok built)
    (proper : ∀ grid ∈ building.imageGrids.getD [], 0 < imageTokens spatialMergeSize grid) :
    ∃ part rest blocks, building.imageGrids.getD [] = part ++ rest ∧
      built.imageGrids = building.imageGrids.map (fun _ => rest) ∧
      built.segmentPositions = building.segmentPositions ++ blocks ∧
      Laid spatialMergeSize building.currentPos groups part blocks := by
  induction groups generalizing building with
  | nil =>
    obtain rfl := Except.ok.inj placed
    refine ⟨[], _, [], rfl, ?_, (List.append_nil _).symm, .done _⟩
    cases building.imageGrids <;> rfl
  | cons group groups inductionHypothesis =>
    obtain ⟨kind, groupLen⟩ := group
    obtain ⟨⟨known, -⟩, othersModal⟩ := List.forall_mem_cons.mp modal
    rw [placeGroups] at placed
    rcases known with rfl | rfl
    · rw [place_text] at placed
      dsimp only at placed
      obtain ⟨part, rest, blocks, split, left, listed, laid⟩ :=
        inductionHypothesis othersModal placed proper
      refine ⟨part, rest, _, split, left, ?_, .text laid⟩
      rw [listed, List.append_assoc, List.singleton_append]
    · cases available : building.imageGrids with
      | none =>
        have refused : placeGroup spatialMergeSize building (1, groupLen) =
            .error "image_grid_thw is required when mm_token_type_ids contains image tokens" := by
          simp [placeGroup, available]
        rw [refused] at placed
        cases placed
      | some grids =>
        rw [place_images _ building groupLen grids available] at placed
        rw [available, Option.getD_some] at proper
        cases filling : fillImages spatialMergeSize groupLen groupLen building.currentPos grids with
        | error message =>
          rw [filling] at placed
          cases placed
        | ok filled =>
          rw [filling] at placed
          obtain ⟨here, taken, sum, blocksHere, moved⟩ :=
            (fill_images_ok _ _ _ _ _ proper filled).mp filling
          have othersProper : ∀ grid ∈ filled.2.2, 0 < imageTokens spatialMergeSize grid :=
            fun grid member => proper grid (taken ▸ List.mem_append_right here member)
          obtain ⟨part, rest, blocks, split, left, listed, laid⟩ :=
            inductionHypothesis othersModal placed othersProper
          dsimp only [Option.getD_some, Option.map_some] at split left listed laid
          refine ⟨here ++ part, rest, filled.1 ++ blocks, ?_, left, ?_, ?_⟩
          · rw [Option.getD_some, taken, split, List.append_assoc]
          · rw [listed, List.append_assoc]
          · rw [moved] at laid
            rw [blocksHere]
            exact .images here sum laid

/-- Runs that can be laid out are placed, from any iterator that starts with their grids. -/
theorem place_groups_complete {currentPos : Nat} {groups : List (Int × Nat)}
    {part : List GridThw} {blocks : List (List Position)}
    (laid : Laid spatialMergeSize currentPos groups part blocks) (modal : Modal groups)
    (building : Building) (starts : building.currentPos = currentPos) (rest : List GridThw)
    (split : building.imageGrids.getD [] = part ++ rest)
    (proper : ∀ grid ∈ building.imageGrids.getD [], 0 < imageTokens spatialMergeSize grid) :
    ∃ moved, placeGroups spatialMergeSize building groups =
      .ok ⟨building.segmentPositions ++ blocks, moved,
        building.imageGrids.map (fun _ => rest)⟩ := by
  induction laid generalizing building with
  | done =>
    refine ⟨building.currentPos, ?_⟩
    rw [placeGroups, List.append_nil]
    obtain ⟨placed, start, grids⟩ := building
    cases grids with
    | none => rfl
    | some grids =>
      rw [Option.map_some, ← show grids = rest from split]
  | @text currentPos groupLen groups grids blocks others inductionHypothesis =>
    obtain ⟨-, othersModal⟩ := List.forall_mem_cons.mp modal
    rw [placeGroups, place_text]
    obtain ⟨moved, placed⟩ := inductionHypothesis othersModal
      { building with
        segmentPositions :=
          building.segmentPositions ++ [textPositions building.currentPos groupLen]
        currentPos := building.currentPos + groupLen }
      (by rw [starts]) split proper
    refine ⟨moved, placed.trans ?_⟩
    dsimp only
    rw [starts, List.append_assoc, List.singleton_append]
  | @images currentPos groupLen groups grids blocks here filled others inductionHypothesis =>
    obtain ⟨⟨-, positive⟩, othersModal⟩ := List.forall_mem_cons.mp modal
    cases available : building.imageGrids with
    | none =>
      -- A run of image tokens is not empty, so it takes a grid.
      rw [available, Option.getD_none, List.append_assoc] at split
      obtain ⟨rfl, -⟩ := List.nil_eq_append_iff.mp split
      rw [List.map_nil, List.sum_nil] at filled
      omega
    | some all =>
      rw [available, Option.getD_some] at split proper
      rw [List.append_assoc] at split
      have filling := (fill_images_ok spatialMergeSize groupLen groupLen building.currentPos all
        proper (visionBlocks spatialMergeSize building.currentPos here,
          building.currentPos + (here.map (imageAdvance spatialMergeSize)).sum,
          grids ++ rest)).mpr ⟨here, split, filled, rfl, rfl⟩
      rw [placeGroups, place_images _ building groupLen all available, filling]
      dsimp only [Except.map]
      have othersProper : ∀ grid ∈ grids ++ rest, 0 < imageTokens spatialMergeSize grid :=
        fun grid member => proper grid (split ▸ List.mem_append_right here member)
      obtain ⟨moved, placed⟩ := inductionHypothesis othersModal
        ⟨building.segmentPositions ++ visionBlocks spatialMergeSize building.currentPos here,
          building.currentPos + (here.map (imageAdvance spatialMergeSize)).sum,
          some (grids ++ rest)⟩ (by rw [starts]) rfl othersProper
      refine ⟨moved, placed.trans ?_⟩
      rw [starts, List.append_assoc]
      rfl

/-! ## One segment -/

theorem groupby_modal {tokenTypes : List Int} (modal : ∀ kind ∈ tokenTypes, kind = 0 ∨ kind = 1) :
    Modal (groupby tokenTypes) := by
  intro group member
  obtain ⟨run, listed, rfl⟩ := List.mem_map.mp member
  cases run with
  | nil => exact absurd listed (List.nil_notMem_splitBy _ _)
  | cons kind others =>
    have inside : kind ∈ tokenTypes := by
      rw [← List.flatten_splitBy (· == ·) tokenTypes]
      exact List.mem_flatten_of_mem listed List.mem_cons_self
    exact ⟨modal kind inside, Nat.zero_lt_succ _⟩

theorem groupby_length (tokenTypes : List Int) :
    ((groupby tokenTypes).map Prod.snd).sum = tokenTypes.length := by
  have counted := congrArg List.length (List.flatten_splitBy (· == ·) tokenTypes)
  rw [List.length_flatten] at counted
  rw [groupby, List.map_map]
  exact counted

/-- Without image tokens every run is text. -/
theorem groupby_textual {tokenTypes : List Int}
    (modal : ∀ kind ∈ tokenTypes, kind = 0 ∨ kind = 1) (textual : 1 ∉ tokenTypes) :
    ∀ group ∈ groupby tokenTypes, group.1 = 0 := by
  intro group member
  obtain ⟨run, listed, rfl⟩ := List.mem_map.mp member
  cases run with
  | nil => rfl
  | cons kind others =>
    have inside : kind ∈ tokenTypes := by
      rw [← List.flatten_splitBy (· == ·) tokenTypes]
      exact List.mem_flatten_of_mem listed List.mem_cons_self
    exact (modal kind inside).resolve_right (fun same => textual (same ▸ inside))

/-- A segment with its grids and its positions. -/
structure Piece where
  tokenTypes : List Int
  grids : List GridThw
  positionIds : List Position

/-- The positions of a segment are those of its runs, laid out with its grids from zero on. -/
def Piece.Placed (piece : Piece) : Prop :=
  ∃ blocks, Laid spatialMergeSize 0 (groupby piece.tokenTypes) piece.grids blocks ∧
    piece.positionIds = blocks.flatten

theorem Piece.Placed.length_eq {spatialMergeSize : Nat} {piece : Piece}
    (placed : piece.Placed spatialMergeSize) :
    piece.positionIds.length = piece.tokenTypes.length := by
  obtain ⟨blocks, laid, same⟩ := placed
  rw [same, laid.length_eq, groupby_length]

/-- No position is given to two tokens of a segment. -/
theorem Piece.Placed.apart {spatialMergeSize : Nat} {piece : Piece}
    (placed : piece.Placed spatialMergeSize) : piece.positionIds.Nodup := by
  obtain ⟨blocks, laid, same⟩ := placed
  rw [same]
  exact laid.rise.1

/-- A segment without image tokens is numbered from zero on every axis. -/
theorem Piece.Placed.consecutive {spatialMergeSize : Nat} {piece : Piece}
    (placed : piece.Placed spatialMergeSize)
    (modal : ∀ kind ∈ piece.tokenTypes, kind = 0 ∨ kind = 1) (textual : 1 ∉ piece.tokenTypes) :
    piece.positionIds =
      (List.range piece.tokenTypes.length).map (fun place => ⟨place, place, place⟩) := by
  obtain ⟨blocks, laid, same⟩ := placed
  rw [same, (laid.text_only _ (groupby_textual modal textual)).2, groupby_length]
  rfl

/-- A segment is placed with the first grids of the iterator, whatever follows them. -/
theorem segment_ok_iff {tokenTypes : List Int} {seqLen : Nat}
    (count : tokenTypes.length = seqLen) (nonempty : 0 < seqLen)
    (modal : ∀ kind ∈ tokenTypes, kind = 0 ∨ kind = 1) (grids after : Option (List GridThw))
    (proper : ∀ grid ∈ grids.getD [], 0 < imageTokens spatialMergeSize grid)
    (positionIds : List Position) :
    segmentPositionIds spatialMergeSize seqLen tokenTypes grids = .ok (positionIds, after) ↔
      ∃ part rest, grids.getD [] = part ++ rest ∧ after = grids.map (fun _ => rest) ∧
        (Piece.mk tokenTypes part positionIds).Placed spatialMergeSize := by
  constructor
  · intro accepted
    obtain ⟨built, placed, checks⟩ := bind_ok accepted
    have finished := (check_passed (check_passed checks).2).2
    obtain ⟨rfl, rfl⟩ := Prod.mk.inj (Except.ok.inj finished)
    obtain ⟨part, rest, blocks, split, left, listed, laid⟩ :=
      place_groups_sound spatialMergeSize (groupby_modal modal) placed proper
    exact ⟨part, rest, split, left, blocks, laid, by rw [listed]; rfl⟩
  · rintro ⟨part, rest, split, rfl, blocks, laid, rfl⟩
    obtain ⟨moved, placed⟩ := place_groups_complete spatialMergeSize laid (groupby_modal modal)
      ⟨[], 0, grids⟩ rfl rest split proper
    have whole : blocks.flatten.length = seqLen := by
      rw [laid.length_eq, groupby_length, count]
    have built : blocks ≠ [] := by
      rintro rfl
      rw [← whole] at nonempty
      exact Nat.lt_irrefl 0 nonempty
    rw [segmentPositionIds, placed]
    simp only [List.nil_append]
    exact (if_neg built).trans (if_neg (not_not.mpr whole))

/-! ## All segments -/

/-- Writing behind what is written fills the next cells. -/
theorem write_slice_next (written values : List Position) (free : Nat) :
    writeSlice (written.map some ++ List.replicate (values.length + free) none) written.length
        values =
      (written ++ values).map some ++ List.replicate free none := by
  have start : written.length = (written.map some).length := (List.length_map _).symm
  rw [writeSlice, ← List.drop_drop]
  rw [start, List.take_left, List.drop_left, List.drop_replicate, Nat.add_sub_cancel_left,
    List.map_append]

/-- What is left of the iterator. -/
theorem left_grids {grids : Option (List GridThw)} {part rest : List GridThw}
    (split : grids.getD [] = part ++ rest) : (grids.map (fun _ => rest)).getD [] = rest := by
  cases grids with
  | none => exact (List.nil_eq_append_iff.mp split).2.symm
  | some all => rfl

/-- Segments placed behind what is written, each with the next grids of the iterator. -/
def PlacedBehind (written : List Position) (grids : Option (List GridThw))
    (segments : List (List Int)) (allPositions : List (Option Position))
    (after : Option (List GridThw)) : Prop :=
  ∃ (pieces : List Piece) (rest : List GridThw),
    pieces.map Piece.tokenTypes = segments ∧
    grids.getD [] = pieces.flatMap Piece.grids ++ rest ∧
    after = grids.map (fun _ => rest) ∧
    allPositions = (written ++ pieces.flatMap Piece.positionIds).map some ∧
    ∀ piece ∈ pieces, piece.Placed spatialMergeSize

/-- No segment leaves everything as it is. -/
theorem placed_behind_nil (written : List Position) (grids after : Option (List GridThw))
    (allPositions : List (Option Position)) :
    PlacedBehind spatialMergeSize written grids [] allPositions after ↔
      allPositions = written.map some ∧ after = grids := by
  constructor
  · rintro ⟨pieces, rest, types, split, rfl, rfl, -⟩
    obtain rfl := List.map_eq_nil_iff.mp types
    refine ⟨by simp, ?_⟩
    cases grids with
    | none => rfl
    | some all => exact congrArg some split.symm
  · rintro ⟨rfl, rfl⟩
    refine ⟨[], after.getD [], rfl, rfl, ?_, by simp, nofun⟩
    cases after <;> rfl

/-- The first segment takes its grids, and the others are placed behind it. -/
theorem placed_behind_cons (written : List Position) (grids after : Option (List GridThw))
    (segment : List Int) (segments : List (List Int)) (allPositions : List (Option Position)) :
    PlacedBehind spatialMergeSize written grids (segment :: segments) allPositions after ↔
      ∃ positionIds part rest, grids.getD [] = part ++ rest ∧
        (Piece.mk segment part positionIds).Placed spatialMergeSize ∧
        PlacedBehind spatialMergeSize (written ++ positionIds) (grids.map (fun _ => rest)) segments
          allPositions after := by
  constructor
  · rintro ⟨pieces, left, types, taken, rfl, rfl, each⟩
    obtain ⟨piece, pieces, rfl, rfl, rfl⟩ := List.map_eq_cons_iff.mp types
    obtain ⟨placed, each⟩ := List.forall_mem_cons.mp each
    have split : grids.getD [] = piece.grids ++ (pieces.flatMap Piece.grids ++ left) := by
      rw [taken, List.flatMap_cons, List.append_assoc]
    refine ⟨piece.positionIds, piece.grids, _, split, placed, pieces, left, rfl, left_grids split,
      ?_, ?_, each⟩
    · rw [Option.map_map]
      rfl
    · rw [List.flatMap_cons, List.append_assoc]
  · rintro ⟨positionIds, part, rest, split, placed, pieces, left, rfl, taken, rfl, rfl, each⟩
    rw [left_grids split] at taken
    refine ⟨⟨segment, part, positionIds⟩ :: pieces, left, rfl, ?_, ?_, ?_, ?_⟩
    · rw [split, taken, List.flatMap_cons, List.append_assoc]
    · rw [Option.map_map]
      rfl
    · rw [List.flatMap_cons, List.append_assoc]
    · exact List.forall_mem_cons.mpr ⟨placed, each⟩

/-- The loop places the segments one behind the other. -/
theorem place_segments_ok_iff (tokenTypes : List Int)
    (modal : ∀ kind ∈ tokenTypes, kind = 0 ∨ kind = 1) (seqLens : List Nat)
    (positive : ∀ seqLen ∈ seqLens, 0 < seqLen) (written : List Position)
    (whole : written.length + seqLens.sum = tokenTypes.length)
    (grids after : Option (List GridThw))
    (proper : ∀ grid ∈ grids.getD [], 0 < imageTokens spatialMergeSize grid)
    (allPositions : List (Option Position)) :
    placeSegments spatialMergeSize tokenTypes written.length
        (written.map some ++ List.replicate seqLens.sum none) grids seqLens =
          .ok (allPositions, after) ↔
      PlacedBehind spatialMergeSize written grids
        (seqLens.splitLengths (tokenTypes.drop written.length)) allPositions after := by
  induction seqLens generalizing written grids with
  | nil =>
    rw [List.splitLengths_nil, placed_behind_nil, placeSegments]
    simp only [List.sum_nil, List.replicate_zero, List.append_nil, Except.ok.injEq, Prod.mk.injEq]
    exact and_congr eq_comm eq_comm
  | cons seqLen seqLens inductionHypothesis =>
    obtain ⟨here, others⟩ := List.forall_mem_cons.mp positive
    rw [List.sum_cons] at whole
    have count : ((tokenTypes.drop written.length).take seqLen).length = seqLen := by
      rw [List.length_take, List.length_drop]
      omega
    have segmentModal : ∀ kind ∈ (tokenTypes.drop written.length).take seqLen,
        kind = 0 ∨ kind = 1 :=
      fun kind member => modal kind (List.mem_of_mem_drop (List.mem_of_mem_take member))
    have segment := segment_ok_iff spatialMergeSize count here segmentModal grids
    -- The loop behind the first segment, once its positions are written.
    have behind : ∀ (positionIds : List Position) (part rest : List GridThw),
        positionIds.length = seqLen → grids.getD [] = part ++ rest →
        (placeSegments spatialMergeSize tokenTypes (written.length + seqLen)
            (writeSlice (written.map some ++ List.replicate (seqLen :: seqLens).sum none)
              written.length positionIds) (grids.map (fun _ => rest)) seqLens =
            .ok (allPositions, after) ↔
          PlacedBehind spatialMergeSize (written ++ positionIds) (grids.map (fun _ => rest))
            (seqLens.splitLengths (tokenTypes.drop (written.length + seqLen))) allPositions
            after) := by
      intro positionIds part rest placedLength split
      have laterProper : ∀ grid ∈ (grids.map (fun _ => rest)).getD [],
          0 < imageTokens spatialMergeSize grid := by
        rw [left_grids split]
        exact fun grid member => proper grid (split ▸ List.mem_append_right part member)
      have laterWhole : (written ++ positionIds).length + seqLens.sum = tokenTypes.length := by
        rw [List.length_append]
        omega
      have later := inductionHypothesis others (written ++ positionIds) laterWhole
        (grids.map (fun _ => rest)) laterProper
      rw [List.length_append] at later
      rw [List.sum_cons, ← placedLength, write_slice_next]
      exact later
    rw [placeSegments, List.splitLengths_cons, placed_behind_cons]
    constructor
    · intro accepted
      obtain ⟨⟨positionIds, middle⟩, first, remaining⟩ := bind_ok accepted
      obtain ⟨part, rest, split, rfl, placed⟩ := (segment middle proper positionIds).mp first
      have placedLength := placed.length_eq.trans count
      refine ⟨positionIds, part, rest, split, placed, ?_⟩
      rw [List.drop_drop]
      exact (behind positionIds part rest placedLength split).mp remaining
    · rintro ⟨positionIds, part, rest, split, placed, remaining⟩
      have placedLength := placed.length_eq.trans count
      rw [List.drop_drop] at remaining
      rw [(segment _ proper positionIds).mpr ⟨part, rest, split, rfl, placed⟩]
      exact (behind positionIds part rest placedLength split).mpr remaining

/-! ## Runs filled exactly -/

/-- The lengths of the maximal runs of image tokens. -/
def imageRuns (tokenTypes : List Int) : List Nat :=
  ((tokenTypes.splitBy (· == ·)).filter (fun run => run.head? == some 1)).map List.length

/-- Consecutive grids fill each run of image tokens exactly, and none is left over. -/
def FilledBy (tokenTypes : List Int) (grids : List GridThw) : Prop :=
  ∃ parts : List (List GridThw), parts.flatten = grids ∧
    List.Forall₂ (fun part groupLen => (part.map (imageTokens spatialMergeSize)).sum = groupLen)
      parts (imageRuns tokenTypes)

/-- The runs of image tokens among all runs. -/
theorem image_runs_groupby (tokenTypes : List Int) :
    imageRuns tokenTypes =
      ((groupby tokenTypes).filter (fun group => decide (group.1 = 1))).map Prod.snd := by
  rw [imageRuns, groupby, List.filter_map, List.map_map]
  congr 1
  apply List.filter_congr
  intro run _
  cases run with
  | nil => rfl
  | cons kind others =>
    by_cases isImage : kind = 1 <;> simp [isImage]

/-- Runs can be laid out with the grids that fill the runs of image tokens. -/
theorem laid_iff_filled {groups : List (Int × Nat)} (modal : Modal groups) (currentPos : Nat)
    (grids : List GridThw) :
    (∃ blocks, Laid spatialMergeSize currentPos groups grids blocks) ↔
      ∃ parts : List (List GridThw), parts.flatten = grids ∧
        List.Forall₂ (fun part groupLen => (part.map (imageTokens spatialMergeSize)).sum = groupLen)
          parts ((groups.filter (fun group => decide (group.1 = 1))).map Prod.snd) := by
  constructor
  · rintro ⟨blocks, laid⟩
    clear modal
    induction laid with
    | done => exact ⟨[], rfl, .nil⟩
    | text others inductionHypothesis => exact inductionHypothesis
    | images here filled others inductionHypothesis =>
      obtain ⟨parts, same, each⟩ := inductionHypothesis
      exact ⟨here :: parts, by rw [List.flatten_cons, same], .cons filled each⟩
  · rintro ⟨parts, rfl, each⟩
    induction groups generalizing currentPos parts with
    | nil =>
      cases each
      exact ⟨[], .done currentPos⟩
    | cons group groups inductionHypothesis =>
      obtain ⟨kind, groupLen⟩ := group
      obtain ⟨⟨known, -⟩, othersModal⟩ := List.forall_mem_cons.mp modal
      rcases known with rfl | rfl
      · obtain ⟨blocks, laid⟩ := inductionHypothesis othersModal (currentPos + groupLen) parts each
        exact ⟨_, .text laid⟩
      · cases each with
        | @cons here _ parts _ filled others =>
          obtain ⟨blocks, laid⟩ := inductionHypothesis othersModal
            (currentPos + (here.map (imageAdvance spatialMergeSize)).sum) parts others
          exact ⟨_, .images here filled laid⟩

/-- A segment has positions exactly when its grids fill its runs. -/
theorem placed_iff_filled {tokenTypes : List Int}
    (modal : ∀ kind ∈ tokenTypes, kind = 0 ∨ kind = 1) (grids : List GridThw) :
    (∃ positionIds, (Piece.mk tokenTypes grids positionIds).Placed spatialMergeSize) ↔
      FilledBy spatialMergeSize tokenTypes grids := by
  rw [FilledBy, image_runs_groupby, ← laid_iff_filled spatialMergeSize (groupby_modal modal) 0]
  constructor
  · rintro ⟨positionIds, blocks, laid, -⟩
    exact ⟨blocks, laid⟩
  · rintro ⟨blocks, laid⟩
    exact ⟨blocks.flatten, blocks, laid, rfl⟩

/-- Every segment has grids of its own that fill its runs. -/
theorem pieces_iff_filled (segments : List (List Int))
    (modal : ∀ segment ∈ segments, ∀ kind ∈ segment, kind = 0 ∨ kind = 1) (grids : List GridThw) :
    (∃ pieces : List Piece, pieces.map Piece.tokenTypes = segments ∧
        pieces.flatMap Piece.grids = grids ∧ ∀ piece ∈ pieces, piece.Placed spatialMergeSize) ↔
      ∃ parts : List (List GridThw), parts.flatten = grids ∧
        List.Forall₂ (FilledBy spatialMergeSize) segments parts := by
  constructor
  · rintro ⟨pieces, rfl, rfl, each⟩
    refine ⟨pieces.map Piece.grids, by rw [List.flatMap_def], ?_⟩
    rw [List.forall₂_map_left_iff, List.forall₂_map_right_iff, List.forall₂_same]
    intro piece member
    have pieceModal := modal piece.tokenTypes (List.mem_map_of_mem member)
    exact (placed_iff_filled spatialMergeSize pieceModal piece.grids).mp
      ⟨piece.positionIds, each piece member⟩
  · rintro ⟨parts, rfl, filled⟩
    induction filled with
    | nil => exact ⟨[], rfl, rfl, nofun⟩
    | @cons segment part segments parts here others inductionHypothesis =>
      obtain ⟨firstModal, othersModal⟩ := List.forall_mem_cons.mp modal
      obtain ⟨pieces, types, taken, each⟩ := inductionHypothesis othersModal
      obtain ⟨positionIds, placed⟩ := (placed_iff_filled spatialMergeSize firstModal part).mpr here
      refine ⟨⟨segment, part, positionIds⟩ :: pieces, ?_, ?_, ?_⟩
      · rw [List.map_cons, types]
      · rw [List.flatMap_cons, taken, List.flatten_cons]
      · exact List.forall_mem_cons.mpr ⟨placed, each⟩

/-! ## The builder -/

/-- A segment is a part of the sequence. -/
theorem mem_of_split {tokenTypes segment : List Int} {seqLens : List Nat} {kind : Int}
    (listed : segment ∈ seqLens.splitLengths tokenTypes) (member : kind ∈ segment) :
    kind ∈ tokenTypes := by
  induction seqLens generalizing tokenTypes with
  | nil => exact absurd listed List.not_mem_nil
  | cons seqLen seqLens inductionHypothesis =>
    rw [List.splitLengths_cons] at listed
    rcases List.mem_cons.mp listed with rfl | later
    · exact List.mem_of_mem_take member
    · exact List.mem_of_mem_drop (inductionHypothesis later)

theorem check_unused_ok (imageGrids : Option (List GridThw)) :
    checkUnused imageGrids = .ok () ↔ imageGrids.getD [] = [] := by
  cases imageGrids with
  | none => exact iff_of_true rfl rfl
  | some grids =>
    cases grids with
    | nil => exact iff_of_true rfl rfl
    | cons grid grids => exact iff_of_false nofun nofun

/-- What the builder returns for a batch of one sequence. -/
theorem build_ok_iff (inputIds tokenTypes : List Int)
    (paired : inputIds.length = tokenTypes.length) (seqLens : List Nat)
    (positive : ∀ seqLen ∈ seqLens, 0 < seqLen) (whole : seqLens.sum = tokenTypes.length)
    (modal : ∀ kind ∈ tokenTypes, kind = 0 ∨ kind = 1) (grids : Option (List GridThw))
    (proper : ∀ grid ∈ grids.getD [], 0 < imageTokens spatialMergeSize grid)
    (allPositions : List (Option Position)) :
    buildQwen35MropePositionIds (.single inputIds) (.single tokenTypes) grids spatialMergeSize
        (some (.vector (seqLens.map Int.ofNat))) = .ok allPositions ↔
      ∃ pieces : List Piece, pieces.map Piece.tokenTypes = seqLens.splitLengths tokenTypes ∧
        pieces.flatMap Piece.grids = grids.getD [] ∧
        allPositions = (pieces.flatMap Piece.positionIds).map some ∧
        ∀ piece ∈ pieces, piece.Placed spatialMergeSize := by
  have segments := place_segments_ok_iff spatialMergeSize tokenTypes modal seqLens positive []
    (by rw [List.length_nil, Nat.zero_add, whole]) grids
  have natural : (seqLens.map Int.ofNat).map Int.toNat = seqLens := by
    rw [List.map_map]
    exact List.map_id seqLens
  have sameShape : ¬ (Tensor.single tokenTypes).shape ≠ (Tensor.single inputIds).shape := by
    simp [Tensor.single, paired]
  have allPositive : ¬ ∃ seqLen ∈ seqLens.map Int.ofNat, seqLen ≤ 0 := by
    rintro ⟨_, member, small⟩
    obtain ⟨seqLen, listed, rfl⟩ := List.mem_map.mp member
    have above := positive seqLen listed
    simp only [Int.ofNat_eq_natCast] at small
    omega
  have cells : (Tensor.single inputIds).shape.getD 1 0 = seqLens.sum := by
    rw [whole, ← paired]
    rfl
  have total : ¬ (seqLens.map Int.ofNat).sum ≠ (seqLens.sum : Int) :=
    not_not.mpr (Nat.cast_list_sum seqLens).symm
  unfold buildQwen35MropePositionIds
  rw [if_neg (by simp [Tensor.single]), if_neg sameShape, if_neg (by simp [Tensor.single])]
  dsimp only [Option.getD_some, Tensor.vector]
  rw [if_neg (by simp), if_neg allPositive, cells, if_neg total, Tensor.single_row, natural]
  constructor
  · intro accepted
    obtain ⟨⟨placed, after⟩, placing, unused⟩ := bind_ok accepted
    obtain ⟨⟨⟩, exhausted, finished⟩ := bind_ok unused
    obtain rfl := Except.ok.inj finished
    obtain ⟨pieces, rest, types, taken, left, all, each⟩ := (segments after proper _).mp placing
    rw [check_unused_ok, left, left_grids taken] at exhausted
    rw [exhausted, List.append_nil] at taken
    exact ⟨pieces, types, taken.symm, all, each⟩
  · rintro ⟨pieces, types, taken, rfl, each⟩
    have split : grids.getD [] = pieces.flatMap Piece.grids ++ [] := by
      rw [taken, List.append_nil]
    have placing := (segments (grids.map (fun _ => [])) proper
      ((pieces.flatMap Piece.positionIds).map some)).mpr
      ⟨pieces, [], types, split, rfl, rfl, each⟩
    have exhausted := (check_unused_ok (grids.map (fun _ => []))).mpr (left_grids split)
    rw [show placeSegments spatialMergeSize tokenTypes 0 (List.replicate seqLens.sum none) grids
      seqLens = .ok _ from placing]
    exact congrArg (fun checked => checked >>= fun _ => Except.ok _) exhausted

/-- A segment alone is placed as in the packed sequence when the iterator has its own grids. -/
theorem alone_ok (ownIds : List Int) (piece : Piece)
    (paired : ownIds.length = piece.tokenTypes.length) (nonempty : 0 < piece.tokenTypes.length)
    (modal : ∀ kind ∈ piece.tokenTypes, kind = 0 ∨ kind = 1) (grids : Option (List GridThw))
    (proper : ∀ grid ∈ piece.grids, 0 < imageTokens spatialMergeSize grid)
    (own : ∀ grid ∈ piece.grids, grid ∈ grids.getD []) (placed : piece.Placed spatialMergeSize) :
    buildQwen35MropePositionIds (.single ownIds) (.single piece.tokenTypes)
      (grids.map (fun _ => piece.grids)) spatialMergeSize none =
        .ok (piece.positionIds.map some) := by
  have ownGrids : (grids.map (fun _ => piece.grids)).getD [] = piece.grids := by
    cases grids with
    | none => exact (List.eq_nil_iff_forall_not_mem.mpr
        (fun grid member => List.not_mem_nil (own grid member))).symm
    | some all => rfl
  have built := (build_ok_iff spatialMergeSize ownIds piece.tokenTypes paired
    [piece.tokenTypes.length] (by simpa using nonempty) (by simp) modal
    (grids.map (fun _ => piece.grids)) (by rw [ownGrids]; exact proper)
    (piece.positionIds.map some)).mpr
    ⟨[piece], by simp, by rw [ownGrids]; simp, by simp, by simpa using placed⟩
  have whole : (Tensor.vector ([piece.tokenTypes.length].map Int.ofNat)) =
      Tensor.vector [((Tensor.single ownIds).shape.getD 1 0 : Int)] := by
    rw [← paired]
    rfl
  rw [whole] at built
  exact built

/-- Packed positions are those of the segments alone. The builder returns exactly when consecutive
grids fill every run of image tokens and none is left over; what it returns lists for each segment
what it returns for the segment alone with its own grids, without a position twice. -/
theorem packed_positions_as_alone (inputIds tokenTypes : List Int)
    (paired : inputIds.length = tokenTypes.length) (seqLens : List Nat)
    (positive : ∀ seqLen ∈ seqLens, 0 < seqLen) (whole : seqLens.sum = tokenTypes.length)
    (modal : ∀ kind ∈ tokenTypes, kind = 0 ∨ kind = 1) (grids : Option (List GridThw))
    (proper : ∀ grid ∈ grids.getD [], grid.Proper spatialMergeSize) :
    ((∃ allPositions, buildQwen35MropePositionIds (.single inputIds) (.single tokenTypes) grids
        spatialMergeSize (some (.vector (seqLens.map Int.ofNat))) = .ok allPositions) ↔
      ∃ parts : List (List GridThw), parts.flatten = grids.getD [] ∧
        List.Forall₂ (FilledBy spatialMergeSize) (seqLens.splitLengths tokenTypes) parts) ∧
    ∀ allPositions, buildQwen35MropePositionIds (.single inputIds) (.single tokenTypes) grids
        spatialMergeSize (some (.vector (seqLens.map Int.ofNat))) = .ok allPositions →
      ∃ pieces : List Piece, pieces.map Piece.tokenTypes = seqLens.splitLengths tokenTypes ∧
        pieces.flatMap Piece.grids = grids.getD [] ∧
        allPositions = (pieces.flatMap Piece.positionIds).map some ∧
        ∀ piece ∈ pieces, FilledBy spatialMergeSize piece.tokenTypes piece.grids ∧
          (∀ ownIds : List Int, ownIds.length = piece.tokenTypes.length →
            buildQwen35MropePositionIds (.single ownIds) (.single piece.tokenTypes)
              (grids.map (fun _ => piece.grids)) spatialMergeSize none =
                .ok (piece.positionIds.map some)) ∧
          piece.positionIds.length = piece.tokenTypes.length ∧
          (1 ∉ piece.tokenTypes → piece.positionIds =
            (List.range piece.tokenTypes.length).map (fun place => ⟨place, place, place⟩)) ∧
          piece.positionIds.Nodup := by
  have filling : ∀ grid ∈ grids.getD [], 0 < imageTokens spatialMergeSize grid :=
    fun grid member => (proper grid member).tokens_pos
  have segmentModal : ∀ segment ∈ seqLens.splitLengths tokenTypes, ∀ kind ∈ segment,
      kind = 0 ∨ kind = 1 := by
    intro segment listed kind member
    exact modal kind (mem_of_split listed member)
  have built := build_ok_iff spatialMergeSize inputIds tokenTypes paired seqLens positive whole
    modal grids filling
  refine ⟨?_, ?_⟩
  · rw [← pieces_iff_filled spatialMergeSize _ segmentModal]
    constructor
    · rintro ⟨allPositions, accepted⟩
      obtain ⟨pieces, types, taken, -, each⟩ := (built allPositions).mp accepted
      exact ⟨pieces, types, taken, each⟩
    · rintro ⟨pieces, types, taken, each⟩
      exact ⟨_, (built _).mpr ⟨pieces, types, taken, rfl, each⟩⟩
  · intro allPositions accepted
    obtain ⟨pieces, types, taken, all, each⟩ := (built allPositions).mp accepted
    refine ⟨pieces, types, taken, all, ?_⟩
    intro piece member
    have listed : piece.tokenTypes ∈ seqLens.splitLengths tokenTypes :=
      types ▸ List.mem_map_of_mem member
    have ownFilling : ∀ grid ∈ piece.grids, 0 < imageTokens spatialMergeSize grid :=
      fun grid inside => filling grid (taken ▸ List.mem_flatMap_of_mem member inside)
    have ownModal := segmentModal piece.tokenTypes listed
    have placed := each piece member
    refine ⟨(placed_iff_filled _ ownModal _).mp ⟨piece.positionIds, placed⟩, ?_,
      placed.length_eq, placed.consecutive ownModal, placed.apart⟩
    intro ownIds ownPaired
    have nonempty : 0 < piece.tokenTypes.length := by
      apply positive
      rw [← List.map_splitLengths_length tokenTypes seqLens (Nat.le_of_eq whole)]
      exact List.mem_map_of_mem listed
    exact alone_ok spatialMergeSize ownIds piece ownPaired nonempty ownModal grids ownFilling
      (fun grid inside => taken ▸ List.mem_flatMap_of_mem member inside) placed

/-- Two segments of one text token and one image each are placed alike. -/
theorem packed_positions_of_two_images :
    ∃ pieces : List Piece,
      pieces.map Piece.tokenTypes = [[0, 1, 1, 1, 1], [0, 1, 1, 1, 1]] ∧
      pieces.flatMap Piece.grids = [⟨1, 4, 4⟩, ⟨1, 4, 4⟩] ∧
      ∀ piece ∈ pieces, piece.positionIds.Nodup := by
  have accepted : buildQwen35MropePositionIds (.single (List.replicate 10 7))
      (.single [0, 1, 1, 1, 1, 0, 1, 1, 1, 1]) (some [⟨1, 4, 4⟩, ⟨1, 4, 4⟩]) 2
      (some (.vector ([5, 5].map Int.ofNat))) =
        .ok ((List.replicate 2 [⟨0, 0, 0⟩, ⟨1, 1, 1⟩, ⟨1, 1, 2⟩, ⟨1, 2, 1⟩,
          ⟨1, 2, 2⟩]).flatten.map some) := by decide +kernel
  have proper : ∀ grid ∈ (some [⟨1, 4, 4⟩, ⟨1, 4, 4⟩] : Option (List GridThw)).getD [],
      grid.Proper 2 := by
    intro grid member
    obtain rfl : grid = ⟨1, 4, 4⟩ := by simpa using member
    exact ⟨by decide, by decide, by decide, ⟨2, rfl⟩, ⟨2, rfl⟩⟩
  obtain ⟨pieces, types, taken, -, each⟩ := (packed_positions_as_alone 2 (List.replicate 10 7)
    [0, 1, 1, 1, 1, 0, 1, 1, 1, 1] rfl [5, 5] (by decide) rfl (by decide)
    (some [⟨1, 4, 4⟩, ⟨1, 4, 4⟩]) proper).2 _ accepted
  exact ⟨pieces, types, taken, fun piece member => (each piece member).2.2.2.2⟩

end PrimeRl.Models.Mrope
