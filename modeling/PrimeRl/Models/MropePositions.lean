import Mathlib.Algebra.BigOperators.Group.List.Basic
import Mathlib.Algebra.Ring.Int.Defs
import Mathlib.Algebra.Ring.Nat
import Mathlib.Data.List.Nodup
import Mathlib.Data.Nat.Cast.Basic
import PrimeRl.Models.Mrope

/-!
# Positions along a segment

An image fills a block of its merged grid, and everything after it starts behind
the block's larger side. On the height axis the blocks of a segment therefore
rise one after the other, whatever the temporal and width axes do, which keeps
the positions of a segment apart.
-/

namespace PrimeRl.Models.Mrope

/-! ## The block of an image -/

/-- The positions of a grid, frame by frame and row by row. -/
def gridPositions (temporal height width : List Nat) : List Position :=
  temporal.flatMap (fun frame => height.flatMap (fun row => width.map (fun column =>
    ⟨frame, row, column⟩)))

theorem stack_append (temporal height width temporal' height' width' : List Nat)
    (first : temporal.length = height.length) (second : height.length = width.length) :
    stack (temporal ++ temporal') (height ++ height') (width ++ width') =
      stack temporal height width ++ stack temporal' height' width' := by
  have inner : height.length = width.length := second
  have outer : temporal.length = (height.zip width).length := by
    rw [List.length_zip, ← inner, Nat.min_self]
    exact first
  rw [stack, List.zip_append inner, List.zip_append outer, List.map_append]
  rfl

theorem repeat_whole_length {Item : Type} (values : List Item) (times : Nat) :
    (repeatWhole values times).length = times * values.length := by
  simp [repeatWhole]

theorem repeat_interleave_length {Item : Type} (values : List Item) (times : Nat) :
    (repeatInterleave values times).length = values.length * times := by
  simp [repeatInterleave]

theorem stack_row (frame row : Nat) (width : List Nat) :
    stack (List.replicate width.length frame) (List.replicate width.length row) width =
      width.map (fun column => ⟨frame, row, column⟩) := by
  induction width with
  | nil => rfl
  | cons column width inductionHypothesis =>
    rw [List.map_cons, ← inductionHypothesis]
    rfl

theorem stack_frame (frame : Nat) (height width : List Nat) :
    stack (List.replicate (height.length * width.length) frame)
        (repeatInterleave height width.length) (repeatWhole width height.length) =
      height.flatMap (fun row => width.map (fun column => ⟨frame, row, column⟩)) := by
  induction height with
  | nil => simp [stack, repeatInterleave]
  | cons row height inductionHypothesis =>
    have frames : List.replicate ((row :: height).length * width.length) frame =
        List.replicate width.length frame ++
          List.replicate (height.length * width.length) frame := by
      rw [List.length_cons, Nat.succ_mul, Nat.add_comm, List.replicate_add]
    have widths : repeatWhole width (row :: height).length =
        width ++ repeatWhole width height.length := by
      rw [repeatWhole, List.length_cons, List.replicate_succ, List.flatten_cons]
      rfl
    have rows : repeatInterleave (row :: height) width.length =
        List.replicate width.length row ++ repeatInterleave height width.length := rfl
    rw [frames, widths, rows, stack_append _ _ _ _ _ _ (by simp) (by simp), stack_row,
      inductionHypothesis, List.flatMap_cons]

theorem stack_grid (temporal height width : List Nat) :
    stack (repeatInterleave temporal (height.length * width.length))
        (repeatWhole (repeatInterleave height width.length) temporal.length)
        (repeatWhole width (height.length * temporal.length)) =
      gridPositions temporal height width := by
  induction temporal with
  | nil => simp [stack, repeatInterleave, gridPositions]
  | cons frame temporal inductionHypothesis =>
    have widths : repeatWhole width (height.length * (frame :: temporal).length) =
        repeatWhole width height.length ++
          repeatWhole width (height.length * temporal.length) := by
      simp only [repeatWhole]
      rw [List.length_cons, Nat.mul_succ, Nat.add_comm, List.replicate_add, List.flatten_append]
    have rows : repeatWhole (repeatInterleave height width.length) (frame :: temporal).length =
        repeatInterleave height width.length ++
          repeatWhole (repeatInterleave height width.length) temporal.length := by
      simp only [repeatWhole]
      rw [List.length_cons, List.replicate_succ, List.flatten_cons]
    have frames : repeatInterleave (frame :: temporal) (height.length * width.length) =
        List.replicate (height.length * width.length) frame ++
          repeatInterleave temporal (height.length * width.length) := rfl
    rw [frames, rows, widths, stack_append, stack_frame, inductionHypothesis]
    · rfl
    · rw [List.length_replicate, repeat_interleave_length]
    · rw [repeat_interleave_length, repeat_whole_length]

/-- The tokens of an image. -/
def imageTokens (spatialMergeSize : Nat) (gridThw : GridThw) : Nat :=
  gridThw.t * (gridThw.h / spatialMergeSize * (gridThw.w / spatialMergeSize))

/-- How far an image moves the position on. -/
def imageAdvance (spatialMergeSize : Nat) (gridThw : GridThw) : Nat :=
  max gridThw.h gridThw.w / spatialMergeSize

theorem vision_positions_eq (spatialMergeSize currentPos : Nat) (gridThw : GridThw) :
    visionPositions spatialMergeSize currentPos gridThw =
      gridPositions ((List.range gridThw.t).map (· + currentPos))
        ((List.range (gridThw.h / spatialMergeSize)).map (· + currentPos))
        ((List.range (gridThw.w / spatialMergeSize)).map (· + currentPos)) := by
  rw [← stack_grid]
  simp [visionPositions, getQwen35VisionPositionIds, repeatInterleave, List.map_flatMap,
    List.flatMap_map]

theorem grid_positions_length (temporal height width : List Nat) :
    (gridPositions temporal height width).length =
      temporal.length * (height.length * width.length) := by
  simp [gridPositions, List.length_flatMap]

theorem mem_grid_positions (temporal height width : List Nat) (position : Position) :
    position ∈ gridPositions temporal height width ↔
      position.temporal ∈ temporal ∧ position.height ∈ height ∧ position.width ∈ width := by
  simp only [gridPositions, List.mem_flatMap, List.mem_map]
  constructor
  · rintro ⟨frame, frameListed, row, rowListed, column, columnListed, rfl⟩
    exact ⟨frameListed, rowListed, columnListed⟩
  · rintro ⟨frameListed, rowListed, columnListed⟩
    exact ⟨_, frameListed, _, rowListed, _, columnListed, rfl⟩

/-- A grid on distinct frames, rows and columns has distinct positions. -/
theorem grid_positions_nodup {temporal height width : List Nat} (frames : temporal.Nodup)
    (rows : height.Nodup) (columns : width.Nodup) :
    (gridPositions temporal height width).Nodup := by
  have row : ∀ frame place, (width.map (fun column => (⟨frame, place, column⟩ : Position))).Nodup :=
    fun frame place => columns.map (fun _ _ same => (Position.mk.inj same).2.2)
  have frame : ∀ place, (height.flatMap (fun row => width.map (fun column =>
      (⟨place, row, column⟩ : Position)))).Nodup := by
    intro place
    refine List.nodup_flatMap.mpr ⟨fun other _ => row place other, rows.imp ?_⟩
    intro first second different position inFirst inSecond
    obtain ⟨_, -, rfl⟩ := List.mem_map.mp inFirst
    obtain ⟨_, -, same⟩ := List.mem_map.mp inSecond
    exact different (Position.mk.inj same).2.1.symm
  refine List.nodup_flatMap.mpr ⟨fun place _ => frame place, frames.imp ?_⟩
  intro first second different position inFirst inSecond
  simp only [List.mem_flatMap, List.mem_map] at inFirst inSecond
  obtain ⟨_, -, _, -, rfl⟩ := inFirst
  obtain ⟨_, -, _, -, same⟩ := inSecond
  exact different (Position.mk.inj same).1.symm

variable (spatialMergeSize currentPos : Nat) (gridThw : GridThw)

theorem vision_positions_length :
    (visionPositions spatialMergeSize currentPos gridThw).length =
      imageTokens spatialMergeSize gridThw := by
  rw [vision_positions_eq, grid_positions_length]
  simp only [List.length_map, List.length_range]
  rfl

theorem vision_positions_nodup :
    (visionPositions spatialMergeSize currentPos gridThw).Nodup := by
  have shifted : ∀ count, ((List.range count).map (· + currentPos)).Nodup :=
    fun count => List.nodup_range.map (fun _ _ same => Nat.add_right_cancel same)
  rw [vision_positions_eq]
  exact grid_positions_nodup (shifted _) (shifted _) (shifted _)

/-- On the height axis an image stays below where its successor starts. -/
theorem vision_positions_height (position : Position)
    (member : position ∈ visionPositions spatialMergeSize currentPos gridThw) :
    currentPos ≤ position.height ∧
      position.height < currentPos + imageAdvance spatialMergeSize gridThw := by
  rw [vision_positions_eq, mem_grid_positions] at member
  obtain ⟨row, inside, same⟩ := List.mem_map.mp member.2.1
  have below := List.mem_range.mp inside
  have larger : gridThw.h / spatialMergeSize ≤ imageAdvance spatialMergeSize gridThw :=
    Nat.div_le_div_right (Nat.le_max_left _ _)
  omega

/-! ## Blocks of a segment -/

/-- The blocks of consecutive images. -/
def visionBlocks (spatialMergeSize : Nat) : Nat → List GridThw → List (List Position)
  | _, [] => []
  | currentPos, gridThw :: others =>
      visionPositions spatialMergeSize currentPos gridThw ::
        visionBlocks spatialMergeSize (currentPos + imageAdvance spatialMergeSize gridThw) others

/-- Runs of tokens with the grids that fill their images, and the blocks of positions they get.
Runs of text take no grid; a run of image tokens takes as many as fill it exactly. -/
inductive Laid (spatialMergeSize : Nat) :
    Nat → List (Int × Nat) → List GridThw → List (List Position) → Prop where
  | done (currentPos : Nat) : Laid spatialMergeSize currentPos [] [] []
  | text {currentPos groupLen : Nat} {groups : List (Int × Nat)} {grids : List GridThw}
      {blocks : List (List Position)}
      (others : Laid spatialMergeSize (currentPos + groupLen) groups grids blocks) :
      Laid spatialMergeSize currentPos ((0, groupLen) :: groups) grids
        (textPositions currentPos groupLen :: blocks)
  | images {currentPos groupLen : Nat} {groups : List (Int × Nat)} {grids : List GridThw}
      {blocks : List (List Position)} (here : List GridThw)
      (filled : (here.map (imageTokens spatialMergeSize)).sum = groupLen)
      (others : Laid spatialMergeSize
        (currentPos + (here.map (imageAdvance spatialMergeSize)).sum) groups grids blocks) :
      Laid spatialMergeSize currentPos ((1, groupLen) :: groups) (here ++ grids)
        (visionBlocks spatialMergeSize currentPos here ++ blocks)

theorem text_positions_append (currentPos first second : Nat) :
    textPositions currentPos (first + second) =
      textPositions currentPos first ++ textPositions (currentPos + first) second := by
  simp only [textPositions, List.range_add, List.map_append, List.map_map]
  congr 1
  apply List.map_congr_left
  intro place _
  simp only [Function.comp_apply, Position.mk.injEq]
  omega

theorem vision_blocks_length (images : List GridThw) (start : Nat) :
    (visionBlocks spatialMergeSize start images).flatten.length =
      (images.map (imageTokens spatialMergeSize)).sum := by
  induction images generalizing start with
  | nil => rfl
  | cons image others inductionHypothesis =>
    rw [visionBlocks, List.flatten_cons, List.length_append, vision_positions_length,
      inductionHypothesis, List.map_cons, List.sum_cons]

/-- The blocks of a segment have one position for each token. -/
theorem Laid.length_eq {start : Nat} {groups : List (Int × Nat)} {grids : List GridThw}
    {blocks : List (List Position)} (laid : Laid spatialMergeSize start groups grids blocks) :
    blocks.flatten.length = (groups.map Prod.snd).sum := by
  induction laid with
  | done => rfl
  | text others inductionHypothesis =>
    rw [List.flatten_cons, List.length_append, inductionHypothesis]
    simp [textPositions]
  | images here filled others inductionHypothesis =>
    rw [List.flatten_append, List.length_append, inductionHypothesis, vision_blocks_length, filled,
      List.map_cons, List.sum_cons]

/-! ## Positions apart -/

/-- Parts that an axis separates stay apart. -/
theorem nodup_append_of_axis {Item : Type} (axis : Item → Nat) (bound : Nat)
    {first second : List Item} (firstApart : first.Nodup) (secondApart : second.Nodup)
    (below : ∀ item ∈ first, axis item < bound) (above : ∀ item ∈ second, bound ≤ axis item) :
    (first ++ second).Nodup := by
  refine List.nodup_append.mpr ⟨firstApart, secondApart, ?_⟩
  rintro item inFirst other inSecond rfl
  exact Nat.not_lt.mpr (above item inSecond) (below item inFirst)

theorem text_positions_height (groupLen : Nat) (position : Position)
    (member : position ∈ textPositions currentPos groupLen) :
    currentPos ≤ position.height ∧ position.height < currentPos + groupLen := by
  obtain ⟨place, inside, rfl⟩ := List.mem_map.mp member
  have below := List.mem_range.mp inside
  dsimp only
  omega

theorem text_positions_nodup (groupLen : Nat) : (textPositions currentPos groupLen).Nodup := by
  apply List.nodup_range.map
  intro first second same
  have sameTemporal := (Position.mk.inj same).1
  omega

/-- The blocks of consecutive images rise on the height axis. -/
theorem vision_blocks_rise (images : List GridThw) (start : Nat) :
    (visionBlocks spatialMergeSize start images).flatten.Nodup ∧
      ∀ position ∈ (visionBlocks spatialMergeSize start images).flatten,
        start ≤ position.height ∧
          position.height < start + (images.map (imageAdvance spatialMergeSize)).sum := by
  induction images generalizing start with
  | nil => exact ⟨List.nodup_nil, fun position impossible => absurd impossible List.not_mem_nil⟩
  | cons image others inductionHypothesis =>
    obtain ⟨apart, rising⟩ := inductionHypothesis (start + imageAdvance spatialMergeSize image)
    have here := vision_positions_height spatialMergeSize start image
    simp only [visionBlocks, List.flatten_cons, List.map_cons, List.sum_cons]
    refine ⟨?_, ?_⟩
    · exact nodup_append_of_axis Position.height (start + imageAdvance spatialMergeSize image)
        (vision_positions_nodup _ _ _) apart (fun position member => (here position member).2)
        (fun position member => (rising position member).1)
    · intro position member
      rcases List.mem_append.mp member with first | later
      · have within := here position first
        omega
      · have within := rising position later
        omega

/-- The blocks of a segment rise on the height axis, so no position is given twice. -/
theorem Laid.rise {start : Nat} {groups : List (Int × Nat)} {grids : List GridThw}
    {blocks : List (List Position)} (laid : Laid spatialMergeSize start groups grids blocks) :
    blocks.flatten.Nodup ∧ ∀ position ∈ blocks.flatten, start ≤ position.height := by
  induction laid with
  | done => exact ⟨List.nodup_nil, fun position impossible => absurd impossible List.not_mem_nil⟩
  | @text currentPos groupLen groups grids blocks others inductionHypothesis =>
    obtain ⟨apart, rising⟩ := inductionHypothesis
    have here := text_positions_height currentPos groupLen
    rw [List.flatten_cons]
    refine ⟨?_, ?_⟩
    · exact nodup_append_of_axis Position.height (currentPos + groupLen)
        (text_positions_nodup currentPos groupLen) apart
        (fun position member => (here position member).2) rising
    · intro position member
      rcases List.mem_append.mp member with first | later
      · exact (here position first).1
      · exact Nat.le_trans (Nat.le_add_right _ _) (rising position later)
  | @images currentPos groupLen groups grids blocks here filled others inductionHypothesis =>
    obtain ⟨apart, rising⟩ := inductionHypothesis
    obtain ⟨imagesApart, imagesRising⟩ := vision_blocks_rise spatialMergeSize here currentPos
    rw [List.flatten_append]
    refine ⟨?_, ?_⟩
    · exact nodup_append_of_axis Position.height _ imagesApart apart
        (fun position member => (imagesRising position member).2) rising
    · intro position member
      rcases List.mem_append.mp member with first | later
      · exact (imagesRising position first).1
      · exact Nat.le_trans (Nat.le_add_right _ _) (rising position later)

/-- Without images the positions are consecutive. -/
theorem Laid.text_only {start : Nat} {groups : List (Int × Nat)} {grids : List GridThw}
    {blocks : List (List Position)} (laid : Laid spatialMergeSize start groups grids blocks)
    (textual : ∀ group ∈ groups, group.1 = 0) :
    grids = [] ∧ blocks.flatten = textPositions start (groups.map Prod.snd).sum := by
  induction laid with
  | done => exact ⟨rfl, rfl⟩
  | text others inductionHypothesis =>
    obtain ⟨none, same⟩ := inductionHypothesis (List.forall_mem_cons.mp textual).2
    rw [List.flatten_cons, same, List.map_cons, List.sum_cons, text_positions_append]
    exact ⟨none, rfl⟩
  | images here filled others =>
    have impossible : (1 : Int) = 0 := (List.forall_mem_cons.mp textual).1
    omega

end PrimeRl.Models.Mrope
