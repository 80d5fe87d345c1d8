import Mathlib.Algebra.Ring.Int.Defs
import Mathlib.Algebra.Ring.Nat
import Mathlib.Data.List.SplitBy
import PrimeRl.Support.Fallible
import PrimeRl.Support.Tensor

/-!
# Multimodal rotary positions

Every token has a position on three axes. Text advances all of them together.
The tokens of an image are laid out on the image's merged grid, and the text
after it goes on behind the larger side of the grid. Positions restart at each
packed segment, while one iterator hands out the grids across the segments.
-/

namespace PrimeRl.Models.Mrope

/-- The frames, the height and the width of an image, in patches. -/
structure GridThw where
  t : Nat
  h : Nat
  w : Nat
deriving DecidableEq, Repr

/-- One column of the three axes. -/
structure Position where
  temporal : Nat
  height : Nat
  width : Nat
deriving DecidableEq, Repr

/-! ## Images -/

universe u
variable {Item : Type u}

/-- `tensor.repeat(times)`. -/
def repeatWhole (values : List Item) (times : Nat) : List Item :=
  (List.replicate times values).flatten

def repeatInterleave (values : List Item) (times : Nat) : List Item :=
  values.flatMap (List.replicate times)

/-- Three axes of one length as columns. -/
def stack (temporal height width : List Nat) : List Position :=
  (temporal.zip (height.zip width)).map (fun column => ⟨column.1, column.2.1, column.2.2⟩)

def getQwen35VisionPositionIds (startPosition : Nat) (gridThw : GridThw)
    (spatialMergeSize tempMergeSize timeInterval : Nat) : List Position :=
  let llmGridT := gridThw.t / tempMergeSize
  let llmGridH := gridThw.h / spatialMergeSize
  let llmGridW := gridThw.w / spatialMergeSize
  let positionTemporal := (List.range llmGridT).map (· * timeInterval)
  let positionHeight := (List.range llmGridH).map (· + startPosition)
  let positionWidth := (List.range llmGridW).map (· + startPosition)
  stack ((repeatInterleave positionTemporal (llmGridH * llmGridW)).map (· + startPosition))
    (repeatWhole (repeatInterleave positionHeight llmGridW) llmGridT)
    (repeatWhole positionWidth (llmGridH * llmGridT))

/-- The positions of an image as the builder asks for them. -/
def visionPositions (spatialMergeSize currentPos : Nat) (gridThw : GridThw) : List Position :=
  getQwen35VisionPositionIds currentPos gridThw spatialMergeSize 1 1

/-- Text advances every axis by one. -/
def textPositions (currentPos groupLen : Nat) : List Position :=
  (List.range groupLen).map
    (fun place => ⟨place + currentPos, place + currentPos, place + currentPos⟩)

/-- Take grids from the iterator until they fill what remains of a run of image tokens. -/
def fillImages (spatialMergeSize groupLen : Nat) :
    Nat → Nat → List GridThw → Except String (List (List Position) × Nat × List GridThw)
  | 0, currentPos, imageGrids => .ok ([], currentPos, imageGrids)
  | _ + 1, _, [] => .error "Not enough image_grid_thw rows for image token groups"
  | remaining + 1, currentPos, gridThw :: imageGrids =>
      let vision := visionPositions spatialMergeSize currentPos gridThw
      let imageLen := vision.length
      if imageLen > remaining + 1 then
        .error (s!"Image token group length does not match image_grid_thw-derived token count: " ++
          s!"group_len={groupLen}, grid_thw={[gridThw.t, gridThw.h, gridThw.w]}, " ++
          s!"derived={imageLen}, spatial_merge_size={spatialMergeSize}")
      else
        (fillImages spatialMergeSize groupLen (remaining + 1 - imageLen)
          (currentPos + max gridThw.h gridThw.w / spatialMergeSize) imageGrids).map
          (fun filled => (vision :: filled.1, filled.2))

/-! ## Segments -/

/-- Maximal runs of one type, with their lengths. -/
def groupby (tokenTypes : List Int) : List (Int × Nat) :=
  (tokenTypes.splitBy (· == ·)).map (fun group => (group.headD 0, group.length))

/-- What is built of a segment. Without image grids there is no iterator. -/
structure Building where
  segmentPositions : List (List Position)
  currentPos : Nat
  imageGrids : Option (List GridThw)
deriving DecidableEq

def placeGroup (spatialMergeSize : Nat) (building : Building) (group : Int × Nat) :
    Except String Building :=
  let (modalityType, groupLen) := group
  if modalityType = 0 then
    .ok { building with
      segmentPositions :=
        building.segmentPositions ++ [textPositions building.currentPos groupLen]
      currentPos := building.currentPos + groupLen }
  else if modalityType = 2 then
    .error "Qwen3.5 video MRoPE is not supported by the custom trainer path yet"
  else if modalityType ≠ 1 then
    .error s!"Unsupported Qwen3.5 multimodal token type: {modalityType}"
  else
    match building.imageGrids with
    | none =>
        .error "image_grid_thw is required when mm_token_type_ids contains image tokens"
    | some imageGrids =>
        (fillImages spatialMergeSize groupLen groupLen building.currentPos imageGrids).map
          (fun filled =>
            { segmentPositions := building.segmentPositions ++ filled.1
              currentPos := filled.2.1
              imageGrids := some filled.2.2 })

def placeGroups (spatialMergeSize : Nat) : Building → List (Int × Nat) → Except String Building
  | building, [] => .ok building
  | building, group :: groups =>
      match placeGroup spatialMergeSize building group with
      | .error message => .error message
      | .ok next => placeGroups spatialMergeSize next groups

/-- The positions of one segment, and the grids that are left. -/
def segmentPositionIds (spatialMergeSize seqLen : Nat) (tokenTypes : List Int)
    (imageGrids : Option (List GridThw)) :
    Except String (List Position × Option (List GridThw)) := do
  let built ← placeGroups spatialMergeSize ⟨[], 0, imageGrids⟩ (groupby tokenTypes)
  if built.segmentPositions = [] then
    .error "Cannot build MRoPE positions for an empty sequence segment"
  else
    let positionIds := built.segmentPositions.flatten
    if positionIds.length ≠ seqLen then
      .error s!"Built MRoPE length does not match segment length: {positionIds.length} vs {seqLen}"
    else .ok (positionIds, built.imageGrids)

/-! ## The whole sequence -/

/-- `all_positions[:, 0, offset : offset + seq_len] = values`. -/
def writeSlice (allPositions : List (Option Position)) (offset : Nat) (values : List Position) :
    List (Option Position) :=
  allPositions.take offset ++ values.map some ++ allPositions.drop (offset + values.length)

/-- Place segment after segment, from an offset on. -/
def placeSegments (spatialMergeSize : Nat) (tokenTypes : List Int) :
    Nat → List (Option Position) → Option (List GridThw) → List Nat →
      Except String (List (Option Position) × Option (List GridThw))
  | _, allPositions, imageGrids, [] => .ok (allPositions, imageGrids)
  | offset, allPositions, imageGrids, seqLen :: seqLens => do
      let (positionIds, imageGrids) ← segmentPositionIds spatialMergeSize seqLen
        ((tokenTypes.drop offset).take seqLen) imageGrids
      placeSegments spatialMergeSize tokenTypes (offset + seqLen)
        (writeSlice allPositions offset positionIds) imageGrids seqLens

/-- The check that the iterator is exhausted. -/
def checkUnused (imageGrids : Option (List GridThw)) : Except String Unit :=
  match imageGrids with
  | some (extraGrid :: _) =>
      .error s!"Unused image_grid_thw row while building MRoPE positions: {[extraGrid.t, extraGrid.h, extraGrid.w]}"
  | _ => .ok ()

/-- One position for each token; a cell that was never written has none. -/
def buildQwen35MropePositionIds (inputIds mmTokenTypeIds : Tensor Int)
    (imageGridThw : Option (List GridThw)) (spatialMergeSize : Nat)
    (seqLens : Option (Tensor Int)) : Except String (List (Option Position)) :=
  if inputIds.shape.length ≠ 2 then
    .error s!"input_ids must be 2D, got shape={inputIds.shape}"
  else if mmTokenTypeIds.shape ≠ inputIds.shape then
    .error (s!"mm_token_type_ids must match input_ids shape: " ++
      s!"mm_token_type_ids={mmTokenTypeIds.shape}, input_ids={inputIds.shape}")
  else if inputIds.shape.headD 0 ≠ 1 then
    .error "Packed Qwen3.5 MRoPE builder currently supports batch size 1"
  else
    let totalSeqLen := inputIds.shape.getD 1 0
    let seqLens := seqLens.getD (Tensor.vector [(totalSeqLen : Int)])
    if seqLens.shape.length ≠ 1 then
      .error s!"seq_lens must be 1D, got shape={seqLens.shape}"
    else if ∃ seqLen ∈ seqLens.data, seqLen ≤ 0 then
      .error s!"seq_lens must be positive, got {seqLens.data}"
    else if seqLens.data.sum ≠ totalSeqLen then
      .error s!"seq_lens sum must equal sequence length: {seqLens.data} vs {totalSeqLen}"
    else do
      let (allPositions, imageGrids) ← placeSegments spatialMergeSize (mmTokenTypeIds.row 0) 0
        (List.replicate totalSeqLen none) imageGridThw (seqLens.data.map Int.toNat)
      checkUnused imageGrids
      return allPositions

end PrimeRl.Models.Mrope
