import PrimeRl.Support.Spans
import PrimeRl.Trainer.PrepareBatch

/-!
# Truncation between images

Images occupy runs of placeholder tokens, each with the same number of patches
per token. A sample that is too long is cut at the last point that is not inside
an image, and what it carries of its images afterwards are the rows of those that
end by the cut.
-/

namespace PrimeRl.Trainer.Batch

open PrimeRl.Transport

/-- An image in a token sequence: the text tokens in front of it, its placeholders, and
its rows in the grid and in the pixel values. -/
structure PlacedImage (perToken : Nat) where
  gap : Nat
  marks : List Nat
  gridRow : List UInt8
  patches : List (List UInt8)
  marked : ∀ mark ∈ marks, mark ≠ 0
  nonempty : 0 < marks.length
  measured : patches.length = perToken * marks.length

variable {perToken : Nat}

namespace PlacedImage

def size (image : PlacedImage perToken) : Nat × Nat := (image.gap, image.marks.length)

def tokens (image : PlacedImage perToken) : Nat := image.marks.length

end PlacedImage

/-- The token types of text with images, where text follows the last one. -/
def layout : List (PlacedImage perToken) → Nat → List Nat
  | [], tail => List.replicate tail 0
  | image :: rest, tail => List.replicate image.gap 0 ++ (image.marks ++ layout rest tail)

/-- The spans of the images. -/
def imageSpans (images : List (PlacedImage perToken)) : List (Nat × Nat) :=
  Spans.bounds 0 (images.map PlacedImage.size)

/-- The images whose placeholders all lie before a point. -/
def imagesBefore (point : Nat) (images : List (PlacedImage perToken)) : List (PlacedImage perToken) :=
  Spans.endingBy point 0 PlacedImage.size images

def tokenSum (images : List (PlacedImage perToken)) : Nat := (images.map PlacedImage.tokens).sum

/-! ## Counting placeholders -/

theorem surviving_text (tail limit : Nat) : survivingTokens (List.replicate tail 0) limit = 0 := by
  rw [survivingTokens, List.countP_eq_zero]
  intro type member
  simp [List.eq_of_mem_replicate (List.mem_of_mem_take member)]

theorem surviving_none (types : List Nat) : survivingTokens types 0 = 0 := by
  rw [survivingTokens, List.take_zero, List.countP_nil]

/-- Of an image, the placeholders before a limit survive. -/
theorem surviving_image (image : PlacedImage perToken) (rest : List (PlacedImage perToken))
    (tail limit : Nat) :
    survivingTokens (layout (image :: rest) tail) limit =
      min (limit - image.gap) image.tokens +
        survivingTokens (layout rest tail) (limit - (image.gap + image.tokens)) := by
  have own : (image.marks.take (limit - image.gap)).countP (fun type => decide (type ≠ 0)) =
      min (limit - image.gap) image.tokens := by
    rw [List.countP_eq_length.mpr, List.length_take]
    · rfl
    · intro mark member
      exact decide_eq_true (image.marked mark (List.mem_of_mem_take member))
  have text : ((List.replicate image.gap 0).take limit).countP (fun type => decide (type ≠ 0)) = 0 :=
    surviving_text image.gap limit
  rw [survivingTokens, layout, List.take_append, List.countP_append, text, Nat.zero_add,
    List.length_replicate, List.take_append, List.countP_append, own, survivingTokens, Nat.sub_sub]
  rfl

theorem layout_tokens (images : List (PlacedImage perToken)) (tail : Nat) :
    (layout images tail).countP (fun type => decide (type ≠ 0)) = tokenSum images := by
  induction images with
  | nil => simp [layout, tokenSum]
  | cons image rest inductionHypothesis =>
    have own : image.marks.countP (fun type => decide (type ≠ 0)) = image.tokens :=
      List.countP_eq_length.mpr (fun mark member => decide_eq_true (image.marked mark member))
    rw [layout, List.countP_append, List.countP_append, inductionHypothesis, own, tokenSum, tokenSum,
      List.map_cons, List.sum_cons]
    simp

/-! ## Where the sequence is cut -/

/-- The number of images before a limit, and the cut. -/
def imageCutAt (limit : Nat) (images : List (PlacedImage perToken)) : Nat × Nat :=
  Spans.cutAt limit (images.map PlacedImage.size)

variable (images rest : List (PlacedImage perToken)) (image : PlacedImage perToken)
  (tail limit : Nat)

theorem imageCutAt_split (inside : limit < image.gap + image.tokens) :
    imageCutAt limit (image :: rest) = (0, min limit image.gap) :=
  Spans.cutAt_split limit image.gap image.tokens _ inside

theorem imageCutAt_whole (past : image.gap + image.tokens ≤ limit) :
    imageCutAt limit (image :: rest) =
      ((imageCutAt (limit - (image.gap + image.tokens)) rest).1 + 1,
        image.gap + image.tokens + (imageCutAt (limit - (image.gap + image.tokens)) rest).2) :=
  Spans.cutAt_whole limit image.gap image.tokens _ past

/-- The loop over the images keeps those that end by the limit. -/
theorem kept_images_eq (kept acc : Nat) :
    keptImages (acc + survivingTokens (layout images tail) limit) kept acc
        (images.map PlacedImage.tokens) =
      (kept + (imageCutAt limit images).1,
        acc + tokenSum (images.take (imageCutAt limit images).1)) := by
  induction images generalizing limit kept acc with
  | nil => rfl
  | cons image rest inductionHypothesis =>
    rw [List.map_cons, keptImages, surviving_image]
    rcases Nat.lt_or_ge limit (image.gap + image.tokens) with inside | past
    · have beyond : limit - (image.gap + image.tokens) = 0 := by omega
      have positive := image.nonempty
      rw [imageCutAt_split rest image limit inside, beyond, surviving_none, if_pos]
      · rfl
      · change 0 < image.tokens at positive
        omega
    · have all : min (limit - image.gap) image.tokens = image.tokens := by omega
      rw [imageCutAt_whole rest image limit past, all, if_neg (by omega), ← Nat.add_assoc,
        inductionHypothesis (limit - (image.gap + image.tokens)), List.take_succ_cons, tokenSum,
        tokenSum, List.map_cons, List.sum_cons]
      simp only [Nat.add_assoc, Nat.add_comm 1]

theorem placeholder_past_text (target seen position gap : Nat) (types : List Nat) :
    placeholderAt target seen position (List.replicate gap 0 ++ types) =
      placeholderAt target seen (position + gap) types := by
  induction gap generalizing position with
  | zero => rfl
  | succ gap inductionHypothesis =>
    rw [List.replicate_succ, List.cons_append, placeholderAt, if_neg (by simp), inductionHypothesis,
      Nat.add_assoc, Nat.add_comm 1 gap]

theorem placeholder_past_marks (target seen position : Nat) (marks types : List Nat)
    (marked : ∀ mark ∈ marks, mark ≠ 0) (later : seen + marks.length < target) :
    placeholderAt target seen position (marks ++ types) =
      placeholderAt target (seen + marks.length) (position + marks.length) types := by
  induction marks generalizing seen position with
  | nil => rfl
  | cons mark marks inductionHypothesis =>
    rw [List.length_cons] at later
    rw [List.cons_append, placeholderAt, if_pos (marked mark List.mem_cons_self), if_neg (by omega),
      inductionHypothesis (seen + 1) (position + 1)
        (fun other member => marked other (List.mem_cons_of_mem mark member)) (by omega),
      List.length_cons, Nat.add_assoc, Nat.add_assoc, Nat.add_comm 1]

theorem placeholder_first (seen position : Nat) (mark : Nat) (types : List Nat) (marked : mark ≠ 0) :
    placeholderAt (seen + 1) seen position (mark :: types) = some position := by
  rw [placeholderAt, if_pos marked, if_pos rfl]

/-- Whole images survive where the limit is the cut. Otherwise the first placeholder that
is not one of theirs is at the cut. -/
theorem split_image_found (seen position : Nat) :
    (survivingTokens (layout images tail) limit =
        tokenSum (images.take (imageCutAt limit images).1) →
      (imageCutAt limit images).2 = limit) ∧
    (survivingTokens (layout images tail) limit ≠
        tokenSum (images.take (imageCutAt limit images).1) →
      placeholderAt (seen + tokenSum (images.take (imageCutAt limit images).1) + 1) seen position
        (layout images tail) = some (position + (imageCutAt limit images).2)) := by
  induction images generalizing limit seen position with
  | nil => exact ⟨fun _ => rfl, fun some => absurd (surviving_text tail limit) some⟩
  | cons image rest inductionHypothesis =>
    rw [surviving_image, layout]
    rcases Nat.lt_or_ge limit (image.gap + image.tokens) with inside | past
    · have beyond : limit - (image.gap + image.tokens) = 0 := by omega
      have positive : 0 < image.tokens := image.nonempty
      rw [imageCutAt_split rest image limit inside, beyond, surviving_none, Nat.add_zero,
        List.take_zero, show tokenSum ([] : List (PlacedImage perToken)) = 0 from rfl, Nat.add_zero]
      constructor
      · intro none
        dsimp only
        omega
      · intro some
        obtain ⟨mark, marks, listed⟩ := List.exists_cons_of_length_pos image.nonempty
        have marked : mark ≠ 0 := image.marked mark (listed ▸ List.mem_cons_self)
        rw [placeholder_past_text, listed, List.cons_append, placeholder_first _ _ _ _ marked]
        congr 2
        dsimp only
        omega
    · have all : min (limit - image.gap) image.tokens = image.tokens := by omega
      obtain ⟨whole, split⟩ := inductionHypothesis (limit - (image.gap + image.tokens))
        (seen + image.tokens) (position + image.gap + image.tokens)
      rw [imageCutAt_whole rest image limit past, all, List.take_succ_cons,
        show tokenSum (image :: rest.take (imageCutAt (limit - (image.gap + image.tokens)) rest).1) =
          image.tokens + tokenSum (rest.take (imageCutAt (limit - (image.gap + image.tokens)) rest).1)
          from rfl]
      constructor
      · intro same
        have found := whole (Nat.add_left_cancel same)
        dsimp only
        omega
      · intro different
        rw [placeholder_past_text, placeholder_past_marks _ _ _ _ _ image.marked
          (by change seen + image.tokens < _; omega), ← Nat.add_assoc]
        refine (split (fun same => different (congrArg _ same))).trans ?_
        congr 1
        dsimp only
        omega

/-- The cut of the code is the last point up to the limit that is not inside an image. -/
theorem image_cut_eq :
    imageCut (layout images tail) limit (tokenSum (images.take (imageCutAt limit images).1)) =
      (imageCutAt limit images).2 := by
  obtain ⟨whole, split⟩ := split_image_found images tail limit 0 0
  rw [imageCut]
  by_cases same : tokenSum (images.take (imageCutAt limit images).1) =
      survivingTokens (layout images tail) limit
  · rw [if_pos same, whole same.symm]
  · rw [Nat.zero_add, Nat.zero_add] at split
    rw [if_neg same, split (Ne.symm same), Option.getD_some]

/-- The placeholders before the cut are those of the images before it. -/
theorem surviving_cut :
    survivingTokens (layout images tail) (imageCutAt limit images).2 =
      tokenSum (images.take (imageCutAt limit images).1) := by
  induction images generalizing limit with
  | nil => exact surviving_text tail limit
  | cons image rest inductionHypothesis =>
    rw [surviving_image]
    rcases Nat.lt_or_ge limit (image.gap + image.tokens) with inside | past
    · rw [imageCutAt_split rest image limit inside]
      have before : min limit image.gap - image.gap = 0 := by omega
      have beyond : min limit image.gap - (image.gap + image.tokens) = 0 := by omega
      rw [before, beyond, surviving_none, Nat.zero_min]
      rfl
    · rw [imageCutAt_whole rest image limit past, List.take_succ_cons]
      dsimp only
      rw [Nat.add_sub_cancel_left, inductionHypothesis, Nat.add_assoc, Nat.add_sub_cancel_left,
        Nat.min_eq_right (Nat.le_add_right _ _)]
      rfl

theorem images_before_cut :
    imagesBefore (imageCutAt limit images).2 images = images.take (imageCutAt limit images).1 := by
  have ended := Spans.endingBy_cut limit 0 PlacedImage.size images (fun image _ => image.nonempty)
  rw [Nat.zero_add] at ended
  exact ended

/-! ## Rows of the images -/

/-- A tensor of rows, each with as many bytes as its dimensions and element type say. -/
structure Encodes (numpy : Numpy) (tensor : EncodedTensor) (rows : List (List UInt8)) : Prop where
  count : tensor.shape.head? = some rows.length
  width : ∀ row ∈ rows, row.length = (tensor.shape.drop 1).prod * numpy.itemsize tensor.dtype
  data : tensor.data = rows.flatten

/-- Slicing a tensor takes its first rows and keeps their shape and type. -/
theorem slice_encodes (numpy : Numpy) (tensor : EncodedTensor) (rows others : List (List UInt8))
    (encodes : Encodes numpy tensor (rows ++ others)) :
    Encodes numpy (sliceEncoded numpy tensor rows.length) rows where
  count := rfl
  width := fun row member => encodes.width row (List.mem_append_left others member)
  data := by
    have bytes : rows.length * (tensor.shape.drop 1).prod * numpy.itemsize tensor.dtype =
        rows.flatten.length := by
      have widths : rows.map List.length = List.replicate rows.length
          ((tensor.shape.drop 1).prod * numpy.itemsize tensor.dtype) := by
        rw [← List.map_const']
        apply List.map_congr_left
        intro row member
        exact encodes.width row (List.mem_append_left others member)
      rw [List.length_flatten, widths, List.sum_replicate_nat, Nat.mul_assoc]
    rw [sliceEncoded, encodes.data, List.flatten_append, bytes, List.take_left]

theorem lookup_sliced (change : String → EncodedTensor → EncodedTensor) (key : String)
    (kwargs : MmKwargs) :
    (kwargs.map (fun entry => (entry.1, change entry.1 entry.2))).lookup key =
      (kwargs.lookup key).map (change key) := by
  induction kwargs with
  | nil => rfl
  | cons entry rest inductionHypothesis =>
    obtain ⟨name, tensor⟩ := entry
    rw [List.map_cons, List.lookup_cons, List.lookup_cons]
    by_cases same : key = name
    · subst same
      rw [beq_self_eq_true]
      rfl
    · rw [beq_false_of_ne same]
      exact inductionHypothesis

/-- The grid and the pixel values of the arguments are the rows of the images. -/
structure ImageRows (numpy : Numpy) (kwargs : MmKwargs) (grid pixels : EncodedTensor)
    (images : List (PlacedImage perToken)) : Prop where
  hasGrid : kwargs.lookup "image_grid_thw" = some grid
  hasPixels : kwargs.lookup "pixel_values" = some pixels
  gridRows : Encodes numpy grid (images.map PlacedImage.gridRow)
  pixelRows : Encodes numpy pixels (images.flatMap PlacedImage.patches)

/-- Tensors of rows of one shape and element type. -/
def SameRowShape (first second : EncodedTensor) : Prop :=
  first.dtype = second.dtype ∧ first.shape.drop 1 = second.shape.drop 1

/-- What remains of the arguments: nothing without images, and their rows otherwise. -/
def ImageRowsKept (numpy : Numpy) (kept : Option MmKwargs) (grid pixels : EncodedTensor)
    (images : List (PlacedImage perToken)) : Prop :=
  match kept with
  | none => images = []
  | some sliced => images ≠ [] ∧ ∃ keptGrid keptPixels,
      ImageRows numpy sliced keptGrid keptPixels images ∧
        SameRowShape keptGrid grid ∧ SameRowShape keptPixels pixels

/-- Number of pixel rows of optional arguments. -/
def pixelRowCount (kept : Option MmKwargs) : Nat :=
  match kept.bind (fun sliced => sliced.lookup "pixel_values") with
  | none => 0
  | some pixels => pixels.shape.headD 0

theorem patch_count : (images.flatMap PlacedImage.patches).length = perToken * tokenSum images := by
  induction images with
  | nil => rfl
  | cons image rest inductionHypothesis =>
    rw [List.flatMap_cons, List.length_append, inductionHypothesis, image.measured, tokenSum,
      tokenSum, List.map_cons, List.sum_cons, Nat.mul_add]
    rfl

/-- The rows that remain are those of the images that remain. -/
theorem pixel_row_count (numpy : Numpy) (kept : Option MmKwargs) (grid pixels : EncodedTensor)
    (holds : ImageRowsKept numpy kept grid pixels images) :
    pixelRowCount kept = perToken * tokenSum images := by
  cases kept with
  | none =>
    obtain rfl : images = [] := holds
    rfl
  | some sliced =>
    obtain ⟨-, keptGrid, keptPixels, own, -⟩ := holds
    have rows : keptPixels.shape.headD 0 = (images.flatMap PlacedImage.patches).length := by
      rw [List.headD_eq_head?_getD, own.pixelRows.count, Option.getD_some]
    rw [pixelRowCount, Option.bind_some, own.hasPixels, ← patch_count]
    exact rows

theorem patches_per_token (some : images ≠ []) :
    patchesPerToken (layout images tail) (perToken * tokenSum images) = perToken := by
  obtain ⟨image, rest, rfl⟩ := List.exists_cons_of_ne_nil some
  have total : 0 < tokenSum (image :: rest) := by
    have own : 0 < image.tokens := image.nonempty
    rw [tokenSum, List.map_cons, List.sum_cons]
    omega
  simp only [patchesPerToken, layout_tokens]
  rw [if_pos (by omega), Nat.mul_div_cancel _ total]

/-- A sequence of images is cut where the spans say, and the arguments keep the images
before the cut. -/
theorem truncate_images_eq (numpy : Numpy) (kwargs : MmKwargs) (positive : 1 ≤ perToken) :
    truncateImages numpy (layout images tail) kwargs limit
        (images.map (fun image => image.patches.length)) (images.flatMap PlacedImage.patches).length =
      .ok ((imageCutAt limit images).2,
        if (imageCutAt limit images).1 = 0 then none
        else some (kwargs.map (fun entry => (entry.1, sliceEncoded numpy entry.2
          (if entry.1 = "image_grid_thw" then (imageCutAt limit images).1
            else ((images.take (imageCutAt limit images).1).flatMap PlacedImage.patches).length))))) := by
  obtain ⟨divisor, isDivisor⟩ : ∃ divisor, divisor =
    patchesPerToken (layout images tail) (images.flatMap PlacedImage.patches).length := ⟨_, rfl⟩
  have measured : images ≠ [] → divisor = perToken := by
    intro some
    rw [isDivisor, patch_count, patches_per_token images tail some]
  have divisible : ¬ (divisor = 0 ∧ images.map (fun image => image.patches.length) ≠ []) := by
    rintro ⟨zero, listed⟩
    have same := measured (fun none => listed (by rw [none, List.map_nil]))
    omega
  have tokens : (images.map (fun image => image.patches.length)).map (· / divisor) =
      images.map PlacedImage.tokens := by
    rw [List.map_map]
    apply List.map_congr_left
    intro image member
    have same := measured (List.ne_nil_of_mem member)
    rw [Function.comp_apply, same, image.measured, Nat.mul_div_cancel_left _ positive]
    rfl
  have loop := kept_images_eq images tail limit 0 0
  rw [Nat.zero_add, Nat.zero_add, Nat.zero_add] at loop
  have patches : ((images.map (fun image => image.patches.length)).take
      (imageCutAt limit images).1).sum =
        ((images.take (imageCutAt limit images).1).flatMap PlacedImage.patches).length := by
    rw [List.length_flatMap, List.map_take]
  simp only [truncateImages]
  rw [← isDivisor, if_neg divisible, tokens, loop, image_cut_eq, patches]

/-- The arguments that are kept hold the rows of the images before the cut. -/
theorem kept_holds (numpy : Numpy) (kwargs : MmKwargs) (grid pixels : EncodedTensor)
    (holds : ImageRows numpy kwargs grid pixels images) (kept : Nat) (within : kept ≤ images.length) :
    ImageRowsKept numpy
      (if kept = 0 then none
        else some (kwargs.map (fun entry => (entry.1, sliceEncoded numpy entry.2
          (if entry.1 = "image_grid_thw" then kept
            else ((images.take kept).flatMap PlacedImage.patches).length)))))
      grid pixels (images.take kept) := by
  by_cases zero : kept = 0
  · rw [if_pos zero, zero, List.take_zero]
    rfl
  · rw [if_neg zero]
    have rowsKept : ((images.take kept).map PlacedImage.gridRow).length = kept := by
      rw [List.length_map, List.length_take, Nat.min_eq_left within]
    have gridSplit := holds.gridRows
    have pixelSplit := holds.pixelRows
    rw [← List.take_append_drop kept images, List.map_append] at gridSplit
    rw [← List.take_append_drop kept images, List.flatMap_append] at pixelSplit
    have keptGrid := slice_encodes numpy grid _ _ gridSplit
    have keptPixels := slice_encodes numpy pixels _ _ pixelSplit
    rw [rowsKept] at keptGrid
    obtain ⟨change, isChange⟩ : ∃ change : String → EncodedTensor → EncodedTensor,
      change = fun key tensor => sliceEncoded numpy tensor (if key = "image_grid_thw" then kept
        else ((images.take kept).flatMap PlacedImage.patches).length) := ⟨_, rfl⟩
    have found (key : String) := lookup_sliced change key kwargs
    have some : images.take kept ≠ [] := by
      intro none
      have count := congrArg List.length none
      rw [List.length_take, Nat.min_eq_left within] at count
      exact zero count
    refine ⟨some, sliceEncoded numpy grid kept,
      sliceEncoded numpy pixels ((images.take kept).flatMap PlacedImage.patches).length, ?_,
      ⟨rfl, rfl⟩, ⟨rfl, rfl⟩⟩
    have gridFound := found "image_grid_thw"
    have pixelsFound := found "pixel_values"
    rw [holds.hasGrid, Option.map_some, isChange] at gridFound
    rw [holds.hasPixels, Option.map_some, isChange] at pixelsFound
    exact ⟨gridFound, pixelsFound, keptGrid, keptPixels⟩

/-! ## Truncated samples -/

/-- A cut at the last point that is not inside an image, with the rows of the images that
end by it. -/
structure CutBetween (numpy : Numpy) (grid pixels : EncodedTensor)
    (images : List (PlacedImage perToken)) (seqLen cut : Nat) (kept : Option MmKwargs) : Prop where
  within : cut ≤ seqLen
  clear : Spans.Clear (imageSpans images) cut
  greatest : ∀ point ≤ seqLen, Spans.Clear (imageSpans images) point → point ≤ cut
  rows : ImageRowsKept numpy kept grid pixels (imagesBefore cut images)

/-- A sample has a pixel row for each patch of its placeholders. -/
def PatchesMatch (perToken : Nat) {Scalar : Type} (prepared : MicroBatch Scalar) : Prop :=
  ∃ types, prepared.mmTokenTypeIds = some types ∧
    types.countP (fun type => decide (type ≠ 0)) * perToken = pixelRowCount prepared.mmKwargs

theorem truncate_mm_cuts (numpy : Numpy) (kwargs : MmKwargs) (grid pixels : EncodedTensor)
    (grids : List (List Nat)) (positive : 1 ≤ perToken)
    (rows : ImageRows numpy kwargs grid pixels images) (read : numpy.rows grid = .ok grids)
    (sizes : grids.map List.prod = images.map (fun image => image.patches.length)) :
    ∃ kept, truncateMm numpy (layout images tail) kwargs limit =
        .ok ((imageCutAt limit images).2, kept) ∧
      CutBetween numpy grid pixels images limit (imageCutAt limit images).2 kept := by
  have inside : (imageCutAt limit images).1 ≤ images.length := by
    have all := Spans.cut_kept_le limit (images.map PlacedImage.size)
    rwa [List.length_map] at all
  have measured : truncateMm numpy (layout images tail) kwargs limit =
      truncateImages numpy (layout images tail) kwargs limit
        (images.map (fun image => image.patches.length))
        (images.flatMap PlacedImage.patches).length := by
    simp only [truncateMm, rows.hasGrid, read, rows.hasPixels, rows.pixelRows.count, sizes]
  have truncated := measured.trans (truncate_images_eq images tail limit numpy kwargs positive)
  refine ⟨_, truncated, ?_⟩
  · have clear := Spans.cut_clear limit (images.map PlacedImage.size) 0
    have greatest (point : Nat) := Spans.cut_greatest limit (images.map PlacedImage.size) 0 point
    rw [Nat.zero_add] at clear
    simp only [Nat.zero_add] at greatest
    refine ⟨Spans.cut_le limit _, clear, greatest, ?_⟩
    rw [images_before_cut]
    exact kept_holds images numpy kwargs grid pixels rows _ inside

section
variable {Scalar : Type} [Zero Scalar] [DecidableEq Scalar]

/-- What preparing does to the image fields of a sample that is cut. -/
theorem prepared_cut (numpy : Numpy) (sample : TrainingSample Scalar) (seqLen cut : Nat)
    (kept : Option MmKwargs) (types : List Nat) (kwargs : MmKwargs)
    (hasTypes : sample.mmTokenTypeIds = some types) (hasKwargs : sample.mmKwargs = some kwargs)
    (long : seqLen < sample.tokenIds.length)
    (truncated : truncateMm numpy types kwargs seqLen = .ok (cut, kept))
    (prepared : MicroBatch Scalar) (accepted : prepareSample numpy sample seqLen = .ok prepared) :
    prepared.inputIds = sample.tokenIds.take cut ∧
      prepared.mmTokenTypeIds = some (types.take cut) ∧ prepared.mmKwargs = kept := by
  obtain ⟨advantages, cut', kept', versions, experts, listed, -, -, -, isCut, -, -, -, rfl⟩ :=
    (prepare_sample_iff numpy sample seqLen prepared).mp accepted
  rw [sampleCut, if_pos long, hasTypes, hasKwargs] at isCut
  obtain ⟨rfl, rfl⟩ := Prod.mk.inj (Except.ok.inj (truncated.symm.trans isCut))
  rw [sampleStreams, if_pos long]
  exact ⟨rfl, congrArg (Option.map (List.take cut)) hasTypes, rfl⟩

/-- Truncation keeps text, images and patches aligned: the cut is the last point that is not
inside an image, the arguments keep the rows of the images that end by it, and a sample
prepared so has a pixel row for each patch of its placeholders. -/
theorem truncation_keeps_images_aligned (numpy : Numpy) (kwargs : MmKwargs)
    (grid pixels : EncodedTensor) (grids : List (List Nat))
    (images : List (PlacedImage perToken)) (tail seqLen : Nat) (positive : 1 ≤ perToken)
    (rows : ImageRows numpy kwargs grid pixels images) (read : numpy.rows grid = .ok grids)
    (sizes : grids.map List.prod = images.map (fun image => image.patches.length))
    (sample : TrainingSample Scalar) (hasTypes : sample.mmTokenTypeIds = some (layout images tail))
    (hasKwargs : sample.mmKwargs = some kwargs) (long : seqLen < sample.tokenIds.length) :
    ∃ cut kept, truncateMm numpy (layout images tail) kwargs seqLen = .ok (cut, kept) ∧
      CutBetween numpy grid pixels images seqLen cut kept ∧
      (WellFormed sample → ∃ prepared, prepareSample numpy sample seqLen = .ok prepared) ∧
      ∀ prepared, prepareSample numpy sample seqLen = .ok prepared →
        prepared.inputIds = sample.tokenIds.take cut ∧
        prepared.mmTokenTypeIds = some ((layout images tail).take cut) ∧
        prepared.mmKwargs = kept ∧ PatchesMatch perToken prepared := by
  obtain ⟨kept, truncated, between⟩ := truncate_mm_cuts images tail seqLen numpy kwargs grid pixels
    grids positive rows read sizes
  refine ⟨_, kept, truncated, between, ?_, ?_⟩
  · intro wellFormed
    have isCut : sampleCut numpy sample seqLen = .ok ((imageCutAt seqLen images).2, kept) := by
      rw [sampleCut, if_pos long, hasTypes, hasKwargs]
      exact truncated
    obtain ⟨prepared, accepted, -⟩ :=
      well_formed_prepares numpy sample seqLen _ kept wellFormed isCut
    exact ⟨prepared, accepted⟩
  · intro prepared accepted
    obtain ⟨inputIds, types, mmKwargs⟩ := prepared_cut numpy sample seqLen _ kept _ kwargs hasTypes
      hasKwargs long truncated prepared accepted
    refine ⟨inputIds, types, mmKwargs, _, types, ?_⟩
    have marks : ((layout images tail).take (imageCutAt seqLen images).2).countP
        (fun type => decide (type ≠ 0)) = tokenSum (images.take (imageCutAt seqLen images).1) :=
      surviving_cut images tail seqLen
    rw [marks, mmKwargs, pixel_row_count _ numpy kept grid pixels between.rows, images_before_cut,
      Nat.mul_comm]

end

/-- A numpy that reads matrices of unsigned bytes. -/
def byteMatrices : Numpy where
  itemsize := fun _ => 1
  rows := fun tensor =>
    let width := (tensor.shape.drop 1).prod
    .ok ((List.range (tensor.shape.headD 0)).map
      (fun row => ((tensor.data.drop (row * width)).take width).map UInt8.toNat))

/-- An image of two by two patches behind a text token. -/
def smallImage : PlacedImage 4 :=
  ⟨1, [1], [1, 2, 2], [[0], [1], [2], [3]], by decide, by decide, rfl⟩

/-- An image of four by two patches that shares the run of the image before it. -/
def wideImage : PlacedImage 4 :=
  ⟨0, [1, 1], [1, 4, 2], [[4], [5], [6], [7], [8], [9], [10], [11]], by decide, by decide, rfl⟩

def twoImages : MmKwargs :=
  [("pixel_values", ⟨"uint8", [12, 1], [0, 1, 2, 3, 4, 5, 6, 7, 8, 9, 10, 11]⟩),
    ("image_grid_thw", ⟨"uint8", [2, 3], [1, 2, 2, 1, 4, 2]⟩)]

/-- A sample of five tokens, of which the first and the last are text. -/
def pictureSample : TrainingSample Rat :=
  { creditedSample with
    tokenIds := [5, 9, 9, 9, 6]
    mask := [false, false, false, false, true]
    logprobs := [0, 0, 0, 0, -1]
    temperatures := [1, 1, 1, 1, 1]
    advantages := some [0, 0, 0, 0, 1]
    mmTokenTypeIds := some [0, 1, 1, 1, 0]
    mmKwargs := some twoImages }

theorem picture_well_formed : WellFormed pictureSample := by
  constructor
  case credited | refLogprobs | rlWeights | ceWeights | refKlWeights | routedExperts => exact nofun
  case tokenPolicyVersions => exact ⟨_, rfl⟩
  case advantages | mmTokenTypeIds =>
    rintro values ⟨rfl⟩
    rfl
  all_goals decide

/-- At three tokens the second image is split, so the sample is cut behind the first one. -/
theorem truncation_keeps_images_aligned_split_image :
    ∃ prepared, prepareSample byteMatrices pictureSample 3 = .ok prepared ∧
      prepared.inputIds = [5, 9] ∧ PatchesMatch 4 prepared := by
  obtain ⟨cut, kept, truncated, -, accepts, aligned⟩ :=
    truncation_keeps_images_aligned byteMatrices twoImages _ _ [[1, 2, 2], [1, 4, 2]]
      [smallImage, wideImage] 1 3 (by decide)
      ⟨rfl, rfl, ⟨rfl, by decide, rfl⟩, ⟨rfl, by decide, rfl⟩⟩ (by decide) (by decide)
      pictureSample rfl rfl (by decide)
  obtain ⟨prepared, accepted⟩ := accepts picture_well_formed
  obtain ⟨inputIds, -, -, same⟩ := aligned prepared accepted
  have place : truncateMm byteMatrices (layout [smallImage, wideImage] 1) twoImages 3 =
      .ok (2, some [("pixel_values", ⟨"uint8", [4, 1], [0, 1, 2, 3]⟩),
        ("image_grid_thw", ⟨"uint8", [1, 3], [1, 2, 2]⟩)]) := by
    decide +kernel
  obtain ⟨rfl, -⟩ := Prod.mk.inj (Except.ok.inj (truncated.symm.trans place))
  exact ⟨prepared, accepted, inputIds, same⟩

end PrimeRl.Trainer.Batch
