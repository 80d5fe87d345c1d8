import PrimeRl.Trainer.PartitionWords
import PrimeRl.Transport.Provenance

/-!
# Packing policy training samples into micro batches

Each sample is cut to the sequence length and checked, samples are placed into
bins by first-fit decreasing, bins are split until every rank has one, and each
bin becomes one row of parallel streams. Rows are padded at the tail, grouped by
modality, filled up with dummies and partitioned over the data ranks.
-/

namespace PrimeRl.Trainer.Batch

open PrimeRl.Trainer.Partition PrimeRl.Transport

variable {Scalar : Type}

/-- What numpy reads from an encoded tensor: the byte width of an element type
and the rows of an integer matrix. -/
structure Numpy where
  itemsize : String → Nat
  rows : EncodedTensor → Except String (List (List Nat))

/-! ## Routed experts and policy versions -/

def routedExpertsDtypeItemsize : ExpertsDtype → Nat
  | .uint8 => 1
  | .int16 => 2
  | .int32 => 4

/-- The element types with a known width. -/
def ExpertsDtype.ofName (name : String) : Option ExpertsDtype :=
  if name = "uint8" then some .uint8
  else if name = "int16" then some .int16
  else if name = "int32" then some .int32
  else none

/-- The dimensions and the element type of a row, where the payload has them. -/
def rowType (experts : RoutedExperts) : Except String (Int × Int × ExpertsDtype) :=
  match experts.shape with
  | _ :: layers :: topk :: _ =>
    match ExpertsDtype.ofName experts.dtype with
    | some dtype => .ok (layers, topk, dtype)
    | none => .error s!"KeyError: {experts.dtype}"
  | _ => .error "list index out of range"

/-- The bytes of a row, which are negative when one of its dimensions is. -/
def rowSize (layers topk : Int) (dtype : ExpertsDtype) : Int :=
  layers * topk * routedExpertsDtypeItemsize dtype

/-- The bytes up to an index, which counts from the end when it is negative. -/
def takeBytes (data : List UInt8) (stop : Int) : List UInt8 :=
  data.take (if stop < 0 then (data.length + stop).toNat else stop.toNat)

def sliceRoutedExperts (experts : RoutedExperts) (seqLen : Nat) : Except String RoutedExperts :=
  (rowType experts).map fun (layers, topk, dtype) =>
    { data := takeBytes experts.data (seqLen * rowSize layers topk dtype)
      shape := [seqLen, layers, topk]
      dtype := experts.dtype }

/-- The assertions on the routed experts of a prepared sample: a row for each token, and as
many bytes as rows of that size have. -/
def assertExperts (experts : RoutedExperts) (numTokens : Nat) : Except String ExpertRows :=
  match experts.shape with
  | [] => .error "list index out of range"
  | rows :: _ =>
    if rows ≠ numTokens then .error "routed_experts"
    else
      match rowType experts with
      | .error message => .error message
      | .ok (layers, topk, dtype) =>
        if (experts.data.length : Int) ≠ numTokens * rowSize layers topk dtype then
          .error "AssertionError"
        else .ok ⟨experts.data, numTokens, layers, topk, experts.shape.drop 3, dtype⟩

/-- Bytes that a row of checked experts takes. -/
def routedExpertsRowSize (experts : ExpertRows) : Nat :=
  (rowSize experts.layers experts.topk experts.dtype).toNat

def padRoutedExperts (experts : ExpertRows) (paddingSize : Nat) : ExpertRows :=
  { experts with
    data := experts.data ++ List.replicate (paddingSize * routedExpertsRowSize experts) 0
    seqLen := experts.seqLen + paddingSize }

/-- An absent payload passes. -/
def checkPolicyVersions (payload : Option EncodedTensor) (numTokens : Nat) : Except String Unit :=
  match payload with
  | none => .ok ()
  | some tensor => (decodePolicyVersions tensor numTokens).map (fun _ => ())

/-- A payload is decoded, cut and encoded again. -/
def truncateVersions (payload : Option EncodedTensor) (numTokens cut : Nat) :
    Except String (Option EncodedTensor) :=
  match payload with
  | none => .ok none
  | some tensor =>
      match decodePolicyVersions tensor numTokens with
      | .error message => .error message
      | .ok values => encodePolicyVersions (values.take cut)

/-! ## Truncation -/

/-- The first `nRows` rows of a tensor stacked along its first dimension. -/
def sliceEncoded (numpy : Numpy) (tensor : EncodedTensor) (nRows : Nat) : EncodedTensor where
  dtype := tensor.dtype
  shape := nRows :: tensor.shape.drop 1
  data := tensor.data.take (nRows * (tensor.shape.drop 1).prod * numpy.itemsize tensor.dtype)

/-- The images whose tokens survive completely, with their token count. -/
def keptImages (surviving : Nat) : Nat → Nat → List Nat → Nat × Nat
  | kept, acc, [] => (kept, acc)
  | kept, acc, tokens :: rest =>
      if surviving < acc + tokens then (kept, acc)
      else keptImages surviving (kept + 1) (acc + tokens) rest

/-- The position of placeholder number `target`, counted from one. -/
def placeholderAt (target : Nat) : Nat → Nat → List Nat → Option Nat
  | _, _, [] => none
  | seen, position, type :: rest =>
      if type ≠ 0 then
        if seen + 1 = target then some position else placeholderAt target (seen + 1) (position + 1) rest
      else placeholderAt target seen (position + 1) rest

/-- Number of image tokens before the sequence length. -/
def survivingTokens (mmTokenTypeIds : List Nat) (seqLen : Nat) : Nat :=
  (mmTokenTypeIds.take seqLen).countP (fun type => decide (type ≠ 0))

/-- The sequence length when the surviving tokens are whole images; otherwise the
first placeholder of the image that does not survive. -/
def imageCut (mmTokenTypeIds : List Nat) (seqLen acc : Nat) : Nat :=
  if acc = survivingTokens mmTokenTypeIds seqLen then seqLen
  else (placeholderAt (acc + 1) 0 0 mmTokenTypeIds).getD seqLen

def patchesPerToken (mmTokenTypeIds : List Nat) (totalPatches : Nat) : Nat :=
  let totalTokens := mmTokenTypeIds.countP (fun type => decide (type ≠ 0))
  if totalTokens ≠ 0 then totalPatches / totalTokens else 1

/-- Cut between images, given the patches of each image and of all of them. -/
def truncateImages (numpy : Numpy) (mmTokenTypeIds : List Nat) (mmKwargs : MmKwargs) (seqLen : Nat)
    (patchesPerImage : List Nat) (totalPatches : Nat) : Except String (Nat × Option MmKwargs) :=
  let ppt := patchesPerToken mmTokenTypeIds totalPatches
  if ppt = 0 ∧ patchesPerImage ≠ [] then .error "integer division or modulo by zero"
  else
    let kept := keptImages (survivingTokens mmTokenTypeIds seqLen) 0 0 (patchesPerImage.map (· / ppt))
    let keptPatches := (patchesPerImage.take kept.1).sum
    let sliced := mmKwargs.map (fun entry =>
      (entry.1, sliceEncoded numpy entry.2
        (if entry.1 = "image_grid_thw" then kept.1 else keptPatches)))
    .ok (imageCut mmTokenTypeIds seqLen kept.2, if kept.1 = 0 then none else some sliced)

/-- The cut point of a multimodal sample, which is never inside an image block,
and the arguments of the images that survive it. -/
def truncateMm (numpy : Numpy) (mmTokenTypeIds : List Nat) (mmKwargs : MmKwargs) (seqLen : Nat) :
    Except String (Nat × Option MmKwargs) :=
  match mmKwargs.lookup "image_grid_thw" with
  | none => .error "'image_grid_thw'"
  | some gridTensor =>
    match numpy.rows gridTensor with
    | .error message => .error message
    | .ok grid =>
      match mmKwargs.lookup "pixel_values" with
      | none => .error "'pixel_values'"
      | some pixels =>
        match pixels.shape.head? with
        | none => .error "list index out of range"
        | some totalPatches =>
            truncateImages numpy mmTokenTypeIds mmKwargs seqLen (grid.map List.prod) totalPatches

/-- Where a sample is cut, with the image arguments that remain. -/
def sampleCut (numpy : Numpy) (sample : TrainingSample Scalar) (seqLen : Nat) :
    Except String (Nat × Option MmKwargs) :=
  if seqLen < sample.tokenIds.length then
    match sample.mmTokenTypeIds, sample.mmKwargs with
    | some types, some kwargs => truncateMm numpy types kwargs seqLen
    | _, kwargs => .ok (seqLen, kwargs)
  else .ok (sample.tokenIds.length, sample.mmKwargs)

/-- The policy versions of a sample up to its cut point. -/
def sampleVersions (sample : TrainingSample Scalar) (seqLen cut : Nat) :
    Except String (Option EncodedTensor) :=
  if seqLen < sample.tokenIds.length then
    truncateVersions sample.tokenPolicyVersions sample.tokenIds.length cut
  else .ok sample.tokenPolicyVersions

/-- The routed experts of a sample up to its cut point. -/
def sampleExperts (sample : TrainingSample Scalar) (seqLen cut : Nat) :
    Except String (Option RoutedExperts) :=
  match sample.routedExperts with
  | none => .ok none
  | some experts =>
    if seqLen < sample.tokenIds.length then (sliceRoutedExperts experts cut).map some
    else .ok (some experts)

/-! ## One sample -/

section Samples
variable [Zero Scalar] [DecidableEq Scalar]

/-- Whether some trainable token has a live rl weight. -/
def hasRlMembers (sample : TrainingSample Scalar) : Bool :=
  match sample.rlWeights with
  | none => sample.mask.any id
  | some weights => (sample.mask.zip weights).any (fun token => token.1 && decide (token.2 ≠ 0))

/-- The advantage stream; a sample without rl tokens may lack it. -/
def sampleAdvantages (sample : TrainingSample Scalar) : Except String (List Scalar) :=
  match sample.advantages with
  | some advantages => .ok advantages
  | none =>
      if hasRlMembers sample then
        .error s!"sample from env '{sample.envName}' has rl member tokens but no advantages — the producer must stamp the advantage stream (the orchestrator broadcasts the rollout scalar)"
      else .ok (List.replicate sample.tokenIds.length 0)

end Samples

/-- The streams of a sample, before it is cut. Routed experts join them when they are
checked. -/
def wholeSample (sample : TrainingSample Scalar) (advantages : List Scalar) : MicroBatch Scalar where
  inputIds := sample.tokenIds
  lossMask := sample.mask
  advantages := advantages
  inferenceLogprobs := sample.logprobs
  positionIds := List.range sample.tokenIds.length
  sequenceLengths := [sample.tokenIds.length]
  temperatures := sample.temperatures
  envNames := List.replicate sample.tokenIds.length sample.envName
  refLogprobs := sample.refLogprobs
  mmKwargs := sample.mmKwargs
  mmTokenTypeIds := sample.mmTokenTypeIds
  rlWeights := sample.rlWeights
  ceWeights := sample.ceWeights
  refKlWeights := sample.refKlWeights
  tokenPolicyVersions := sample.tokenPolicyVersions

/-- All streams of a sample up to its cut point. -/
def truncateSample (whole : MicroBatch Scalar) (cut : Nat) (mmKwargs : Option MmKwargs)
    (versions : Option EncodedTensor) : MicroBatch Scalar :=
  { whole with
    inputIds := whole.inputIds.take cut
    lossMask := whole.lossMask.take cut
    advantages := whole.advantages.take cut
    inferenceLogprobs := whole.inferenceLogprobs.take cut
    positionIds := whole.positionIds.take cut
    sequenceLengths := [(whole.inputIds.take cut).length]
    temperatures := whole.temperatures.take cut
    envNames := whole.envNames.take cut
    refLogprobs := whole.refLogprobs.map (List.take cut)
    mmKwargs := mmKwargs
    mmTokenTypeIds := whole.mmTokenTypeIds.map (List.take cut)
    rlWeights := whole.rlWeights.map (List.take cut)
    ceWeights := whole.ceWeights.map (List.take cut)
    refKlWeights := whole.refKlWeights.map (List.take cut)
    tokenPolicyVersions := versions }

/-- The streams of a sample, cut when it is longer than the sequence length. -/
def sampleStreams (sample : TrainingSample Scalar) (seqLen : Nat) (advantages : List Scalar)
    (cut : Nat) (mmKwargs : Option MmKwargs) (versions : Option EncodedTensor) :
    MicroBatch Scalar :=
  if seqLen < sample.tokenIds.length then
    truncateSample (wholeSample sample advantages) cut mmKwargs versions
  else wholeSample sample advantages

/-- An absent stream passes; a present one must have a value for each token. -/
def streamFits {Value : Type} (stream : Option (List Value)) (numTokens : Nat) : Bool :=
  stream.all (fun values => decide (values.length = numTokens))

/-- Absent experts pass. -/
def assertRows (experts : Option RoutedExperts) (numTokens : Nat) :
    Except String (Option ExpertRows) :=
  match experts with
  | none => .ok none
  | some experts => (assertExperts experts numTokens).map some

/-- The assertions on the streams of a prepared sample, with the experts that pass theirs. -/
def assertPrepared (prepared : MicroBatch Scalar) (experts : Option RoutedExperts) :
    Except String (Option ExpertRows) :=
  let numTokens := prepared.inputIds.length
  if ¬ (numTokens = prepared.advantages.length ∧ numTokens = prepared.lossMask.length ∧
      numTokens = prepared.positionIds.length ∧ numTokens = prepared.inferenceLogprobs.length ∧
      numTokens = prepared.temperatures.length) then
    .error s!"input_ids: {numTokens}, advantages: {prepared.advantages.length}, loss_mask: {prepared.lossMask.length}, position_ids: {prepared.positionIds.length}, inference_logprobs: {prepared.inferenceLogprobs.length}, temperatures: {prepared.temperatures.length}"
  else if ¬ streamFits prepared.refLogprobs numTokens then .error "ref_logprobs"
  else if ¬ streamFits prepared.rlWeights numTokens then .error "rl_weights"
  else if ¬ streamFits prepared.ceWeights numTokens then .error "ce_weights"
  else if ¬ streamFits prepared.refKlWeights numTokens then .error "ref_kl_weights"
  else
    match assertRows experts numTokens with
    | .error message => .error message
    | .ok rows =>
      if ¬ streamFits prepared.mmTokenTypeIds numTokens then .error "mm_token_type_ids"
      else if prepared.envNames.length ≠ numTokens then
        .error s!"env_names: {prepared.envNames.length}, input_ids: {numTokens}"
      else .ok rows

section Samples
variable [Zero Scalar] [DecidableEq Scalar]

/-- Cut a sample to the sequence length and check its streams. -/
def prepareSample (numpy : Numpy) (sample : TrainingSample Scalar) (seqLen : Nat) :
    Except String (MicroBatch Scalar) :=
  match checkPolicyVersions sample.tokenPolicyVersions sample.tokenIds.length with
  | .error message => .error message
  | .ok () =>
    match sampleAdvantages sample with
    | .error message => .error message
    | .ok advantages =>
      if sample.envName = "all" then
        .error "env_name='all' is reserved for aggregate metric keys"
      else
        match sampleCut numpy sample seqLen with
        | .error message => .error message
        | .ok (cut, mmKwargs) =>
          match sampleVersions sample seqLen cut with
          | .error message => .error message
          | .ok versions =>
            match sampleExperts sample seqLen cut with
            | .error message => .error message
            | .ok experts =>
              let prepared := sampleStreams sample seqLen advantages cut mmKwargs versions
              (assertPrepared prepared experts).map
                (fun rows => { prepared with routedExperts := rows })

end Samples

def isMultimodalSample (sample : MicroBatch Scalar) : Bool := sample.mmKwargs.isSome

/-! ## Bins -/

/-- Samples of one row with their adapter slots, and the number of their tokens. -/
structure MicroBatchBin (Scalar : Type) where
  samples : List (Nat × MicroBatch Scalar)
  length : Nat

/-- A sample with its adapter slot. -/
abbrev Slotted (Scalar : Type) := Nat × MicroBatch Scalar

def tokenCount (sample : Slotted Scalar) : Nat := sample.2.inputIds.length

namespace MicroBatchBin

def fromSample (sample : Slotted Scalar) : MicroBatchBin Scalar := ⟨[sample], tokenCount sample⟩

/-- Only modality, length and the presence of routed experts constrain packing. -/
def canAdd (bin : MicroBatchBin Scalar) (sample : Slotted Scalar) (maxSeqLen : Nat) : Bool :=
  match bin.samples with
  | [] => false
  | first :: _ =>
      !isMultimodalSample first.2 && !isMultimodalSample sample.2 &&
        decide (bin.length + tokenCount sample ≤ maxSeqLen) &&
        (first.2.routedExperts.isNone == sample.2.routedExperts.isNone)

def add (bin : MicroBatchBin Scalar) (sample : Slotted Scalar) : MicroBatchBin Scalar :=
  ⟨bin.samples ++ [sample], bin.length + tokenCount sample⟩

def workload (bin : MicroBatchBin Scalar) (binCost : List Nat → Int) : Int :=
  binCost (bin.samples.map tokenCount)

/-- The two sides of a split with the workload of each. -/
structure Sides (Scalar : Type) where
  left : List (Slotted Scalar)
  leftWorkload : Int
  right : List (Slotted Scalar)
  rightWorkload : Int

/-- Put a sample on the side that is lighter so far. -/
def Sides.put (binCost : List Nat → Int) (sides : Sides Scalar) (sample : Slotted Scalar) :
    Sides Scalar :=
  if sides.leftWorkload ≤ sides.rightWorkload then
    { sides with
      left := sides.left ++ [sample]
      leftWorkload := sides.leftWorkload + binCost [tokenCount sample] }
  else
    { sides with
      right := sides.right ++ [sample]
      rightWorkload := sides.rightWorkload + binCost [tokenCount sample] }

/-- Samples by decreasing workload; equal workloads keep their order. -/
def ranked (binCost : List Nat → Int) (samples : List (Slotted Scalar)) : List (Slotted Scalar) :=
  samples.insertionSort
    (fun first second => binCost [tokenCount second] ≤ binCost [tokenCount first])

/-- Greedily place the heaviest sample on the currently lighter side. -/
def splitByWorkload (bin : MicroBatchBin Scalar) (binCost : List Nat → Int) :
    MicroBatchBin Scalar × MicroBatchBin Scalar :=
  let sides := (ranked binCost bin.samples).foldl (Sides.put binCost) ⟨[], 0, [], 0⟩
  (⟨sides.left, (sides.left.map tokenCount).sum⟩, ⟨sides.right, (sides.right.map tokenCount).sum⟩)

end MicroBatchBin

/-- Put a sample into the first bin that takes it, or into a new last one. -/
def placeSample (maxSeqLen : Nat) (sample : Slotted Scalar) :
    List (MicroBatchBin Scalar) → List (MicroBatchBin Scalar)
  | [] => [MicroBatchBin.fromSample sample]
  | bin :: rest =>
      if bin.canAdd sample maxSeqLen then bin.add sample :: rest
      else bin :: placeSample maxSeqLen sample rest

/-- By adapter slot, then longest first; equal keys keep their order. -/
def sortSamples (samples : List (Slotted Scalar)) : List (Slotted Scalar) :=
  samples.insertionSort
    (fun first second =>
      first.1 < second.1 ∨ first.1 = second.1 ∧ tokenCount second ≤ tokenCount first)

def packBins (samples : List (Slotted Scalar)) (maxSeqLen : Nat) : List (MicroBatchBin Scalar) :=
  (sortSamples samples).foldl (fun bins sample => placeSample maxSeqLen sample bins) []

/-- The bins that can be split, as pairs of workload and position. -/
def splitCandidates (bins : List (MicroBatchBin Scalar)) (binCost : List Nat → Int) :
    List (Int × Nat) :=
  (bins.zipIdx.filter (fun entry => decide (1 < entry.1.samples.length))).map
    (fun entry => (entry.1.workload binCost, entry.2))

/-- The greatest pair, by workload and then by position. -/
def maxCandidate : List (Int × Nat) → Option (Int × Nat)
  | [] => none
  | first :: rest =>
      match maxCandidate rest with
      | none => some first
      | some other =>
          if first.1 < other.1 ∨ first.1 = other.1 ∧ first.2 < other.2 then some other
          else some first

/-- Split the heaviest bin until there are `targetCount` bins or none can be
split. Each split adds a bin, which the fuel counts. -/
def expandFrom (targetCount : Nat) (binCost : List Nat → Int) :
    Nat → List (MicroBatchBin Scalar) → List (MicroBatchBin Scalar)
  | 0, bins => bins
  | fuel + 1, bins =>
      if bins.length < targetCount then
        match maxCandidate (splitCandidates bins binCost) with
        | none => bins
        | some (_, idx) =>
            match bins[idx]? with
            | none => bins
            | some bin =>
                let (left, right) := bin.splitByWorkload binCost
                expandFrom targetCount binCost fuel (bins.set idx left ++ [right])
      else bins

def expandBinsBySplitting (bins : List (MicroBatchBin Scalar)) (targetCount : Nat)
    (binCost : List Nat → Int) : List (MicroBatchBin Scalar) :=
  expandFrom targetCount binCost (targetCount - bins.length) bins

/-- The next multiple of the worker count, at least one for each worker. -/
def targetCount (bins numTrainWorkers : Nat) : Nat :=
  max ((bins + numTrainWorkers - 1) / numTrainWorkers * numTrainWorkers) numTrainWorkers

/-- The bins of a batch: packed, and split when several workers share them. -/
def batchBins (samples : List (Slotted Scalar)) (maxSeqLen numTrainWorkers : Nat)
    (binCost : List Nat → Int) : List (MicroBatchBin Scalar) :=
  let bins := packBins samples maxSeqLen
  if 1 < numTrainWorkers then
    expandBinsBySplitting bins (targetCount bins.length numTrainWorkers) binCost
  else bins

/-! ## Rows -/

/-- A stream of a row: it materializes as soon as one sample carries it, and the
samples that lack it get the fill. -/
def stackStream {Value : Type} (stream : MicroBatch Scalar → Option (List Value)) (fill : Value)
    (samples : List (Slotted Scalar)) : Option (List Value) :=
  if samples.any (fun sample => (stream sample.2).isSome) then
    some (samples.flatMap (fun sample =>
      (stream sample.2).getD (List.replicate (tokenCount sample) fill)))
  else none

/-- The policy versions of a row: the payloads of the samples, with filler for
those that lack one. -/
def stackVersions (samples : List (Slotted Scalar)) : Option EncodedTensor :=
  if samples.any (fun sample => sample.2.tokenPolicyVersions.isSome) then
    some
      { dtype := "int64"
        shape := [(samples.flatMap (fun sample => sample.2.inputIds)).length]
        data := samples.flatMap (fun sample =>
          versionBytes sample.2.tokenPolicyVersions (tokenCount sample)) }
  else none

/-- Append the routed experts of the samples that carry them. -/
def stackExperts : Option ExpertRows → List (Slotted Scalar) →
    Except String (Option ExpertRows)
  | stacked, [] => .ok stacked
  | stacked, sample :: rest =>
      match stacked, sample.2.routedExperts with
      | stacked, none => stackExperts stacked rest
      | none, some experts => stackExperts (some experts) rest
      | some stacked, some experts =>
          if stacked.dtype ≠ experts.dtype then .error "AssertionError"
          else if (stacked.layers, stacked.topk, stacked.inner) ≠
              (experts.layers, experts.topk, experts.inner) then
            .error "AssertionError"
          else
            stackExperts
              (some { stacked with
                data := stacked.data ++ experts.data
                seqLen := stacked.seqLen + experts.seqLen })
              rest

/-- Tokens of each adapter slot. -/
def countLoraTokens (numLoras : Nat) (samples : List (Slotted Scalar)) : List Nat :=
  samples.foldl (fun counts sample => counts.modify sample.1 (· + tokenCount sample))
    (List.replicate numLoras 0)

/-- The first payload that does not decode refuses the row. -/
def checkAllVersions : List (Slotted Scalar) → Except String Unit
  | [] => .ok ()
  | sample :: rest =>
      match checkPolicyVersions sample.2.tokenPolicyVersions (tokenCount sample) with
      | .error message => .error message
      | .ok () => checkAllVersions rest

section Rows
variable [Zero Scalar] [One Scalar]

/-- The row of the samples of a bin, once they are checked. -/
def stackSamples (first : Slotted Scalar) (samples : List (Slotted Scalar))
    (experts : Option ExpertRows) (numLoras : Nat) : MicroBatch Scalar where
  inputIds := samples.flatMap (fun sample => sample.2.inputIds)
  lossMask := samples.flatMap (fun sample => sample.2.lossMask)
  advantages := samples.flatMap (fun sample => sample.2.advantages)
  inferenceLogprobs := samples.flatMap (fun sample => sample.2.inferenceLogprobs)
  positionIds := samples.flatMap (fun sample => sample.2.positionIds)
  sequenceLengths := samples.map tokenCount
  temperatures := samples.flatMap (fun sample => sample.2.temperatures)
  envNames := samples.flatMap (fun sample => sample.2.envNames)
  refLogprobs := stackStream MicroBatch.refLogprobs 0 samples
  loraNumTokens := some (countLoraTokens numLoras samples)
  routedExperts := experts
  mmKwargs := if isMultimodalSample first.2 then first.2.mmKwargs else none
  mmTokenTypeIds := stackStream MicroBatch.mmTokenTypeIds 0 samples
  rlWeights := stackStream MicroBatch.rlWeights 1 samples
  ceWeights := stackStream MicroBatch.ceWeights 0 samples
  refKlWeights := stackStream MicroBatch.refKlWeights 0 samples
  tokenPolicyVersions := stackVersions samples

def materializeBin (bin : MicroBatchBin Scalar) (numLoras : Nat) :
    Except String (MicroBatch Scalar) :=
  match checkAllVersions bin.samples with
  | .error message => .error message
  | .ok () =>
    match stackExperts none bin.samples with
    | .error message => .error message
    | .ok experts =>
      if bin.samples.any (fun sample => decide (numLoras ≤ sample.1)) then
        .error "list index out of range"
      else
        -- the first sample of a bin without samples is out of range
        match bin.samples with
        | [] => .error "list index out of range"
        | first :: _ => .ok (stackSamples first bin.samples experts numLoras)

/-- Materialize bins in order; the first refused bin refuses the batch. -/
def materializeBins (numLoras : Nat) :
    List (MicroBatchBin Scalar) → Except String (List (MicroBatch Scalar))
  | [] => .ok []
  | bin :: rest =>
      match materializeBin bin numLoras with
      | .error message => .error message
      | .ok row => (materializeBins numLoras rest).map (row :: ·)

/-- Pack samples into micro batches by first-fit decreasing, never truncating. -/
def packedSamplesIntoMicroBs (samples : List (Slotted Scalar))
    (maxSeqLen numLoras numTrainWorkers : Nat) (binCost : List Nat → Int) :
    Except String (List (MicroBatch Scalar)) :=
  materializeBins numLoras (batchBins samples maxSeqLen numTrainWorkers binCost)

/-! ## Tail padding and dummies -/

def paddingSize (numTokens padToMultipleOf : Nat) : Nat :=
  (padToMultipleOf - numTokens % padToMultipleOf) % padToMultipleOf

/-- A row with `padding` masked tokens at its tail. Weight streams that are
present are padded with zeros, and the last adapter slot counts the padding. -/
def appendPadding (row : MicroBatch Scalar) (padding : Nat) : MicroBatch Scalar :=
  { row with
    inputIds := row.inputIds ++ List.replicate padding 1
    lossMask := row.lossMask ++ List.replicate padding false
    advantages := row.advantages ++ List.replicate padding 0
    inferenceLogprobs := row.inferenceLogprobs ++ List.replicate padding 0
    positionIds := row.positionIds ++ List.range padding
    sequenceLengths := row.sequenceLengths ++ [padding]
    temperatures := row.temperatures ++ List.replicate padding 1
    envNames := row.envNames ++ List.replicate padding ""
    refLogprobs := row.refLogprobs.map (· ++ List.replicate padding 0)
    loraNumTokens := row.loraNumTokens.map (fun counts => counts.modify (counts.length - 1) (· + padding))
    routedExperts := row.routedExperts.map (fun experts => padRoutedExperts experts padding)
    mmTokenTypeIds := row.mmTokenTypeIds.map (· ++ List.replicate padding 0)
    rlWeights := row.rlWeights.map (· ++ List.replicate padding 0)
    ceWeights := row.ceWeights.map (· ++ List.replicate padding 0)
    refKlWeights := row.refKlWeights.map (· ++ List.replicate padding 0)
    tokenPolicyVersions := row.tokenPolicyVersions.map (fun payload =>
      { dtype := "int64"
        shape := [row.inputIds.length + padding]
        data := payload.data ++ List.replicate (8 * padding) 255 }) }

/-- Pad a row to a multiple of the given length. -/
def padMicroBatch (row : MicroBatch Scalar) (padToMultipleOf : Nat) :
    Except String (MicroBatch Scalar) :=
  let padding := paddingSize row.inputIds.length padToMultipleOf
  if row.envNames.length ≠ row.inputIds.length then
    .error s!"MicroBatch.env_names must match input_ids length before padding: env_names={row.envNames.length}, input_ids={row.inputIds.length}"
  else
    match checkPolicyVersions row.tokenPolicyVersions row.inputIds.length with
    | .error message => .error message
    | .ok () =>
      if ¬ (1 < padToMultipleOf ∧ 0 < padding) then .ok row else .ok (appendPadding row padding)

/-- Pad rows in order; the first refused row refuses the batch. -/
def padMicroBatches (padToMultipleOf : Nat) :
    List (MicroBatch Scalar) → Except String (List (MicroBatch Scalar))
  | [] => .ok []
  | row :: rest =>
      match padMicroBatch row padToMultipleOf with
      | .error message => .error message
      | .ok padded => (padMicroBatches padToMultipleOf rest).map (padded :: ·)

/-- A zero-loss copy of a row that keeps its modality. -/
def makeDummyBatch (source : MicroBatch Scalar) : MicroBatch Scalar :=
  { source with
    advantages := List.replicate source.inputIds.length 0
    lossMask := List.replicate source.inputIds.length false
    rlWeights := none
    ceWeights := none
    refKlWeights := none
    tokenPolicyVersions := none }

/-- Fill a group up with dummies to a multiple of the worker count. -/
def padGroupForDistribution (group : List (MicroBatch Scalar)) (numTrainWorkers : Nat) :
    List (MicroBatch Scalar) :=
  let numPadding := (numTrainWorkers - group.length % numTrainWorkers) % numTrainWorkers
  match group with
  | [] => []
  | first :: _ => group ++ List.replicate numPadding (makeDummyBatch first)

end Rows

/-- Every per-token array must stay aligned with the tokens. -/
def assertTokenArraysAligned (row : MicroBatch Scalar) : Except String Unit :=
  let numTokens := row.inputIds.length
  match checkPolicyVersions row.tokenPolicyVersions numTokens with
  | .error message => .error message
  | .ok () =>
    if row.lossMask.length ≠ numTokens then .error "loss_mask misaligned after packing"
    else if row.advantages.length ≠ numTokens then .error "advantages misaligned after packing"
    else if row.inferenceLogprobs.length ≠ numTokens then
      .error "inference_logprobs misaligned after packing"
    else if row.positionIds.length ≠ numTokens then .error "position_ids misaligned after packing"
    else if row.temperatures.length ≠ numTokens then .error "temperatures misaligned after packing"
    else if row.envNames.length ≠ numTokens then .error "env_names misaligned after packing"
    else if ¬ streamFits row.refLogprobs numTokens then .error "ref_logprobs misaligned after packing"
    else if ¬ streamFits row.rlWeights numTokens then .error "rl_weights misaligned after packing"
    else if ¬ streamFits row.ceWeights numTokens then .error "ce_weights misaligned after packing"
    else if ¬ streamFits row.refKlWeights numTokens then
      .error "ref_kl_weights misaligned after packing"
    else if ¬ streamFits row.mmTokenTypeIds numTokens then
      .error "mm_token_type_ids misaligned after packing"
    else if row.sequenceLengths.sum ≠ numTokens then
      .error s!"sequence_lengths sum {row.sequenceLengths.sum} != {numTokens} tokens"
    else if ¬ row.routedExperts.all (fun experts => decide (experts.seqLen = numTokens)) then
      .error "routed_experts misaligned after packing"
    else .ok ()

def assertAllAligned : List (MicroBatch Scalar) → Except String Unit
  | [] => .ok ()
  | row :: rest =>
      match assertTokenArraysAligned row with
      | .error message => .error message
      | .ok () => assertAllAligned rest

/-! ## The grid of the data ranks -/

/-- Partition a group of rows over the workers by workload. -/
def distributeGroup (group : List (MicroBatch Scalar)) (numTrainWorkers : Nat)
    (binCost : List Nat → Int) : Except String (List (List (MicroBatch Scalar))) :=
  if group.length % numTrainWorkers ≠ 0 then
    .error "Number of micro batches is not divisible by number of data ranks"
  else if group.isEmpty then .ok (List.replicate numTrainWorkers [])
  else
    (balancedPartition (group.map (fun row => binCost row.sequenceLengths)) numTrainWorkers).map
      (fun partitions => partitions.map (fun partition => partition.filterMap (fun idx => group[idx]?)))

section Prepare
variable [Zero Scalar] [One Scalar] [DecidableEq Scalar]

/-- Prepare samples in order; the first refused sample refuses the batch. -/
def prepareSamples (numpy : Numpy) (seqLen : Nat) :
    List (Nat × TrainingSample Scalar) → Except String (List (Slotted Scalar))
  | [] => .ok []
  | (idx, sample) :: rest =>
      match prepareSample numpy sample seqLen with
      | .error message => .error message
      | .ok prepared => (prepareSamples numpy seqLen rest).map ((idx, prepared) :: ·)

/-- The rows of a batch before they are distributed: packed, padded at the tail,
separated by modality and filled up with dummies. -/
def preparedGroups (numpy : Numpy) (rollouts : List (TrainingSample Scalar))
    (seqLen numTrainWorkers : Nat) (idxs : List Nat) (numLoras : Nat) (binCost : List Nat → Int)
    (padToMultipleOf : Nat) :
    Except String (List (MicroBatch Scalar) × List (MicroBatch Scalar)) := do
  let allSamples ← prepareSamples numpy seqLen (idxs.zip rollouts)
  let packed ← packedSamplesIntoMicroBs allSamples seqLen numLoras numTrainWorkers binCost
  let padded ← padMicroBatches padToMultipleOf packed
  let mmBatches := padGroupForDistribution (padded.filter isMultimodalSample) numTrainWorkers
  let textBatches :=
    padGroupForDistribution (padded.filter (fun row => !isMultimodalSample row)) numTrainWorkers
  match assertAllAligned (mmBatches ++ textBatches) with
  | .error message => .error message
  | .ok () => .ok (mmBatches, textBatches)

/-- The micro batches of each worker: first the multimodal, then the text ones. -/
def prepareBatch (numpy : Numpy) (rollouts : List (TrainingSample Scalar))
    (seqLen numTrainWorkers : Nat) (idxs : List Nat) (numLoras : Nat) (binCost : List Nat → Int)
    (padToMultipleOf : Nat) : Except String (List (List (MicroBatch Scalar))) := do
  let (mmBatches, textBatches) ←
    preparedGroups numpy rollouts seqLen numTrainWorkers idxs numLoras binCost padToMultipleOf
  let mmGrid ← distributeGroup mmBatches numTrainWorkers binCost
  let textGrid ← distributeGroup textBatches numTrainWorkers binCost
  .ok (List.zipWith (· ++ ·) mmGrid textGrid)

end Prepare

end PrimeRl.Trainer.Batch
