import Mathlib.Data.List.Basic
import PrimeRl.Trainer.SftData

/-!
# Stacking samples in buckets

A bucket collects samples up to a width until they fill the area of a batch. A bucket
that waits for too long is merged upwards while the next one has room, and filled up
with dummy rows. What describes a batch as handed out is changed only when the
iteration goes on behind its yield.
-/

namespace PrimeRl.Trainer.SftData

/-- Steps that a bucket waits before it is handed out as it is. -/
def stackingDatasetBucketTimeout : Nat := 10

/-- Halves of an area as long as 256 divides them, the area itself last. -/
def halves : Nat → Nat → List Nat
  | 0, _ => []
  | fuel + 1, maxArea =>
    if maxArea % 256 = 0 then halves fuel (maxArea / 2) ++ [maxArea] else []

/-- The widths of the buckets. Halving a positive area ends within as many steps. -/
def bucketSizes (maxArea : Nat) : List Nat := halves maxArea maxArea

/-- A loader for batches of one area, which the constructor checks. -/
structure StackDataset where
  maxArea : Nat
  positive : 0 < maxArea
  whole : maxArea % 256 = 0

/-- The fields of a stacking dataset that a checkpoint keeps, besides the consumed dataset. -/
structure StackState where
  step : Nat
  buckets : List (List Sample)
  bucketTimers : List (Option Nat)
deriving DecidableEq, Repr

/-- A running iteration. At a yield its local variable holds the bucket that was handed out. -/
structure StackIterator where
  state : StackState
  yielded : Option Nat := none
deriving DecidableEq, Repr

/-- The rows of a batch, for each key. -/
structure PackedSamples where
  inputIds : List (List Int)
  targetIds : List (List Int)
  lossMask : List (List Bool)
  positionIds : List (List Nat)
deriving DecidableEq, Repr

/-- A row that counts for nothing. -/
def dummySample : Sample := ⟨[0], [0], [false], [0]⟩

/-- Rows of one width, zeros behind each item. -/
def packSamples (width : Nat) (bucket : List Sample) : PackedSamples where
  inputIds := bucket.map (fun item =>
    item.inputIds ++ List.replicate (width - item.inputIds.length) 0)
  targetIds := bucket.map (fun item =>
    item.targetIds ++ List.replicate (width - item.targetIds.length) 0)
  lossMask := bucket.map (fun item =>
    item.lossMask ++ List.replicate (width - item.lossMask.length) false)
  positionIds := bucket.map (fun item =>
    item.positionIds ++ List.replicate (width - item.positionIds.length) 0)

/-- The first bucket that is wide enough, or else the last one. -/
def findBucketIdx : List Nat → Nat → Nat
  | size :: next :: rest, lenSample =>
    if size < lenSample then findBucketIdx (next :: rest) lenSample + 1 else 0
  | _, _ => 0

namespace StackState

def bucket (state : StackState) (bucketIdx : Nat) : List Sample := state.buckets.getD bucketIdx []

def setBucket (state : StackState) (bucketIdx : Nat) (items : List Sample) : StackState :=
  { state with buckets := state.buckets.set bucketIdx items }

def setTimer (state : StackState) (bucketIdx : Nat) (timer : Option Nat) : StackState :=
  { state with bucketTimers := state.bucketTimers.set bucketIdx timer }

/-- Move a bucket into the next one as long as that leaves the next one short. -/
def mergeUp (sizes : List Nat) (maxArea : Nat) : Nat → Nat → StackState → Nat × StackState
  | 0, bucketIdx, state => (bucketIdx, state)
  | fuel + 1, bucketIdx, state =>
    if bucketIdx < state.buckets.length - 1 ∧
        sizes.getD (bucketIdx + 1) 0 *
          ((state.bucket bucketIdx).length + (state.bucket (bucketIdx + 1)).length) < maxArea then
      mergeUp sizes maxArea fuel (bucketIdx + 1)
        (((state.setBucket (bucketIdx + 1)
            (state.bucket (bucketIdx + 1) ++ state.bucket bucketIdx)).setBucket bucketIdx []).setTimer
          bucketIdx none)
    else (bucketIdx, state)

end StackState

/-- Dummy rows behind a bucket until it fills the area. -/
def fillUp (size maxArea : Nat) : Nat → List Sample → List Sample
  | 0, bucket => bucket
  | fuel + 1, bucket =>
    if size * bucket.length < maxArea then fillUp size maxArea fuel (bucket ++ [dummySample])
    else bucket

namespace StackDataset

def sizes (dataset : StackDataset) : List Nat := bucketSizes dataset.maxArea

def init (dataset : StackDataset) : StackState where
  step := 0
  buckets := List.replicate dataset.sizes.length []
  bucketTimers := List.replicate dataset.sizes.length none

/-- What the iteration does behind its yield before it takes the next sample. -/
def settle (iterator : StackIterator) : StackState :=
  match iterator.yielded with
  | none => iterator.state
  | some bucketIdx =>
    ({ iterator.state with step := iterator.state.step + 1 }.setBucket bucketIdx []).setTimer
      bucketIdx none

def truncate (dataset : StackDataset) (sample : Sample) : Sample :=
  if dataset.maxArea < sample.inputIds.length then sample.truncate dataset.maxArea else sample

/-- One sample of the consumed dataset, and the batch that is handed out with it. -/
def pass (dataset : StackDataset) (iterator : StackIterator) (sample : Sample) :
    StackIterator × Option PackedSamples :=
  let state := settle iterator
  let sample := dataset.truncate sample
  let bucketIdx := findBucketIdx dataset.sizes sample.inputIds.length
  let state := state.setBucket bucketIdx (state.bucket bucketIdx ++ [sample])
  let bucketTimer := state.bucketTimers.getD bucketIdx none
  let hitTimeout := bucketTimer.any (fun timer =>
    decide (timer + stackingDatasetBucketTimeout < state.step))
  let isFull := decide (dataset.maxArea ≤
    dataset.sizes.getD bucketIdx 0 * (state.bucket bucketIdx).length)
  if isFull || hitTimeout then
    let ready :=
      if hitTimeout then
        let merged := state.mergeUp dataset.sizes dataset.maxArea dataset.sizes.length bucketIdx
        (merged.1, merged.2.setBucket merged.1
          (fillUp (dataset.sizes.getD merged.1 0) dataset.maxArea dataset.maxArea
            (merged.2.bucket merged.1)))
      else (bucketIdx, state)
    (⟨ready.2, some ready.1⟩,
      some (packSamples (dataset.sizes.getD ready.1 0) (ready.2.bucket ready.1)))
  else
    (⟨if bucketTimer.isNone then state.setTimer bucketIdx (some state.step) else state, none⟩, none)

/-- The batches of so many samples. -/
def iterate (dataset : StackDataset) : StackIterator → List Sample → StackIterator × List PackedSamples
  | iterator, [] => (iterator, [])
  | iterator, sample :: samples =>
    let result := dataset.pass iterator sample
    let later := iterate dataset result.1 samples
    (later.1, result.2.toList ++ later.2)

def save (iterator : StackIterator) : StackState := iterator.state

def load (saved : StackState) : StackIterator := { state := saved }

end StackDataset

end PrimeRl.Trainer.SftData
