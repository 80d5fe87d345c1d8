import Mathlib.Algebra.Order.Ring.Nat
import Mathlib.Data.Int.Init
import PrimeRl.Support.Generator

/-!
# The SFT data stream

Every data rank walks the whole stream of positions, one in each pass of its loop, and
skips those of the other ranks. The position decides the epoch, and the epoch the order
in which the examples are visited. Tokenizing an example may refuse it.
-/

namespace PrimeRl.Trainer.SftData

open Generator (Event)

universe u v
variable {Example : Type u}

/-- The rank that a data loader worker of a process takes, and the number of such ranks. -/
def dataRank (rank nonDpSize numWorkers workerId : Nat) : Nat :=
  rank / nonDpSize * numWorkers + workerId

def dataWorldSize (worldSize nonDpSize numWorkers : Nat) : Nat :=
  worldSize / nonDpSize * numWorkers

/-- The data ranks are the numbers below the data world size. -/
theorem data_rank_lt {rank worldSize nonDpSize numWorkers workerId : Nat}
    (divides : nonDpSize ∣ worldSize) (process : rank < worldSize) (worker : workerId < numWorkers) :
    dataRank rank nonDpSize numWorkers workerId < dataWorldSize worldSize nonDpSize numWorkers := by
  have earlier : rank / nonDpSize + 1 ≤ worldSize / nonDpSize :=
    Nat.div_lt_div_of_lt_of_dvd divides process
  have scaled := Nat.mul_le_mul_right numWorkers earlier
  rw [Nat.succ_mul] at scaled
  rw [dataRank, dataWorldSize]
  omega

/-- Every data rank is that of a worker. -/
theorem data_rank_covers {worldSize nonDpSize numWorkers : Nat} (divides : nonDpSize ∣ worldSize)
    (positive : 0 < nonDpSize) {shard : Nat}
    (below : shard < dataWorldSize worldSize nonDpSize numWorkers) :
    ∃ rank workerId, rank < worldSize ∧ workerId < numWorkers ∧
      dataRank rank nonDpSize numWorkers workerId = shard := by
  rw [dataWorldSize] at below
  have workers : 0 < numWorkers := by
    by_contra none
    rw [Nat.le_zero.mp (Nat.not_lt.mp none), Nat.mul_zero] at below
    omega
  have group : shard / numWorkers < worldSize / nonDpSize :=
    Nat.div_lt_of_lt_mul (by rw [Nat.mul_comm]; exact below)
  refine ⟨shard / numWorkers * nonDpSize, shard % numWorkers, ?_, Nat.mod_lt _ workers, ?_⟩
  · calc shard / numWorkers * nonDpSize < worldSize / nonDpSize * nonDpSize :=
          Nat.mul_lt_mul_of_pos_right group positive
      _ = worldSize := Nat.div_mul_cancel divides
  · rw [dataRank, Nat.mul_div_cancel _ positive, Nat.div_add_mod']

structure Sample where
  inputIds : List Int := []
  targetIds : List Int := []
  lossMask : List Bool := []
  positionIds : List Nat := []
deriving DecidableEq, Repr

structure StateDict where
  step : Nat
  epoch : Nat
deriving DecidableEq, Repr

/-- The fields of a dataset that its iteration changes and a checkpoint keeps. -/
structure DatasetState where
  step : Nat := 0
  epoch : Nat := 0
deriving DecidableEq, Repr

def DatasetState.stateDict (state : DatasetState) : StateDict := ⟨state.step, state.epoch⟩

def DatasetState.loadStateDict (_ : DatasetState) (saved : StateDict) : DatasetState :=
  ⟨saved.step, saved.epoch⟩

/-- What a dataset is built from. A seed gives one permutation of the examples. -/
structure SFTDataset (Example : Type u) where
  examples : List Example
  nonempty : 0 < examples.length
  shuffle : Bool
  permutation : Int → List Nat
  permutes : ∀ seed, (permutation seed).Perm (List.range examples.length)
  seed : Int
  maxEpochs : Option Int
  dataRank : Nat
  dataWorldSize : Nat
  process : Example → Option Sample

/-- A running iteration: the state of the dataset, and the order its local variable holds. -/
structure SFTIterator where
  state : DatasetState
  order : List Nat
deriving DecidableEq, Repr

namespace SFTDataset

def numExamples (dataset : SFTDataset Example) : Nat := dataset.examples.length

/-- The order of an epoch. -/
def order (dataset : SFTDataset Example) (epoch : Nat) : List Nat :=
  if dataset.shuffle then dataset.permutation (epoch + dataset.seed)
  else List.range dataset.numExamples

def iter (dataset : SFTDataset Example) (state : DatasetState) : SFTIterator :=
  ⟨state, dataset.order state.epoch⟩

/-- The stream ends before an epoch. -/
def Reached (dataset : SFTDataset Example) (epoch : Nat) : Prop :=
  ∃ maxEpochs, dataset.maxEpochs = some maxEpochs ∧ maxEpochs ≤ epoch

instance (dataset : SFTDataset Example) (epoch : Nat) : Decidable (dataset.Reached epoch) :=
  match isMax : dataset.maxEpochs with
  | none => isFalse (fun ⟨_, isSome, _⟩ => by rw [isMax] at isSome; cases isSome)
  | some maxEpochs =>
    decidable_of_iff (maxEpochs ≤ (epoch : Int))
      ⟨fun le => ⟨maxEpochs, isMax, le⟩, fun ⟨_, isSome, le⟩ => by
        rw [isMax] at isSome
        exact Option.some.inj isSome ▸ le⟩

/-- The index at the current position, unless the position is of another rank. -/
def visited (dataset : SFTDataset Example) (iterator : SFTIterator) : Option Nat :=
  if (iterator.state.step - 1) % dataset.dataWorldSize ≠ dataset.dataRank then none
  else iterator.order[(iterator.state.step - 1) % dataset.numExamples]?

/-- Go to the next position, and to the order of its epoch if that is a new one. -/
def advance (dataset : SFTDataset Example) (iterator : SFTIterator) : SFTIterator :=
  let step := iterator.state.step + 1
  let epoch := (step - 1) / dataset.numExamples
  if iterator.state.epoch < epoch then ⟨⟨step, epoch⟩, dataset.order epoch⟩
  else { iterator with state := { iterator.state with step := step } }

/-- One pass of the loop. An index of the order is never outside the examples. -/
def pass (dataset : SFTDataset Example) (iterator : SFTIterator) : SFTIterator × Event Sample :=
  let step := iterator.state.step + 1
  let epoch := (step - 1) / dataset.numExamples
  if dataset.Reached epoch then ({ iterator with state := { iterator.state with step := step } }, .stopped)
  else
    let next := dataset.advance iterator
    match ((dataset.visited next).bind (dataset.examples[·]?)).bind dataset.process with
    | none => (next, .silent)
    | some sample => (next, .yielded sample)

def save (iterator : SFTIterator) : StateDict := iterator.state.stateDict

/-- A freshly built dataset that loads a checkpoint, and its iteration. -/
def load (dataset : SFTDataset Example) (saved : StateDict) : SFTIterator :=
  dataset.iter (({} : DatasetState).loadStateDict saved)

def start (dataset : SFTDataset Example) : SFTIterator := dataset.iter {}

end SFTDataset

/-! ## Packing -/

namespace Sample

def extend (packed sample : Sample) : Sample where
  inputIds := packed.inputIds ++ sample.inputIds
  targetIds := packed.targetIds ++ sample.targetIds
  lossMask := packed.lossMask ++ sample.lossMask
  positionIds := packed.positionIds ++ sample.positionIds

def truncate (packed : Sample) (seqLen : Nat) : Sample where
  inputIds := packed.inputIds.take seqLen
  targetIds := packed.targetIds.take seqLen
  lossMask := packed.lossMask.take seqLen
  positionIds := packed.positionIds.take seqLen

end Sample

structure CatStateDict (Saved : Type v) where
  dataset : Saved
deriving DecidableEq, Repr

/-- A running concatenation: the iteration it consumes, and its local variables. -/
structure CatIterator (State : Type u) where
  inner : State
  packed : Sample := {}
  seqLen : Nat := 0
deriving DecidableEq, Repr

namespace CatDataset

variable {State : Type u} {Saved : Type v}

/-- One pass over a sample of the dataset. The local variables are reset when the
iteration goes on from its yield, and nothing reads them in between. -/
def pass (inner : State → State × Event Sample) (seqLen : Nat) (iterator : CatIterator State) :
    CatIterator State × Event Sample :=
  match inner iterator.inner with
  | (after, .stopped) => ({ iterator with inner := after }, .stopped)
  | (after, .silent) => ({ iterator with inner := after }, .silent)
  | (after, .yielded sample) =>
    let packed := iterator.packed.extend sample
    let packedLen := iterator.seqLen + sample.inputIds.length
    if seqLen ≤ packedLen then ({ inner := after }, .yielded (packed.truncate seqLen))
    else (⟨after, packed, packedLen⟩, .silent)

def save (inner : State → Saved) (iterator : CatIterator State) : CatStateDict Saved :=
  ⟨inner iterator.inner⟩

def load (inner : Saved → State) (saved : CatStateDict Saved) : CatIterator State :=
  { inner := inner saved.dataset }

end CatDataset

end PrimeRl.Trainer.SftData
