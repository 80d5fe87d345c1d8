import Mathlib.Data.String.Basic
import PrimeRl.Trainer.Batch
import PrimeRl.Trainer.Runs

/-!
# Packing samples of several runs

The packer of a trainer with several runs buffers each run's samples with the
step they belong to, waits until a step's worth of tokens can be consumed, takes
samples run by run from a position that persists, moves a run's progress when
the last sample of its step is taken, and packs each run's samples separately.
Discovery neither adds nor forgets runs here.
-/

namespace PrimeRl.Trainer.Packer

open PrimeRl.Trainer.Batch PrimeRl.Trainer.Runs PrimeRl.Transport

/-- A buffered sample with the step it was sent for. -/
abbrev Entry (Scalar : Type) := TrainingSample Scalar × Int

def sampleTokens {Scalar : Type} (entry : Entry Scalar) : Nat := entry.1.tokenIds.length

structure MultiPacker (Scalar : Type) where
  manager : MultiRunManager
  dpWorldSize : ℕ+
  seqLen : Nat
  padToMultipleOf : Nat
  binCost : List Nat → Int
  buffers : List (List (Entry Scalar))
  roundRobinPosition : Nat
  evictions : List (Nat × String)

variable {Scalar : Type}

/-- A packer starts with an empty buffer for each slot. -/
def MultiPacker.init (manager : MultiRunManager) (dpWorldSize : ℕ+) (seqLen padToMultipleOf : Nat)
    (binCost : List Nat → Int) : MultiPacker Scalar where
  manager := manager
  dpWorldSize := dpWorldSize
  seqLen := seqLen
  padToMultipleOf := padToMultipleOf
  binCost := binCost
  buffers := List.replicate manager.maxRuns []
  roundRobinPosition := 0
  evictions := []

def MultiPacker.tokenBudget (packer : MultiPacker Scalar) : Nat :=
  packer.seqLen * packer.dpWorldSize

def MultiPacker.buffer (packer : MultiPacker Scalar) (idx : Nat) :
    Except String (List (Entry Scalar)) :=
  match packer.buffers[idx]? with
  | some buffer => .ok buffer
  | none => .error "list index out of range"

/-! ## Receiving -/

/-- The first stream that does not have a value for each token. -/
def misalignedStream (sample : TrainingSample Scalar) : Option (String × Nat) :=
  [("mask", sample.mask.length), ("logprobs", sample.logprobs.length),
    ("temperatures", sample.temperatures.length)].find?
      (fun stream => decide (stream.2 ≠ sample.tokenIds.length))

/-- The checks that keep a sample from crashing the trainer. -/
def validateSample (seqLen : Nat) (sample : TrainingSample Scalar) : Except String Unit :=
  let sampleLength := sample.tokenIds.length
  match misalignedStream sample with
  | some (name, length) =>
      .error s!"Run wrote a sample with {name} length != token_ids length ({length} != {sampleLength})"
  | none =>
      if sampleLength = 0 then .error "Run wrote a sample with no tokens"
      else if seqLen < sampleLength then
        .error s!"Run wrote a sample with length {sampleLength} which exceeds max sequence length {seqLen}"
      else
        match sample.refLogprobs with
        | none => .ok ()
        | some refLogprobs =>
            let length := refLogprobs.length
            if length ≠ sampleLength then
              .error s!"Run wrote a sample with ref logprobs length != sample length ({length} != {sampleLength})"
            else .ok ()

def MultiPacker.evictRun (packer : MultiPacker Scalar) (idx : Nat) (reason : String) :
    MultiPacker Scalar :=
  if idx ∈ packer.manager.idx2Id then
    { packer with evictions := packer.evictions ++ [(idx, reason)] }
  else packer

def MultiPacker.append (packer : MultiPacker Scalar) (idx : Nat) (entry : Entry Scalar) :
    Except String (MultiPacker Scalar) :=
  if idx < packer.buffers.length then
    .ok { packer with buffers := packer.buffers.modify idx (· ++ [entry]) }
  else .error "list index out of range"

/-- An invalid sample evicts its run and ends the batch. -/
def bufferExamples (idx : Nat) (step : Int) :
    List (TrainingSample Scalar) → MultiPacker Scalar → Except String (MultiPacker Scalar)
  | [], packer => .ok packer
  | sample :: rest, packer =>
      match validateSample packer.seqLen sample with
      | .error reason =>
          .ok (packer.evictRun idx ("Run wrote a sample with invalid data: " ++ reason))
      | .ok () => do
          let packer ← packer.append idx (sample, step)
          bufferExamples idx step rest packer

def receiveBatch (packer : MultiPacker Scalar) (batch : TrainingBatch Scalar) :
    Except String (MultiPacker Scalar) :=
  match batch.runIdx with
  | none => .ok packer
  | some idx =>
      if batch.examples.isEmpty then
        .ok (packer.evictRun idx "Run wrote a batch with no samples")
      else bufferExamples idx batch.step batch.examples packer

def MultiPacker.getBatch (packer : MultiPacker Scalar) (batches : List (TrainingBatch Scalar)) :
    Except String (MultiPacker Scalar) :=
  batches.foldlM receiveBatch packer

/-! ## Waiting -/

/-- Count the samples of a buffer up to its current step. The left side is the
count at which the threshold ends the whole counting. -/
def countBuffer (threshold : Option Nat) (currentStep : Int) :
    Nat → List (Entry Scalar) → Nat ⊕ Nat
  | tokens, [] => .inr tokens
  | tokens, entry :: rest =>
      if currentStep < entry.2 then .inr tokens
      else if threshold.any (fun limit => decide (limit ≤ tokens + sampleTokens entry)) then
        .inl (tokens + sampleTokens entry)
      else countBuffer threshold currentStep (tokens + sampleTokens entry) rest

def countRuns (threshold : Option Nat) (packer : MultiPacker Scalar) :
    Nat → List Nat → Except String Nat
  | tokens, [] => .ok tokens
  | tokens, idx :: rest => do
      let buffer ← packer.buffer idx
      let progress ← subscript packer.manager.progress idx
      match countBuffer threshold progress.step tokens buffer with
      | .inl total => .ok total
      | .inr total => countRuns threshold packer total rest

/-- Slots in use, in increasing order. -/
def usedIdxs (manager : MultiRunManager) : List Nat :=
  Iteration.ascending.order manager.idx2Id.keys

def MultiPacker.countTokens (packer : MultiPacker Scalar) (threshold : Option Nat) :
    Except String Nat :=
  countRuns threshold packer 0 (usedIdxs packer.manager)

def MultiPacker.hasEnoughTokens (packer : MultiPacker Scalar) : Except String Bool := do
  let tokens ← packer.countTokens (some packer.tokenBudget)
  return decide (packer.tokenBudget ≤ tokens)

/-- The batches one receive returns, and whether the time is up at the check behind it. -/
structure Poll (Scalar : Type) where
  batches : List (TrainingBatch Scalar)
  timedOut : Bool

/-- Whether packing starts after a poll: with a full budget, or late with anything. -/
def MultiPacker.stopsWaiting (packer : MultiPacker Scalar) (timedOut : Bool) :
    Except String Bool := do
  let enough ← packer.hasEnoughTokens
  if enough then return true
  if timedOut then
    let tokens ← packer.countTokens none
    return decide (0 < tokens)
  return false

/-- Poll until packing starts. None when the polls are not those of one call:
the call is still waiting behind the last of them, or it starts before. -/
def waitForTokens : MultiPacker Scalar → List (Poll Scalar) →
    Option (Except String (MultiPacker Scalar))
  | _, [] => none
  | packer, poll :: rest =>
      match packer.getBatch poll.batches with
      | .error message => some (.error message)
      | .ok received =>
          match received.stopsWaiting poll.timedOut with
          | .error message => some (.error message)
          | .ok true => if rest.isEmpty then some (.ok received) else none
          | .ok false => waitForTokens received rest

/-! ## Selecting -/

structure Pick (Scalar : Type) where
  runIdx : Nat
  sample : TrainingSample Scalar
  step : Int

/-- What is taken from one buffer, what is left, the tokens collected, and
whether the budget ended the selection. -/
structure Taken (Scalar : Type) where
  selected : List (Entry Scalar)
  rest : List (Entry Scalar)
  collected : Nat
  full : Bool

/-- A sample is counted before it is checked against the budget. One that
exceeds the budget on its own is dropped. -/
def takeSamples (tokenBudget : Nat) (currentStep : Int) :
    Nat → List (Entry Scalar) → Taken Scalar
  | collected, [] => ⟨[], [], collected, false⟩
  | collected, entry :: rest =>
      if currentStep < entry.2 then ⟨[], entry :: rest, collected, false⟩
      else if tokenBudget < collected + sampleTokens entry then
        if collected + sampleTokens entry = sampleTokens entry then
          takeSamples tokenBudget currentStep collected rest
        else ⟨[], entry :: rest, collected + sampleTokens entry, true⟩
      else
        let taken := takeSamples tokenBudget currentStep (collected + sampleTokens entry) rest
        { taken with selected := entry :: taken.selected }

/-- Whether the buffer at a position starts with work for the current step. -/
def MultiPacker.hasWork (packer : MultiPacker Scalar) (position : Nat) : Except String Bool := do
  let buffer ← packer.buffer position
  match buffer with
  | [] => return false
  | entry :: _ =>
      let progress ← subscript packer.manager.progress position
      return decide (entry.2 ≤ progress.step)

def MultiPacker.nextPosition (packer : MultiPacker Scalar) (position : Nat) : Nat :=
  (position + 1) % packer.buffers.length

/-- Walk around the buffers once; none when no position has work. -/
def nextRun (packer : MultiPacker Scalar) : Nat → Nat → Except String (Nat × Option Nat)
  | 0, position => .ok (position, none)
  | remaining + 1, position => do
      let work ← packer.hasWork position
      if work then return (position, some position)
      else nextRun packer remaining (packer.nextPosition position)

/-- The selection loop, for as many rounds as there is fuel. -/
def selectFrom (tokenBudget : Nat) : Nat → MultiPacker Scalar → Nat → List (Pick Scalar) →
    Option (Except String (MultiPacker Scalar × List (Pick Scalar)))
  | 0, _, _, _ => none
  | fuel + 1, packer, collected, selected =>
      if tokenBudget ≤ collected then some (.ok (packer, selected))
      else
        match nextRun packer packer.buffers.length packer.roundRobinPosition with
        | .error message => some (.error message)
        | .ok (position, none) =>
            some (.ok ({ packer with roundRobinPosition := position }, selected))
        | .ok (position, some runIdx) =>
            match packer.buffer runIdx, subscript packer.manager.progress runIdx with
            | .ok buffer, .ok progress =>
                let taken := takeSamples tokenBudget progress.step collected buffer
                let visited := { packer with
                  buffers := packer.buffers.set runIdx taken.rest
                  roundRobinPosition := packer.nextPosition position }
                let selected := selected ++
                  taken.selected.map (fun entry => ⟨runIdx, entry.1, entry.2⟩)
                if taken.full then some (.ok (visited, selected))
                else selectFrom tokenBudget fuel visited taken.collected selected
            | .error message, _ => some (.error message)
            | _, .error message => some (.error message)

/-- Number of samples in all buffers. -/
def MultiPacker.buffered (packer : MultiPacker Scalar) : Nat :=
  (packer.buffers.map List.length).sum

/-- Each round takes a sample or ends the loop, which the fuel counts. -/
def MultiPacker.selectSamplesRoundRobin (packer : MultiPacker Scalar) :
    Option (Except String (MultiPacker Scalar × List (Pick Scalar))) :=
  selectFrom packer.tokenBudget (packer.buffered + 1) packer 0 []

/-! ## Progress -/

/-- The picks of one run, in order, with their counts. -/
structure RunGroup (Scalar : Type) where
  runIdx : Nat
  step : Int
  samples : List (TrainingSample Scalar)
  numSamples : Nat
  numTokens : Nat

/-- Runs are listed in the order of their first pick. -/
def addPick (pick : Pick Scalar) : List (RunGroup Scalar) → Except String (List (RunGroup Scalar))
  | [] => .ok [⟨pick.runIdx, pick.step, [pick.sample], 1, pick.sample.tokenIds.length⟩]
  | group :: rest =>
      if group.runIdx = pick.runIdx then
        if group.step = pick.step then
          .ok ({ group with
            samples := group.samples ++ [pick.sample]
            numSamples := group.numSamples + 1
            numTokens := group.numTokens + pick.sample.tokenIds.length } :: rest)
        else .error "Micro batches for a run must come from a single run step"
      else (addPick pick rest).map (group :: ·)

def groupSamples (selected : List (Pick Scalar)) : Except String (List (RunGroup Scalar)) :=
  selected.foldlM (fun groups pick => addPick pick groups) []

/-- All samples of the current step have been consumed. -/
def stepConsumed (currentStep : Int) : List (Entry Scalar) → Bool
  | [] => true
  | entry :: _ => decide (currentStep < entry.2)

def updateRunProgress (packer : MultiPacker Scalar) (group : RunGroup Scalar) :
    Except String (MultiPacker Scalar) := do
  let buffer ← packer.buffer group.runIdx
  let progress ← subscript packer.manager.progress group.runIdx
  let consumed := stepConsumed progress.step buffer
  let updated : Progress := {
    step := if consumed then progress.step + 1 else progress.step
    totalTokens := progress.totalTokens + group.numTokens
    totalSamples := progress.totalSamples + group.numSamples }
  return { packer with manager := { packer.manager with
    progress := packer.manager.progress.insert group.runIdx updated
    readyToUpdate :=
      if consumed then packer.manager.readyToUpdate.set group.runIdx true
      else packer.manager.readyToUpdate } }

/-- A selection with the progress it makes. -/
structure Selection (Scalar : Type) where
  packer : MultiPacker Scalar
  selected : List (Pick Scalar)
  groups : List (RunGroup Scalar)

/-- Select the samples of one step and move the progress of their runs. -/
def MultiPacker.selectStep (packer : MultiPacker Scalar) :
    Option (Except String (Selection Scalar)) :=
  match packer.selectSamplesRoundRobin with
  | none => none
  | some (.error message) => some (.error message)
  | some (.ok (left, selected)) => some (do
      if selected.isEmpty then .error "No samples selected"
      let groups ← groupSamples selected
      let updated ← groups.foldlM updateRunProgress left
      return ⟨updated, selected, groups⟩)

/-! ## Packing -/

section Pack
variable [Zero Scalar] [One Scalar] [DecidableEq Scalar]

/-- Pack the samples of one run and stamp the run and its step on each micro batch. -/
def MultiPacker.runGrid (numpy : Numpy) (packer : MultiPacker Scalar) (group : RunGroup Scalar) :
    Except String (List (List (MicroBatch Scalar))) := do
  let grid ← prepareBatch numpy group.samples packer.seqLen packer.dpWorldSize
    (List.replicate group.samples.length group.runIdx) packer.manager.maxRuns packer.binCost
    packer.padToMultipleOf
  let runId ← subscript packer.manager.idx2Id group.runIdx
  return grid.map (fun worker => worker.map (fun row =>
    { row with runId := some runId, runStep := some group.step }))

/-- Append the micro batches of one run worker by worker. -/
def mergeGrid (all grid : List (List (MicroBatch Scalar))) : List (List (MicroBatch Scalar)) :=
  all.mapIdx (fun workerIdx batches => batches ++ grid.getD workerIdx [])

/-- The grids of all runs, lowest slot first. -/
def MultiPacker.packGroups (numpy : Numpy) (packer : MultiPacker Scalar)
    (groups : List (RunGroup Scalar)) : Except String (List (List (MicroBatch Scalar))) :=
  (groups.insertionSort (fun first second => first.runIdx ≤ second.runIdx)).foldlM
    (fun all group => do
      let grid ← packer.runGrid numpy group
      return mergeGrid all grid)
    (List.replicate packer.dpWorldSize [])

/-- What one call packs: the selection, and the grid it sends. -/
structure Packed (Scalar : Type) where
  selection : Selection Scalar
  grid : List (List (MicroBatch Scalar))

/-- One call of the packer: wait, select, move the progress, pack and send. -/
def MultiPacker.pack (numpy : Numpy) (packer : MultiPacker Scalar) (polls : List (Poll Scalar)) :
    Option (Except String (Packed Scalar)) :=
  match waitForTokens packer polls with
  | none => none
  | some (.error message) => some (.error message)
  | some (.ok waited) =>
      match waited.selectStep with
      | none => none
      | some (.error message) => some (.error message)
      | some (.ok selection) => some (do
          let grid ← selection.packer.packGroups numpy selection.groups
          assertGrid packer.dpWorldSize grid
          return ⟨selection, grid⟩)

end Pack

end PrimeRl.Trainer.Packer
