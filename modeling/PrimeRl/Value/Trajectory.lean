import PrimeRl.Orchestrator.Trajectories
import PrimeRl.Orchestrator.ValueContext

/-!
# Value trajectories

The critic's own copy of the materialized samples of a rollout. Copying checks
that the streams of a sample are aligned and that only sampled tokens train, so
every sample of a trajectory has these properties.
-/

namespace PrimeRl.Value.Trajectory

open PrimeRl.Orchestrator.Trajectories PrimeRl.Orchestrator.ValueContext PrimeRl.Transport

universe u
variable {Scalar : Type u}

/-- A copied sample with what the copy checked. -/
structure ValueTrajectorySample where
  tokenIds : List Nat
  mask : List Bool
  sampledMask : List Bool
  aligned : tokenIds.length = mask.length ∧ mask.length = sampledMask.length
  provenance : (mask.zip sampledMask).any (fun entry => entry.1 && !entry.2) = false

structure ValueTrajectory (Scalar : Type u) where
  samples : List ValueTrajectorySample
  trainingLayout : Option TrainingLayout
  reward : Scalar
  inserted : Option TokenPrefix
  envName : String
  groupId : String
  policyVersion : Int

/-- Copy one sample. -/
def snapshotSample (sample : TrainingSample Scalar) (sampledMask : List Bool) :
    Except String ValueTrajectorySample :=
  if aligned : sample.tokenIds.length = sample.mask.length ∧
      sample.mask.length = sampledMask.length then
    if provenance : (sample.mask.zip sampledMask).any (fun entry => entry.1 && !entry.2) = false then
      .ok ⟨sample.tokenIds, sample.mask, sampledMask, aligned, provenance⟩
    else .error "value trajectory train mask must follow native sampled provenance"
  else .error "value trajectory token and mask streams must align"

/-- Copy the samples of a rollout; samples and masks are zipped strictly. -/
def snapshotSamples : List (TrainingSample Scalar) → List (List Bool) →
    Except String (List ValueTrajectorySample)
  | [], [] => .ok []
  | [], _ :: _ => .error "zip() argument 2 is longer than argument 1"
  | _ :: _, [] => .error "zip() argument 2 is shorter than argument 1"
  | sample :: samples, sampledMask :: sampledMasks =>
      match snapshotSample sample sampledMask with
      | .error message => .error message
      | .ok owned =>
          match snapshotSamples samples sampledMasks with
          | .error message => .error message
          | .ok rest => .ok (owned :: rest)

def snapshotValueTrajectory (samples : List (TrainingSample Scalar)) (sampledMasks : List (List Bool))
    (layout : Option TrainingLayout) (reward : Scalar) (inserted : Option TokenPrefix)
    (envName groupId : String) (policyVersion : Int) : Except String (ValueTrajectory Scalar) :=
  match snapshotSamples samples sampledMasks with
  | .error message => .error message
  | .ok owned =>
      .ok
        { samples := owned
          trainingLayout := layout
          reward := reward
          inserted := inserted
          envName := envName
          groupId := groupId
          policyVersion := policyVersion }

end PrimeRl.Value.Trajectory
