import Mathlib.Data.List.Range
import PrimeRl.Pipeline.PolicyUpdates

/-!
# What one event of the pipeline can do

Each accepted event is one case of `Step`, with what it needs and the state it leaves.
The invariants below are stated over the steps. A restored policy over NCCL is received
before anything else happens, so a run either has not begun or starts restored.
-/

namespace PrimeRl.PolicyUpdates

/-- One accepted event of a pipeline that is past its restore. -/
inductive Step (config : PipelineConfig) (state : Pipeline) : Event → Pipeline → Prop where
  | send (running : state.stopped = false) (open_ : state.draining = false)
      (counted : state.shipping = false) (within : pastLastStep config state.step = false) :
      Step config state .send
        { state with sent := state.sent ++ [state.step], shipping := true }
  | past (open_ : state.draining = false) (counted : state.shipping = false)
      (past : pastLastStep config state.step = true) :
      Step config state .send { state with draining := true }
  | ship (running : state.stopped = false) (shipping : state.shipping = true) :
      Step config state .ship
        { { state with step := state.step + 1 }.updateDispatchGate with
          shipping := false
          draining := reachesLastStep config state.step }
  | stop (running : state.stopped = false) (draining : state.draining = true)
      (adopted : requiredBroadcastsAdopted config state.version = true) :
      Step config state .stop { state with stopped := true }
  | poll (running : state.stopped = false) (idle : state.watcher = .idle)
      (newer : state.ckptStep < computeNextCkptStep state) :
      Step config state .poll { state with watcher := .waiting (computeNextCkptStep state) }
  | confirm (nextStep : Nat) (running : state.stopped = false)
      (waiting : state.watcher = .waiting nextStep) (marked : nextStep ∈ state.stable) :
      Step config state .confirm { state with watcher := .pending nextStep }
  | drain (nextStep : Nat) (running : state.stopped = false)
      (pending : state.watcher = .pending nextStep) :
      Step config state .drain { state with watcher := .pausing nextStep }
  | pause (nextStep : Nat) (running : state.stopped = false)
      (pausing : state.watcher = .pausing nextStep) :
      Step config state .pause
        { state with
          ncclReady := state.ncclReady ++ [nextStep]
          watcher := .receiving nextStep }
  | load (nextStep : Nat) (running : state.stopped = false)
      (filesystem : config.weightBroadcast = .filesystem)
      (receiving : state.watcher = .receiving nextStep) (marked : nextStep ∈ state.stable) :
      Step config state .load { state with weights := nextStep, watcher := .received nextStep }
  | adopt (nextStep : Nat) (running : state.stopped = false)
      (received : state.watcher = .received nextStep) :
      Step config state .adopt
        { state with
          ckptStep := nextStep
          version := nextStep
          watcher := .announcing nextStep }
  | notify (nextStep : Nat) (running : state.stopped = false)
      (announcing : state.watcher = .announcing nextStep) :
      Step config state .notify { state.updateDispatchGate with watcher := .idle }
  | take (batch : Nat) (rest : List Nat) (waiting : state.trainer = .waiting)
      (queued : state.sent = batch :: rest) :
      Step config state .take { state with sent := rest, trainer := .trained }
  | skip (trained : state.trainer = .trained)
      (unused : ncclBroadcastUnused config state.trainerStep = true) :
      Step config state .publish { state with trainer := .broadcast }
  | announce (trained : state.trainer = .trained)
      (used : ncclBroadcastUnused config state.trainerStep = false)
      (nccl : config.weightBroadcast = .nccl) :
      Step config state .publish
        { state with
          stable := state.stable ++ [state.trainerStep]
          trainer := .announced }
  | publish (trained : state.trainer = .trained)
      (filesystem : config.weightBroadcast = .filesystem) :
      Step config state .publish
        { state with
          stable := state.stable ++ [state.trainerStep]
          trainer := .published }
  | proceed (announced : state.trainer = .announced)
      (ready : state.trainerStep ∈ state.ncclReady) :
      Step config state .proceed { state with trainer := .sending }
  | transfer (nextStep : Nat) (running : state.stopped = false)
      (sending : state.trainer = .sending) (receiving : state.watcher = .receiving nextStep) :
      Step config state .transfer
        { state with
          weights := state.trainerStep
          trainer := .broadcast
          watcher := .received nextStep }
  | clean (published : state.trainer = .published) :
      Step config state .clean
        { state with
          stable := maybeClean state.stable state.trainerStep config.ckptInterval
          trainer := .broadcast }
  | exit (broadcast : state.trainer = .broadcast)
      (last : config.maxSteps = some state.trainerStep) :
      Step config state .finish { state with trainer := .exited }
  | finish (broadcast : state.trainer = .broadcast)
      (more : config.maxSteps ≠ some state.trainerStep) :
      Step config state .finish
        { state with trainerStep := state.trainerStep + 1, trainer := .waiting }

theorem next_step {config : PipelineConfig} {state after : Pipeline} {event : Event}
    (restored : state.watcher ≠ .restoring) (accepted : state.next config event = some after) :
    Step config state event after := by
  cases event <;> simp only [Pipeline.next] at accepted
  case send =>
    split at accepted
    · cases accepted
    · rename_i free
      simp only [Bool.or_eq_true, decide_eq_true_eq, not_or, Bool.not_eq_true] at free
      split at accepted <;> obtain rfl := Option.some.inj accepted
      · exact .past free.1.1.2 free.1.2 ‹_›
      · exact .send free.1.1.1 free.1.1.2 free.1.2 (eq_false_of_ne_true ‹_›)
  case ship =>
    split at accepted
    · cases accepted
    · rename_i free
      obtain rfl := Option.some.inj accepted
      simp only [Bool.or_eq_true, Bool.not_eq_true', not_or, Bool.not_eq_true,
        Bool.not_eq_false] at free
      exact .ship free.1 free.2
  case stop =>
    split at accepted
    · rename_i free
      obtain rfl := Option.some.inj accepted
      simp only [Bool.and_eq_true, Bool.not_eq_true'] at free
      exact .stop free.1.1 free.1.2 free.2
    · cases accepted
  case poll =>
    split at accepted
    · cases accepted
    · split at accepted
      · split at accepted
        · obtain rfl := Option.some.inj accepted
          exact .poll (eq_false_of_ne_true ‹_›) ‹_› ‹_›
        · cases accepted
      · cases accepted
  case confirm =>
    split at accepted
    · cases accepted
    · split at accepted
      · split at accepted
        · obtain rfl := Option.some.inj accepted
          exact .confirm _ (eq_false_of_ne_true ‹_›) ‹_› ‹_›
        · cases accepted
      · cases accepted
  case drain =>
    split at accepted
    · cases accepted
    · split at accepted
      · obtain rfl := Option.some.inj accepted
        exact .drain _ (eq_false_of_ne_true ‹_›) ‹_›
      · cases accepted
  case pause =>
    split at accepted
    · cases accepted
    · split at accepted
      · obtain rfl := Option.some.inj accepted
        exact .pause _ (eq_false_of_ne_true ‹_›) ‹_›
      · cases accepted
  case load =>
    split at accepted
    · cases accepted
    · split at accepted
      · split at accepted
        · obtain rfl := Option.some.inj accepted
          exact .load _ (eq_false_of_ne_true ‹_›) ‹_› ‹_› ‹_›
        · cases accepted
      · cases accepted
  case adopt =>
    split at accepted
    · cases accepted
    · split at accepted
      · obtain rfl := Option.some.inj accepted
        exact .adopt _ (eq_false_of_ne_true ‹_›) ‹_›
      · cases accepted
  case notify =>
    split at accepted
    · cases accepted
    · split at accepted
      · obtain rfl := Option.some.inj accepted
        exact .notify _ (eq_false_of_ne_true ‹_›) ‹_›
      · cases accepted
  case take =>
    split at accepted
    · obtain rfl := Option.some.inj accepted
      exact .take _ _ ‹_› ‹_›
    · cases accepted
  case publish =>
    split at accepted
    · split at accepted
      · obtain rfl := Option.some.inj accepted
        exact .skip ‹_› ‹_›
      · split at accepted <;> obtain rfl := Option.some.inj accepted
        · exact .announce ‹_› (eq_false_of_ne_true ‹_›) ‹_›
        · exact .publish ‹_› ‹_›
    · cases accepted
  case proceed =>
    split at accepted
    · split at accepted
      · obtain rfl := Option.some.inj accepted
        exact .proceed ‹_› ‹_›
      · cases accepted
    · cases accepted
  case transfer =>
    split at accepted
    · cases accepted
    · split at accepted
      · contradiction
      · obtain rfl := Option.some.inj accepted
        exact .transfer _ (eq_false_of_ne_true ‹_›) ‹_› ‹_›
      · cases accepted
  case clean =>
    split at accepted
    · obtain rfl := Option.some.inj accepted
      exact .clean ‹_›
    · cases accepted
  case finish =>
    split at accepted
    · split at accepted <;> obtain rfl := Option.some.inj accepted
      · exact .exit ‹_› ‹_›
      · exact .finish ‹_› ‹_›
    · cases accepted

end PrimeRl.PolicyUpdates
