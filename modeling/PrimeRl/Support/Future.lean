import Mathlib.Tactic.TypeStar

/-!
# Futures

The states of a result that one thread produces and others wait for. A future
that was cancelled or finished refuses another outcome, and it refuses to start
running unless it is pending or was cancelled before anyone started it.
-/

universe u v

inductive Future (Value : Type u) (Failure : Type v) where
  | pending
  | running
  | cancelled
  | cancelledAndNotified
  | resolved (value : Value)
  | failed (failure : Failure)
deriving DecidableEq, Repr

namespace Future

variable {Value : Type u} {Failure : Type v}

/-- Whether the future was cancelled or finished. -/
def done : Future Value Failure → Bool
  | .pending => false
  | .running => false
  | _ => true

/-- Whether someone works on it right now. -/
def isRunning : Future Value Failure → Bool
  | .running => true
  | _ => false

/-- Cancel before anyone started it. The answer is whether it is cancelled now. -/
def cancel : Future Value Failure → Bool × Future Value Failure
  | .pending => (true, .cancelled)
  | .cancelled => (true, .cancelled)
  | .cancelledAndNotified => (true, .cancelledAndNotified)
  | future => (false, future)

/-- Start running, or learn that it was cancelled. Nothing else may be started. -/
def setRunningOrNotifyCancel : Future Value Failure → Option (Bool × Future Value Failure)
  | .pending => some (true, .running)
  | .cancelled => some (false, .cancelledAndNotified)
  | _ => none

/-- Finish with a value, unless it is done already. -/
def setResult (future : Future Value Failure) (value : Value) : Option (Future Value Failure) :=
  if future.done then none else some (.resolved value)

/-- Finish with an exception, unless it is done already. -/
def setException (future : Future Value Failure) (failure : Failure) :
    Option (Future Value Failure) :=
  if future.done then none else some (.failed failure)

end Future
