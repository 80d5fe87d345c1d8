import Mathlib.Data.List.Basic

/-!
# Generators that can be suspended and restored

A generator runs its loop body once in each pass, and a pass yields an item, yields
nothing, or ends the loop. A consumer sees the items, and the checkpoint it takes
between two of them. A generator that is restored from a checkpoint shows what the
suspended one would have shown, if restoring gives back the suspended state. That need
not hold inside a pass: what must be at rest is only at rest where an item was yielded.
-/

namespace Generator

universe u v w
variable {State : Type u} {Item : Type v} {Saved : Type w}

/-- What one pass of the loop does. -/
inductive Event (Item : Type v) where
  | stopped
  | silent
  | yielded (item : Item)
deriving DecidableEq, Repr

/-- Passes up to the next item, or to the end of the loop. Fuel bounds the passes,
because a loop may skip for ever. -/
def next (pass : State → State × Event Item) : Nat → State → Option (State × Option Item)
  | 0, _ => none
  | fuel + 1, state =>
    match pass state with
    | (after, .stopped) => some (after, none)
    | (after, .silent) => next pass fuel after
    | (after, .yielded item) => some (after, some item)

/-- Where a generator is suspended when it has yielded so many items. -/
def taken (pass : State → State × Event Item) (fuel : Nat) : Nat → State → Option State
  | 0, state => some state
  | count + 1, state =>
    match next pass fuel state with
    | some (after, some _) => taken pass fuel count after
    | _ => none

/-- What a consumer sees of one request, with the checkpoint it can take after it. -/
inductive Seen (Item : Type v) (Saved : Type w) where
  | yielded (item : Item) (saved : Saved)
  | stopped (saved : Saved)
  | running
deriving DecidableEq, Repr

/-- What a consumer sees of so many requests. -/
def observed (pass : State → State × Event Item) (save : State → Saved) (fuel : Nat) :
    Nat → State → List (Seen Item Saved)
  | 0, _ => []
  | count + 1, state =>
    match next pass fuel state with
    | some (after, some item) => .yielded item (save after) :: observed pass save fuel count after
    | some (after, none) => [.stopped (save after)]
    | none => [.running]

/-- The states after so many passes, up to the end of the loop. -/
def passes (pass : State → State × Event Item) : Nat → State → List State
  | 0, _ => []
  | count + 1, state =>
    match pass state with
    | (_, .stopped) => []
    | (after, _) => after :: passes pass count after

/-- What makes a checkpoint exact: an invariant of every pass, and what is at rest
wherever an item was yielded. -/
structure Checkpoint (pass : State → State × Event Item) (save : State → Saved)
    (load : Saved → State) (start : State) where
  Good : State → Prop
  AtRest : State → Prop
  starts : Good start
  startsAtRest : AtRest start
  passes : ∀ state, Good state → Good (pass state).1
  rests : ∀ state after item, Good state → pass state = (after, .yielded item) → AtRest after
  restores : ∀ state, Good state → AtRest state → load (save state) = state

variable {pass : State → State × Event Item} {save : State → Saved} {load : Saved → State}
  {start : State}

theorem next_good (checkpoint : Checkpoint pass save load start) {fuel : Nat} {state after : State}
    {result : Option Item} (good : checkpoint.Good state)
    (ran : next pass fuel state = some (after, result)) :
    checkpoint.Good after ∧ (result.isSome → checkpoint.AtRest after) := by
  induction fuel generalizing state with
  | zero => cases ran
  | succ fuel inductionHypothesis =>
    have goodPass := checkpoint.passes state good
    rw [next] at ran
    split at ran
    · rename_i isPass
      cases ran
      rw [isPass] at goodPass
      exact ⟨goodPass, fun impossible => nomatch impossible⟩
    · rename_i isPass
      rw [isPass] at goodPass
      exact inductionHypothesis goodPass ran
    · rename_i isPass
      cases ran
      rw [isPass] at goodPass
      exact ⟨goodPass, fun _ => checkpoint.rests state _ _ good isPass⟩

/-- A checkpoint taken between two items restores the suspended generator. -/
theorem Checkpoint.restores_taken (checkpoint : Checkpoint pass save load start)
    {fuel count : Nat} {before state : State} (good : checkpoint.Good before)
    (rest : checkpoint.AtRest before) (suspended : taken pass fuel count before = some state) :
    load (save state) = state := by
  induction count generalizing before with
  | zero =>
    obtain rfl := Option.some.inj suspended
    exact checkpoint.restores before good rest
  | succ count inductionHypothesis =>
    rw [taken] at suspended
    split at suspended
    · rename_i after item ran
      obtain ⟨goodAfter, restAfter⟩ := next_good checkpoint good ran
      exact inductionHypothesis goodAfter (restAfter rfl) suspended
    · cases suspended

/-- A restored generator shows what the suspended one would have shown. -/
theorem Checkpoint.resumes (checkpoint : Checkpoint pass save load start) {fuel count : Nat}
    {state : State} (suspended : taken pass fuel count start = some state) (later requests : Nat) :
    observed pass save later requests (load (save state)) =
      observed pass save later requests state := by
  rw [checkpoint.restores_taken checkpoint.starts checkpoint.startsAtRest suspended]

end Generator
