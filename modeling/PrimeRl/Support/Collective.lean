import Mathlib.Data.Fintype.Basic
import Mathlib.Logic.Function.Basic
import PrimeRl.Support.Machine

/-!
# Ranks that meet at barriers

Every rank runs a straight program of its own. A barrier lets all ranks pass
together once each of them waits at one, whichever barrier of its program that
is. So the ranks have always passed equally many barriers, and when their
programs list the same barriers they have passed the same ones.
-/

namespace Collective

universe u v
variable {Action : Type u} {Label : Type v} {size : Nat}

inductive Instruction (Action : Type u) (Label : Type v) where
  | act (action : Action)
  | barrier (label : Label)
deriving DecidableEq, Repr

def Instruction.label : Instruction Action Label → Option Label
  | .act _ => none
  | .barrier label => some label

/-- The barriers of a program, in order. -/
def barriers (program : List (Instruction Action Label)) : List Label :=
  program.filterMap Instruction.label

/-- What each rank has done, and what is left of its program. -/
structure Ranks (Action : Type u) (Label : Type v) (size : Nat) where
  done : Fin size → List (Instruction Action Label)
  left : Fin size → List (Instruction Action Label)

def Ranks.start (programs : Fin size → List (Instruction Action Label)) : Ranks Action Label size where
  done := fun _ => []
  left := programs

/-- One rank acts, or all of them meet. -/
inductive Move (size : Nat) where
  | act (rank : Fin size)
  | meet

/-- A rank waits at a barrier. -/
def waits (program : List (Instruction Action Label)) : Bool :=
  program.head?.any (fun instruction => instruction.label.isSome)

def step (ranks : Ranks Action Label size) : Move size → Option (Ranks Action Label size)
  | .act rank =>
      match ranks.left rank with
      | .act action :: rest =>
          some
            { done := Function.update ranks.done rank (ranks.done rank ++ [.act action])
              left := Function.update ranks.left rank rest }
      | _ => none
  | .meet =>
      if ∀ rank, waits (ranks.left rank) then
        some
          { done := fun rank => ranks.done rank ++ (ranks.left rank).take 1
            left := fun rank => (ranks.left rank).drop 1 }
      else none

theorem barriers_append (before after : List (Instruction Action Label)) :
    barriers (before ++ after) = barriers before ++ barriers after :=
  List.filterMap_append

/-- Every rank is somewhere in its program, and all have passed equally many
barriers. -/
structure Aligned (programs : Fin size → List (Instruction Action Label))
    (ranks : Ranks Action Label size) : Prop where
  program : ∀ rank, ranks.done rank ++ ranks.left rank = programs rank
  passed : ∀ rank other, (barriers (ranks.done rank)).length = (barriers (ranks.done other)).length

theorem aligned_start (programs : Fin size → List (Instruction Action Label)) :
    Aligned programs (.start programs) where
  program := fun _ => rfl
  passed := fun _ _ => rfl

theorem waits_barrier {program : List (Instruction Action Label)} (waiting : waits program) :
    (barriers (program.take 1)).length = 1 := by
  cases program with
  | nil => cases waiting
  | cons instruction rest =>
    cases instruction with
    | act action => cases waiting
    | barrier label => rfl

theorem step_aligned {programs : Fin size → List (Instruction Action Label)}
    {ranks next : Ranks Action Label size} (move : Move size) (aligned : Aligned programs ranks)
    (stepped : step ranks move = some next) : Aligned programs next := by
  cases move with
  | act rank =>
    rw [step] at stepped
    split at stepped
    · rename_i action rest isLeft
      obtain rfl := Option.some.inj stepped
      have same (other : Fin size) :
          (barriers (Function.update ranks.done rank (ranks.done rank ++ [.act action]) other)).length =
            (barriers (ranks.done other)).length := by
        by_cases isRank : other = rank
        · rw [isRank, Function.update_self, barriers_append, List.length_append]
          rfl
        · rw [Function.update_of_ne isRank]
      constructor
      · intro other
        dsimp only
        by_cases isRank : other = rank
        · have before := aligned.program rank
          rw [isLeft] at before
          rw [isRank, Function.update_self, Function.update_self, List.append_assoc]
          exact before
        · rw [Function.update_of_ne isRank, Function.update_of_ne isRank]
          exact aligned.program other
      · intro first second
        rw [same, same]
        exact aligned.passed first second
    · cases stepped
  | meet =>
    rw [step] at stepped
    split at stepped
    · rename_i waiting
      obtain rfl := Option.some.inj stepped
      constructor
      · intro rank
        rw [List.append_assoc, List.take_append_drop]
        exact aligned.program rank
      · intro first second
        rw [barriers_append, barriers_append, List.length_append, List.length_append,
          waits_barrier (waiting first), waits_barrier (waiting second), aligned.passed first second]
    · cases stepped

theorem run_aligned {programs : Fin size → List (Instruction Action Label)}
    {ranks : Ranks Action Label size} (moves : List (Move size))
    (ran : Machine.run step (.start programs) moves = some ranks) : Aligned programs ranks :=
  Machine.run_invariant (Aligned programs)
    (fun _ move _ aligned stepped => step_aligned move aligned stepped) (aligned_start programs) ran

/-- Ranks whose programs list the same barriers have passed the same ones. -/
theorem same_passed {programs : Fin size → List (Instruction Action Label)}
    {ranks : Ranks Action Label size} (moves : List (Move size))
    (ran : Machine.run step (.start programs) moves = some ranks) (rank other : Fin size)
    (same : barriers (programs rank) = barriers (programs other)) :
    barriers (ranks.done rank) = barriers (ranks.done other) := by
  have aligned := run_aligned moves ran
  rw [← aligned.program rank, ← aligned.program other, barriers_append, barriers_append] at same
  exact (List.append_inj same (aligned.passed rank other)).1

end Collective
