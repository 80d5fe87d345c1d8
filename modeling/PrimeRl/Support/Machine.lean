import Mathlib.Data.List.Basic

/-!
# Labelled machines and their runs

A machine refuses a label by returning no next state. A run applies a finite
list of labels in order, so quantifying over label lists quantifies over every
interleaving of the actions they name. A property that holds at the start and
survives each accepted label holds wherever a run ends.
-/

namespace Machine

universe u v
variable {State : Type u} {Label : Type v}

/-- Apply labels in order. One refused label refuses the whole run. -/
def run (step : State → Label → Option State) : State → List Label → Option State
  | state, [] => some state
  | state, label :: rest => (step state label).bind (fun next => run step next rest)

@[simp] theorem run_nil (step : State → Label → Option State) (state : State) :
    run step state [] = some state := rfl

/-- A nonempty run is one accepted label followed by a run of the rest. -/
theorem run_cons_iff (step : State → Label → Option State) (state final : State)
    (label : Label) (rest : List Label) :
    run step state (label :: rest) = some final ↔
      ∃ next, step state label = some next ∧ run step next rest = some final := by
  simp only [run, Option.bind_eq_some_iff]

/-- Runs compose at the state where the first one ends. -/
theorem run_append_iff (step : State → Label → Option State) (state final : State)
    (before after : List Label) :
    run step state (before ++ after) = some final ↔
      ∃ middle, run step state before = some middle ∧ run step middle after = some final := by
  induction before generalizing state with
  | nil => simp
  | cons label rest inductionHypothesis =>
    simp only [List.cons_append, run_cons_iff, inductionHypothesis]
    constructor
    · rintro ⟨next, accepted, middle, first, second⟩
      exact ⟨middle, ⟨next, accepted, first⟩, second⟩
    · rintro ⟨middle, ⟨next, accepted, first⟩, second⟩
      exact ⟨next, accepted, middle, first, second⟩

/-- The invariant rule. The step obligation may use that the label was accepted. -/
theorem run_invariant {step : State → Label → Option State} (Holds : State → Prop)
    (preserves : ∀ state label next, Holds state → step state label = some next → Holds next)
    {start final : State} {labels : List Label}
    (initially : Holds start) (ran : run step start labels = some final) : Holds final := by
  induction labels generalizing start with
  | nil =>
    rw [run_nil, Option.some.injEq] at ran
    exact ran ▸ initially
  | cons label rest inductionHypothesis =>
    obtain ⟨next, accepted, remaining⟩ := (run_cons_iff step start final label rest).mp ran
    exact inductionHypothesis (preserves start label next initially accepted) remaining

/-- A condition on each state and the label applied there, at every step of a
run. A refused label ends the run. -/
def Along (step : State → Label → Option State) (Holds : State → Label → Prop) :
    State → List Label → Prop
  | _, [] => True
  | state, label :: rest =>
      Holds state label ∧ ∀ next, step state label = some next → Along step Holds next rest

/-- Two conditions that agree in every state of an invariant agree along every
run, when the steps that meet them keep the invariant. -/
theorem along_iff {step : State → Label → Option State} {Holds Needed : State → Label → Prop}
    (Good : State → Prop)
    (agrees : ∀ state label, Good state → (Holds state label ↔ Needed state label))
    (preserves : ∀ state label next, Good state → Needed state label →
      step state label = some next → Good next)
    {start : State} (labels : List Label) (initially : Good start) :
    Along step Holds start labels ↔ Along step Needed start labels := by
  induction labels generalizing start with
  | nil => exact Iff.rfl
  | cons label rest inductionHypothesis =>
    simp only [Along, agrees start label initially]
    constructor
    · rintro ⟨needed, later⟩
      refine ⟨needed, fun next accepted => ?_⟩
      exact (inductionHypothesis (preserves start label next initially needed accepted)).mp
        (later next accepted)
    · rintro ⟨needed, later⟩
      refine ⟨needed, fun next accepted => ?_⟩
      exact (inductionHypothesis (preserves start label next initially needed accepted)).mpr
        (later next accepted)

/-- What every state of an invariant satisfies holds along every run that meets
the condition the invariant needs. -/
theorem along_of_invariant {step : State → Label → Option State}
    {Holds Needed : State → Label → Prop} (Good : State → Prop)
    (shows : ∀ state label, Good state → Needed state label → Holds state label)
    (preserves : ∀ state label next, Good state → Needed state label →
      step state label = some next → Good next)
    {start : State} (labels : List Label) (initially : Good start)
    (needed : Along step Needed start labels) : Along step Holds start labels := by
  induction labels generalizing start with
  | nil => trivial
  | cons label rest inductionHypothesis =>
    refine ⟨shows start label initially needed.1, fun next accepted => ?_⟩
    exact inductionHypothesis (preserves start label next initially needed.1 accepted)
      (needed.2 next accepted)

/-- The invariant rule for runs that meet a condition at every step. -/
theorem run_invariant_along {step : State → Label → Option State} {Needed : State → Label → Prop}
    (Holds : State → Prop)
    (preserves : ∀ state label next, Holds state → Needed state label →
      step state label = some next → Holds next)
    {start final : State} {labels : List Label} (initially : Holds start)
    (needed : Along step Needed start labels) (ran : run step start labels = some final) :
    Holds final := by
  induction labels generalizing start with
  | nil =>
    rw [run_nil, Option.some.injEq] at ran
    exact ran ▸ initially
  | cons label rest inductionHypothesis =>
    obtain ⟨next, accepted, remaining⟩ := (run_cons_iff step start final label rest).mp ran
    exact inductionHypothesis (preserves start label next initially needed.1 accepted)
      (needed.2 next accepted) remaining

/-- The measure rule: a quantity that every step of an invariant lowers bounds the length of
every run. -/
theorem run_length_le {step : State → Label → Option State} {Needed : State → Label → Prop}
    (Holds : State → Prop) (measure : State → Nat)
    (preserves : ∀ state label next, Holds state → Needed state label →
      step state label = some next → Holds next)
    (lowers : ∀ state label next, Holds state → step state label = some next →
      measure next < measure state)
    {start final : State} {labels : List Label} (initially : Holds start)
    (needed : Along step Needed start labels) (ran : run step start labels = some final) :
    labels.length + measure final ≤ measure start := by
  induction labels generalizing start with
  | nil =>
    rw [run_nil, Option.some.injEq] at ran
    simp [ran]
  | cons label rest inductionHypothesis =>
    obtain ⟨next, accepted, remaining⟩ := (run_cons_iff step start final label rest).mp ran
    have later := inductionHypothesis (preserves start label next initially needed.1 accepted)
      (needed.2 next accepted) remaining
    have lower := lowers start label next initially accepted
    rw [List.length_cons]
    omega

theorem along_true {step : State → Label → Option State} (start : State) (labels : List Label) :
    Along step (fun _ _ => True) start labels := by
  induction labels generalizing start with
  | nil => trivial
  | cons label rest inductionHypothesis =>
    exact ⟨trivial, fun next _ => inductionHypothesis next⟩

/-- A condition along a run holds where any part of the run ends. -/
theorem Along.reached {step : State → Label → Option State} {Holds : State → Label → Prop}
    {start middle : State} (before after : List Label) (label : Label)
    (along : Along step Holds start (before ++ label :: after))
    (ran : run step start before = some middle) : Holds middle label := by
  induction before generalizing start with
  | nil =>
    obtain rfl := Option.some.inj ran
    exact along.1
  | cons first rest inductionHypothesis =>
    obtain ⟨next, accepted, remaining⟩ := (run_cons_iff step start middle first rest).mp ran
    exact inductionHypothesis (along.2 next accepted) remaining

/-- Two conditions hold along a run when both do. -/
theorem along_and {step : State → Label → Option State} {First Second : State → Label → Prop}
    {start : State} (labels : List Label) :
    Along step (fun state label => First state label ∧ Second state label) start labels ↔
      Along step First start labels ∧ Along step Second start labels := by
  induction labels generalizing start with
  | nil => simp [Along]
  | cons label rest inductionHypothesis =>
    simp only [Along, inductionHypothesis]
    constructor
    · rintro ⟨⟨first, second⟩, later⟩
      exact ⟨⟨first, fun next accepted => (later next accepted).1⟩,
        ⟨second, fun next accepted => (later next accepted).2⟩⟩
    · rintro ⟨⟨first, firstLater⟩, second, secondLater⟩
      exact ⟨⟨first, second⟩,
        fun next accepted => ⟨firstLater next accepted, secondLater next accepted⟩⟩

instance Along.decidable (step : State → Label → Option State) (Holds : State → Label → Prop)
    [∀ state label, Decidable (Holds state label)] :
    (start : State) → (labels : List Label) → Decidable (Along step Holds start labels)
  | _, [] => isTrue trivial
  | state, label :: rest =>
      match accepted : step state label with
      | none =>
          decidable_of_iff (Holds state label)
            ⟨fun holds => ⟨holds, fun _ impossible => by rw [accepted] at impossible; cases impossible⟩,
              fun along => along.1⟩
      | some next =>
          have := Along.decidable step Holds next rest
          decidable_of_iff (Holds state label ∧ Along step Holds next rest)
            ⟨fun both => ⟨both.1, fun other same => by
                rw [accepted] at same
                exact Option.some.inj same ▸ both.2⟩,
              fun along => ⟨along.1, along.2 next accepted⟩⟩

end Machine
