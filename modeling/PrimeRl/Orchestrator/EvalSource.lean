import PrimeRl.Support.OrderedDict
import PrimeRl.Support.RoundRobin

/-!
# The source of evaluation examples

A trigger queues the examples of every environment that is due, in a round robin
over the environments. The dispatcher pulls the head of the queue when its cost
fits in the free permits, and opens a group for it.
-/

namespace PrimeRl.Orchestrator.Eval

variable {Task : Type}

structure EvalEnv (Task : Type) where
  examples : List Task
  groupSize : Nat
  interval : Int
  requiresGroupScoring : Bool

/-- Environments by name. -/
abbrev EvalEnvs (Task : Type) := OrderedDict String (EvalEnv Task)

/-- An environment and a step of an evaluation. -/
abbrev EpochKey := String × Int

structure Row (Task : Type) where
  envName : String
  evalStep : Int
  task : Task

def Row.key (row : Row Task) : EpochKey := (row.envName, row.evalStep)

structure EvalSource (Task : Type) where
  queue : List (Row Task)
  firstTrigger : Bool

/-- A resumed run does not evaluate at its start. -/
def EvalSource.init (isResumed : Bool) : EvalSource Task where
  queue := []
  firstTrigger := !isResumed

/-- The rows of one environment at one step. -/
def rowsAt (step : Int) (entry : String × EvalEnv Task) : List (Row Task) :=
  entry.2.examples.map (fun task => { envName := entry.1, evalStep := step, task := task })

/-- The environments that a trigger fires. -/
def EvalSource.due (envs : EvalEnvs Task) (skipFirstStep : Bool) (source : EvalSource Task) (step : Int) :
    List (String × EvalEnv Task) :=
  if source.firstTrigger && skipFirstStep then []
  else
    envs.entries.filter (fun entry => source.firstTrigger || decide (step % entry.2.interval = 0))

def EvalSource.trigger (envs : EvalEnvs Task) (skipFirstStep : Bool) (source : EvalSource Task)
    (step : Int) : EvalSource Task × List String :=
  let fired := source.due envs skipFirstStep step
  ({ queue := source.queue ++ RoundRobin.visit (fired.map (rowsAt step)), firstTrigger := false },
    fired.map Prod.fst)

/-- An environment that scores whole groups takes their permits at once. -/
def EvalEnv.cost (env : EvalEnv Task) : Nat := if env.requiresGroupScoring then env.groupSize else 1

def EvalSource.nextExample (envs : EvalEnvs Task) (source : EvalSource Task) (availablePermits : Int) :
    Except String (Option (Row Task) × EvalSource Task) :=
  match source.queue with
  | [] => .ok (none, source)
  | head :: rest =>
      match envs.get? head.envName with
      | none => .error "KeyError"
      | some env =>
          if availablePermits < env.cost then .ok (none, source)
          else .ok (some head, { source with queue := rest })

structure GroupState (Task : Type) where
  envName : String
  task : Task
  rolloutsToSchedule : Nat
  targetRollouts : Nat
  evalStep : Int

def GroupState.row (group : GroupState Task) : Row Task where
  envName := group.envName
  evalStep := group.evalStep
  task := group.task

def nextFreshGroup (envs : EvalEnvs Task) (source : EvalSource Task) (availablePermits : Int) :
    Except String (Option (GroupState Task) × EvalSource Task) := do
  let (row?, next) ← source.nextExample envs availablePermits
  match row? with
  | none => return (none, next)
  | some row =>
      match envs.get? row.envName with
      | none => .error "KeyError"
      | some env =>
          return (some
            { envName := row.envName
              task := row.task
              rolloutsToSchedule := env.groupSize
              targetRollouts := env.groupSize
              evalStep := row.evalStep }, next)

/-! ## The order of the queue -/

section Trigger
variable {envs : EvalEnvs Task} (skipFirstStep : Bool) (source : EvalSource Task) (step : Int)

theorem due_sublist : List.Sublist (source.due envs skipFirstStep step) envs.entries := by
  rw [EvalSource.due]
  split
  · exact List.nil_sublist _
  · exact List.filter_sublist

theorem due_found {entry : String × EvalEnv Task} (fired : entry ∈ source.due envs skipFirstStep step) :
    envs.get? entry.1 = some entry.2 :=
  (OrderedDict.get?_eq_some_iff envs entry.1 entry.2).mpr
    ((due_sublist skipFirstStep source step).subset fired)

theorem due_distinct : ((source.due envs skipFirstStep step).map Prod.fst).Nodup :=
  envs.distinct.sublist ((due_sublist skipFirstStep source step).map Prod.fst)

end Trigger

section Visits
variable (step : Int) {due : List (String × EvalEnv Task)}

theorem rows_key {entry : String × EvalEnv Task} {row : Row Task} (listed : row ∈ rowsAt step entry) :
    row.key = (entry.1, step) := by
  obtain ⟨task, -, rfl⟩ := List.mem_map.mp listed
  rfl

/-- The rows that a trigger queues for one of its environments are its examples in
order. -/
theorem visit_rows (distinct : (due.map Prod.fst).Nodup) {entry : String × EvalEnv Task}
    (fired : entry ∈ due) :
    (RoundRobin.visit (due.map (rowsAt step))).filter
      (fun row => decide (row.key = (entry.1, step))) = rowsAt step entry := by
  obtain ⟨before, after, rfl⟩ := List.append_of_mem fired
  rw [List.map_append, List.map_cons]
  apply RoundRobin.visit_filter
  · exact fun row listed => decide_eq_true (rows_key step listed)
  · intro other listed row inOther
    rw [← List.map_append] at listed
    obtain ⟨another, isListed, rfl⟩ := List.mem_map.mp listed
    rw [rows_key step inOther]
    apply decide_eq_false
    intro same
    have sameName : another.1 = entry.1 := (Prod.mk.inj same).1
    rw [List.map_append, List.map_cons, List.nodup_middle, ← List.map_append] at distinct
    apply (List.nodup_cons.mp distinct).1
    rw [← sameName]
    exact List.mem_map_of_mem isListed

/-- Every row that a trigger queues is of one of its environments. -/
theorem mem_visit {row : Row Task} (queued : row ∈ RoundRobin.visit (due.map (rowsAt step))) :
    ∃ entry ∈ due, row ∈ rowsAt step entry := by
  rw [RoundRobin.visit_eq] at queued
  obtain ⟨round, -, inRound⟩ := List.mem_flatMap.mp queued
  obtain ⟨rows, isRows, found⟩ := List.mem_filterMap.mp inRound
  obtain ⟨entry, isEntry, rfl⟩ := List.mem_map.mp isRows
  exact ⟨entry, isEntry, List.mem_of_getElem? found⟩

end Visits

/-- A pull whose permits fit opens a group for the head of the queue. -/
theorem next_fresh_group_fits {envs : EvalEnvs Task} {source : EvalSource Task} {row : Row Task}
    {rest : List (Row Task)} {env : EvalEnv Task} (isQueue : source.queue = row :: rest)
    (found : envs.get? row.envName = some env) {availablePermits : Int}
    (fits : (env.cost : Int) ≤ availablePermits) :
    nextFreshGroup envs source availablePermits =
      .ok (some ⟨row.envName, row.task, env.groupSize, env.groupSize, row.evalStep⟩,
        { source with queue := rest }) := by
  have pulls : source.nextExample envs availablePermits = .ok (some row, { source with queue := rest }) := by
    rw [EvalSource.nextExample, isQueue]
    simp only [found, if_neg (Int.not_lt.mpr fits)]
  simp only [nextFreshGroup, pulls, bind, Except.bind, found]
  rfl

/-- A pull opens no group, or one for the head of the queue. -/
theorem next_fresh_group_cases {envs : EvalEnvs Task} {source next : EvalSource Task}
    {group? : Option (GroupState Task)} {availablePermits : Int}
    (pulled : nextFreshGroup envs source availablePermits = .ok (group?, next)) :
    (group? = none ∧ next = source) ∨
      ∃ row rest env, source.queue = row :: rest ∧ envs.get? row.envName = some env ∧
        group? = some ⟨row.envName, row.task, env.groupSize, env.groupSize, row.evalStep⟩ ∧
        next = { source with queue := rest } := by
  cases isQueue : source.queue with
  | nil =>
    rw [nextFreshGroup, EvalSource.nextExample, isQueue] at pulled
    obtain ⟨rfl, rfl⟩ := Prod.mk.inj (Except.ok.inj pulled)
    exact .inl ⟨rfl, rfl⟩
  | cons row rest =>
    cases found : envs.get? row.envName with
    | none =>
      rw [nextFreshGroup, EvalSource.nextExample, isQueue] at pulled
      simp only [found] at pulled
      cases pulled
    | some env =>
      by_cases fits : (env.cost : Int) ≤ availablePermits
      · rw [next_fresh_group_fits isQueue found fits] at pulled
        obtain ⟨rfl, rfl⟩ := Prod.mk.inj (Except.ok.inj pulled)
        exact .inr ⟨row, rest, env, rfl, found, rfl, rfl⟩
      · rw [nextFreshGroup, EvalSource.nextExample, isQueue] at pulled
        simp only [found, if_pos (Int.not_le.mp fits)] at pulled
        obtain ⟨rfl, rfl⟩ := Prod.mk.inj (Except.ok.inj pulled)
        exact .inl ⟨rfl, rfl⟩

end PrimeRl.Orchestrator.Eval
