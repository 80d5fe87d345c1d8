import Mathlib.Data.List.Forall2

/-!
# Computations that can fail

A sequence of fallible steps that gives a result has a result at each step. A
fallible step taken for each item of a list gives results exactly when every item
has one.
-/

namespace Fallible

universe u v w
variable {Error : Type u} {Value Result : Type v}

/-- A sequence with a result has a result of its first step, and the rest gives
the result from there. -/
theorem bind_ok {first : Except Error Value} {next : Value → Except Error Result} {result : Result}
    (accepted : first >>= next = .ok result) :
    ∃ value, first = .ok value ∧ next value = .ok result := by
  cases first with
  | error message => cases accepted
  | ok value => exact ⟨value, rfl, accepted⟩

/-- A mapped computation with a result has one before. -/
theorem map_ok {Other : Type w} {first : Except Error Value} {change : Value → Other}
    {result : Other}
    (accepted : first.map change = .ok result) :
    ∃ value, first = .ok value ∧ change value = result := by
  cases first with
  | error message => cases accepted
  | ok value => exact ⟨value, rfl, Except.ok.inj accepted⟩

theorem map_map {Other : Type w} (first : Except Error Value) (change : Value → Result)
    (other : Result → Other) : (first.map change).map other = first.map (other ∘ change) := by
  cases first with
  | error message => rfl
  | ok value => rfl

/-- A computation with a result passed the check in front of it. -/
theorem check_passed {refused : Prop} [Decidable refused] {message : Error}
    {rest : Except Error Value} {value : Value}
    (accepted : (if refused then .error message else rest) = .ok value) :
    ¬ refused ∧ rest = .ok value := by
  by_cases isRefused : refused
  · rw [if_pos isRefused] at accepted
    cases accepted
  · rw [if_neg isRefused] at accepted
    exact ⟨isRefused, accepted⟩

/-- A computation behind a check has a result exactly when the check lets it run. -/
theorem check_passed_iff {refused : Prop} [Decidable refused] {message : Error}
    {rest : Except Error Value} {value : Value} :
    (if refused then .error message else rest) = .ok value ↔ ¬ refused ∧ rest = .ok value := by
  refine ⟨check_passed, ?_⟩
  rintro ⟨passes, has⟩
  rw [if_neg passes, has]

/-- Where no reason is found, the first check found none either. -/
theorem no_reason {refused : Prop} [Decidable refused] {reason : Error} {rest : Option Error}
    (admitted : (if refused then some reason else rest) = none) : ¬ refused ∧ rest = none := by
  by_cases isRefused : refused
  · rw [if_pos isRefused] at admitted
    cases admitted
  · rw [if_neg isRefused] at admitted
    exact ⟨isRefused, admitted⟩

/-- Checks of each item in order that all pass. -/
theorem each_passed {Item : Type w} {check : Item → Except Error PUnit} {items : List Item}
    (accepted : items.forM check = .ok ⟨⟩) : ∀ item ∈ items, check item = .ok ⟨⟩ := by
  induction items with
  | nil => exact fun item impossible => absurd impossible List.not_mem_nil
  | cons first rest inductionHypothesis =>
    obtain ⟨⟨⟩, here, later⟩ := bind_ok accepted
    exact List.forall_mem_cons.mpr ⟨here, inductionHypothesis later⟩

/-- A step for each item in order; the first refused item refuses the list. -/
def collect {Item : Type w} (step : Item → Except Error Value) :
    List Item → Except Error (List Value)
  | [] => .ok []
  | item :: rest =>
      match step item with
      | .error message => .error message
      | .ok value => (collect step rest).map (value :: ·)

theorem collect_ok_iff {Item : Type w} (step : Item → Except Error Value) (items : List Item)
    (values : List Value) :
    collect step items = .ok values ↔
      List.Forall₂ (fun item value => step item = .ok value) items values := by
  induction items generalizing values with
  | nil =>
    rw [List.forall₂_nil_left_iff, collect, Except.ok.injEq]
    exact eq_comm
  | cons item rest inductionHypothesis =>
    constructor
    · intro accepted
      rw [collect] at accepted
      cases first : step item with
      | error message => simp [first] at accepted
      | ok value =>
        simp only [first] at accepted
        obtain ⟨others, tail, rfl⟩ := map_ok accepted
        exact .cons first ((inductionHypothesis others).mp tail)
    · rintro (_ | ⟨first, others⟩)
      rw [collect, first, (inductionHypothesis _).mpr others]
      rfl

/-- Items that all have a value are collected. -/
theorem collect_accepts {Item : Type w} (step : Item → Except Error Value)
    (Related : Item → Value → Prop) (items : List Item)
    (each : ∀ item ∈ items, ∃ value, step item = .ok value ∧ Related item value) :
    ∃ values, collect step items = .ok values ∧ List.Forall₂ Related items values := by
  induction items with
  | nil => exact ⟨[], rfl, .nil⟩
  | cons item rest inductionHypothesis =>
    obtain ⟨value, first, related⟩ := each item List.mem_cons_self
    obtain ⟨others, tail, all⟩ :=
      inductionHypothesis (fun other member => each other (List.mem_cons_of_mem item member))
    refine ⟨value :: others, ?_, .cons related all⟩
    rw [collect, first, tail]
    rfl

/-- Steps whose results agree in part collect results that agree in part. -/
theorem collect_map_congr {Item : Type w} {Other Part : Type v} (step : Item → Except Error Value)
    (other : Item → Except Error Other) (part : Value → Part) (otherPart : Other → Part)
    (items : List Item)
    (agree : ∀ item ∈ items, (step item).map part = (other item).map otherPart) :
    (collect step items).map (List.map part) = (collect other items).map (List.map otherPart) := by
  induction items with
  | nil => rfl
  | cons item rest inductionHypothesis =>
    obtain ⟨here, later⟩ := List.forall_mem_cons.mp agree
    have tails := inductionHypothesis later
    rw [collect, collect]
    cases first : step item with
    | error message =>
      cases second : other item with
      | error otherMessage =>
        rw [first, second] at here
        exact congrArg Except.error (Except.error.inj here)
      | ok value =>
        rw [first, second] at here
        cases here
    | ok value =>
      cases second : other item with
      | error otherMessage =>
        rw [first, second] at here
        cases here
      | ok otherValue =>
        rw [first, second] at here
        have same : part value = otherPart otherValue := Except.ok.inj here
        dsimp only
        cases remaining : collect step rest with
        | error message =>
          cases otherRemaining : collect other rest with
          | error otherMessage =>
            rw [remaining, otherRemaining] at tails
            exact congrArg Except.error (Except.error.inj tails)
          | ok otherValues =>
            rw [remaining, otherRemaining] at tails
            cases tails
        | ok values =>
          cases otherRemaining : collect other rest with
          | error otherMessage =>
            rw [remaining, otherRemaining] at tails
            cases tails
          | ok otherValues =>
            rw [remaining, otherRemaining] at tails
            have sameValues : values.map part = otherValues.map otherPart := Except.ok.inj tails
            exact congrArg Except.ok (by rw [List.map_cons, List.map_cons, same, sameValues])

/-- Each item of a collected list has a value. -/
theorem collected_each {Item : Type w} {step : Item → Except Error Value} {items : List Item}
    {values : List Value} (accepted : collect step items = .ok values) :
    ∀ item ∈ items, ∃ value, step item = .ok value := by
  have each := (collect_ok_iff step items values).mp accepted
  clear accepted
  induction each with
  | nil => exact fun item impossible => absurd impossible List.not_mem_nil
  | @cons item value items values first others inductionHypothesis =>
    intro other member
    rcases List.mem_cons.mp member with rfl | later
    · exact ⟨value, first⟩
    · exact inductionHypothesis other later

/-- Each collected value is the value of an item. -/
theorem collected_from {Item : Type w} {step : Item → Except Error Value} {items : List Item}
    {values : List Value} (accepted : collect step items = .ok values) :
    ∀ value ∈ values, ∃ item ∈ items, step item = .ok value := by
  have each := (collect_ok_iff step items values).mp accepted
  clear accepted
  induction each with
  | nil => exact fun value impossible => absurd impossible List.not_mem_nil
  | @cons item value items values first others inductionHypothesis =>
    intro other member
    rcases List.mem_cons.mp member with rfl | later
    · exact ⟨item, List.mem_cons_self, first⟩
    · obtain ⟨source, inside, isValue⟩ := inductionHypothesis other later
      exact ⟨source, List.mem_cons_of_mem item inside, isValue⟩

/-- The collected value at a place is the value of the item there. -/
theorem collected_at {Item : Type w} {step : Item → Except Error Value} {items : List Item}
    {values : List Value} (accepted : collect step items = .ok values) (place : Nat) (value : Value)
    (listed : values[place]? = some value) :
    ∃ item, items[place]? = some item ∧ step item = .ok value := by
  have each := (collect_ok_iff step items values).mp accepted
  obtain ⟨inside, rfl⟩ := List.getElem?_eq_some_iff.mp listed
  have itemInside : place < items.length := each.length_eq ▸ inside
  exact ⟨items[place], List.getElem?_eq_getElem itemInside,
    (List.forall₂_iff_get.mp each).2 place itemInside inside⟩

/-- Values that a step has for each number below a count are collected. -/
theorem collect_range_eq {step : Nat → Except Error Value} {values : List Value}
    (each : ∀ (index : Nat) (value : Value), values[index]? = some value →
      step index = .ok value) : collect step (List.range values.length) = .ok values := by
  apply (collect_ok_iff step _ values).mpr
  refine List.forall₂_iff_get.mpr ⟨List.length_range, ?_⟩
  intro index inRange inside
  rw [List.get_eq_getElem, List.getElem_range]
  exact each index _ (List.getElem?_eq_getElem inside)

/-- A step that has a value for each number below a count has them collected. -/
theorem collect_range {step : Nat → Except Error Value} {Related : Nat → Value → Prop}
    {count : Nat}
    (each : ∀ index < count, ∃ value, step index = .ok value ∧ Related index value) :
    ∃ values, collect step (List.range count) = .ok values ∧ values.length = count ∧
      ∀ (index : Nat) (value : Value), values[index]? = some value →
        step index = .ok value ∧ Related index value := by
  obtain ⟨values, collected, related⟩ := collect_accepts step
    (fun index value => step index = .ok value ∧ Related index value) (List.range count)
    (fun index member =>
      have ⟨value, has, isRelated⟩ := each index (List.mem_range.mp member)
      ⟨value, has, has, isRelated⟩)
  have count := related.length_eq
  rw [List.length_range] at count
  refine ⟨values, collected, count.symm, ?_⟩
  intro index value listed
  obtain ⟨inside, rfl⟩ := List.getElem?_eq_some_iff.mp listed
  have here := (List.forall₂_iff_get.mp related).2 index
    (by rw [List.length_range]; omega) inside
  rw [List.get_eq_getElem, List.getElem_range] at here
  exact here

theorem collect_cons_ok_iff {Item : Type w} (step : Item → Except Error Value) (item : Item)
    (items : List Item) (values : List Value) :
    collect step (item :: items) = .ok values ↔
      ∃ value rest, step item = .ok value ∧ collect step items = .ok rest ∧ values = value :: rest := by
  rw [collect_ok_iff, List.forall₂_cons_left_iff]
  simp only [← collect_ok_iff]

/-- In another order the same values are collected for the same items. -/
theorem collect_perm {Item : Type w} {step : Item → Except Error Value} {items others : List Item}
    (perm : items.Perm others) {values : List Value} (accepted : collect step items = .ok values) :
    ∃ otherValues, collect step others = .ok otherValues ∧
      (items.zip values).Perm (others.zip otherValues) := by
  induction perm generalizing values with
  | nil => exact ⟨values, accepted, List.Perm.refl _⟩
  | @cons item items others _ inductionHypothesis =>
    obtain ⟨value, rest, first, tail, rfl⟩ := (collect_cons_ok_iff _ _ _ _).mp accepted
    obtain ⟨otherRest, otherTail, related⟩ := inductionHypothesis tail
    exact ⟨value :: otherRest, (collect_cons_ok_iff _ _ _ _).mpr ⟨_, _, first, otherTail, rfl⟩,
      related.cons (item, value)⟩
  | swap item other items =>
    obtain ⟨value, rest, first, tail, rfl⟩ := (collect_cons_ok_iff _ _ _ _).mp accepted
    obtain ⟨otherValue, last, second, others, rfl⟩ := (collect_cons_ok_iff _ _ _ _).mp tail
    have swapped := (collect_cons_ok_iff step other items _).mpr ⟨_, _, first, others, rfl⟩
    exact ⟨_, (collect_cons_ok_iff _ _ _ _).mpr ⟨_, _, second, swapped, rfl⟩,
      List.Perm.swap _ _ _⟩
  | trans _ _ firstHypothesis secondHypothesis =>
    obtain ⟨between, collected, related⟩ := firstHypothesis accepted
    obtain ⟨otherValues, otherCollected, otherRelated⟩ := secondHypothesis collected
    exact ⟨otherValues, otherCollected, related.trans otherRelated⟩

theorem collect_length {Item : Type w} {step : Item → Except Error Value} {items : List Item}
    {values : List Value} (accepted : collect step items = .ok values) :
    items.length = values.length :=
  ((collect_ok_iff step items values).mp accepted).length_eq

theorem collect_values_perm {Item : Type w} {step : Item → Except Error Value}
    {items others : List Item} (perm : items.Perm others) {values : List Value}
    (accepted : collect step items = .ok values) :
    ∃ otherValues, collect step others = .ok otherValues ∧ values.Perm otherValues := by
  obtain ⟨otherValues, collected, related⟩ := collect_perm perm accepted
  have values := related.map Prod.snd
  rw [List.map_snd_zip (Nat.le_of_eq (collect_length accepted).symm),
    List.map_snd_zip (Nat.le_of_eq (collect_length collected).symm)] at values
  exact ⟨otherValues, collected, values⟩

/-- Changing the items first is changing them in the step. -/
theorem collect_map {Item : Type w} {Other : Type w} (step : Other → Except Error Value)
    (change : Item → Other) (items : List Item) :
    collect step (items.map change) = collect (fun item => step (change item)) items := by
  induction items with
  | nil => rfl
  | cons item items inductionHypothesis =>
    rw [List.map_cons, collect, collect, inductionHypothesis]

end Fallible
