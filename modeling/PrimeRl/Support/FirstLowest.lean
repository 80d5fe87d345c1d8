import Mathlib.Data.List.MinMax
import Mathlib.Data.Prod.Lex
import Mathlib.Order.Lattice

/-!
# The first item with the lowest score

A scan keeps the best score so far with the first item that reached it. Scanning
a block of items comes to the same as finding the first lowest item of the block
by other means and comparing it once with the best score before the block.
-/

namespace FirstLowest

universe u v w
variable {Item : Type u} {Score : Type v} {Key : Type w} [LinearOrder Key]

/-- Keep the best score, and the first item that reached it. -/
def scan (below : Score → Score → Bool) (score : Item → Score) (items : List Item)
    (best : Score × Option Item) : Score × Option Item :=
  items.foldl (fun best item =>
    if below (score item) best.1 then (score item, some item) else best) best

theorem scan_cons (below : Score → Score → Bool) (score : Item → Score) (item : Item)
    (rest : List Item) (best : Score × Option Item) :
    scan below score (item :: rest) best =
      scan below score rest
        (if below (score item) best.1 then (score item, some item) else best) := rfl

theorem scan_append (below : Score → Score → Bool) (score : Item → Score)
    (front back : List Item) (best : Score × Option Item) :
    scan below score (front ++ back) best = scan below score back (scan below score front best) :=
  List.foldl_append

/-- A change of all scores that keeps their order changes no choice. -/
theorem scan_shifted (below : Score → Score → Bool) (shift : Score → Score)
    (keeps : ∀ first second, below (shift first) (shift second) = below first second)
    (score : Item → Score) (items : List Item) (best : Score × Option Item) :
    scan below (fun item => shift (score item)) items (shift best.1, best.2) =
      (shift (scan below score items best).1, (scan below score items best).2) := by
  induction items generalizing best with
  | nil => rfl
  | cons item rest inductionHypothesis =>
    rw [scan_cons, scan_cons, keeps]
    by_cases improves : below (score item) best.1 = true
    · rw [if_pos improves, if_pos improves]
      exact inductionHypothesis (score item, some item)
    · rw [if_neg improves, if_neg improves]
      exact inductionHypothesis best

variable {below : Score → Score → Bool} {key : Score → Key}
  (isBelow : ∀ first second, below first second = true ↔ key first < key second)

include isBelow

/-- Nothing changes where no item is below the best score. -/
theorem scan_above (score : Item → Score) (items : List Item) (best : Score × Option Item)
    (above : ∀ item ∈ items, key best.1 ≤ key (score item)) : scan below score items best = best := by
  induction items with
  | nil => rfl
  | cons item rest inductionHypothesis =>
    have notBelow : ¬ below (score item) best.1 = true := by
      rw [isBelow]
      exact not_lt_of_ge (above item List.mem_cons_self)
    rw [scan_cons, if_neg notBelow]
    exact inductionHypothesis (fun other member => above other (List.mem_cons_of_mem item member))

/-- A scan ends where it began, if no item is below that, or at an item below it. -/
theorem scan_outcome (score : Item → Score) (items : List Item) (best : Score × Option Item) :
    (scan below score items best = best ∧ ∀ item ∈ items, key best.1 ≤ key (score item)) ∨
      ∃ item ∈ items, scan below score items best = (score item, some item) ∧
        key (score item) < key best.1 := by
  induction items generalizing best with
  | nil => exact Or.inl ⟨rfl, fun _ impossible => absurd impossible List.not_mem_nil⟩
  | cons item rest inductionHypothesis =>
    rw [scan_cons]
    by_cases improves : below (score item) best.1 = true
    · rw [if_pos improves]
      have lower := (isBelow _ _).mp improves
      apply Or.inr
      rcases inductionHypothesis (score item, some item) with ⟨same, -⟩ | ⟨other, member, ends, less⟩
      · exact ⟨item, List.mem_cons_self, same, lower⟩
      · exact ⟨other, List.mem_cons_of_mem item member, ends, less.trans lower⟩
    · rw [if_neg improves]
      have notLess : key best.1 ≤ key (score item) :=
        le_of_not_gt (fun less => improves ((isBelow _ _).mpr less))
      rcases inductionHypothesis best with ⟨same, above⟩ | ⟨other, member, ends, less⟩
      · refine Or.inl ⟨same, ?_⟩
        intro other member
        rcases List.mem_cons.mp member with rfl | later
        · exact notLess
        · exact above other later
      · exact Or.inr ⟨other, List.mem_cons_of_mem item member, ends, less⟩

/-- Scanning a block is one comparison with its first lowest item. -/
theorem scan_block (score : Item → Score) {items before after : List Item} {item : Item}
    (split : items = before ++ item :: after)
    (higher : ∀ other ∈ before, key (score item) < key (score other))
    (lowest : ∀ other ∈ after, key (score item) ≤ key (score other))
    (best : Score × Option Item) :
    scan below score items best =
      if below (score item) best.1 then (score item, some item) else best := by
  rw [split, scan_append, scan_cons]
  by_cases improves : below (score item) best.1 = true
  · have less := (isBelow _ _).mp improves
    have still : below (score item) (scan below score before best).1 = true := by
      rw [isBelow]
      rcases scan_outcome isBelow score before best with ⟨same, -⟩ | ⟨other, member, ends, -⟩
      · rw [same]
        exact less
      · rw [ends]
        exact higher other member
    rw [if_pos still, if_pos improves]
    exact scan_above isBelow score after _ lowest
  · have notLess : key best.1 ≤ key (score item) :=
      le_of_not_gt (fun less => improves ((isBelow _ _).mpr less))
    have untouched : scan below score before best = best :=
      scan_above isBelow score before best
        (fun other member => notLess.trans (higher other member).le)
    rw [untouched, if_neg improves]
    exact scan_above isBelow score after best
      (fun other member => notLess.trans (lowest other member))

omit isBelow

/-- The position of the first smallest value. -/
def argmin (values : List Int) : Nat := values.idxOf (values.min?.getD 0)

/-- The item at that position, with those before it and those behind it. -/
theorem argmin_map (measure : Item → Int) (items : List Item) (nonempty : items ≠ []) :
    ∃ before item after, items = before ++ item :: after ∧
      argmin (items.map measure) = before.length ∧
      (∀ other ∈ before, measure item < measure other) ∧
      ∀ other ∈ after, measure item ≤ measure other := by
  obtain ⟨least, isLeast⟩ : ∃ least, (items.map measure).min? = some least := by
    cases smallest : (items.map measure).min? with
    | none =>
      rw [List.min?_eq_none_iff, List.map_eq_nil_iff] at smallest
      exact absurd smallest nonempty
    | some least => exact ⟨least, rfl⟩
  obtain ⟨member, smallest⟩ := List.min?_eq_some_iff.mp isLeast
  rw [argmin, isLeast, Option.getD_some]
  clear isLeast nonempty
  induction items with
  | nil => cases member
  | cons first rest inductionHypothesis =>
    by_cases same : measure first = least
    · refine ⟨[], first, rest, rfl, ?_, ?_, ?_⟩
      · rw [List.map_cons, same, List.idxOf_cons_self, List.length_nil]
      · exact fun _ impossible => absurd impossible List.not_mem_nil
      · intro other isOther
        rw [same]
        exact smallest _ (List.mem_map_of_mem (List.mem_cons_of_mem first isOther))
    · have later : least ∈ rest.map measure := by
        rw [List.map_cons, List.mem_cons] at member
        exact member.resolve_left (fun isFirst => same isFirst.symm)
      obtain ⟨before, item, after, split, position, higher, lowest⟩ :=
        inductionHypothesis later (fun value isValue =>
          smallest value (List.mem_cons_of_mem (measure first) isValue))
      have isLeast : measure item = least := by
        have floor : least ≤ measure item := by
          apply smallest
          rw [split, List.map_cons, List.map_append, List.map_cons]
          simp
        obtain ⟨holder, isHolder, holds⟩ := List.mem_map.mp later
        rw [split, List.mem_append, List.mem_cons] at isHolder
        rcases isHolder with earlier | rfl | behind
        · have less := higher holder earlier
          omega
        · exact holds
        · have less := lowest holder behind
          omega
      refine ⟨first :: before, item, after, by rw [split, List.cons_append], ?_, ?_, lowest⟩
      · rw [List.map_cons, List.idxOf_cons_ne _ same, position, List.length_cons]
      · intro other isOther
        rcases List.mem_cons.mp isOther with rfl | isLater
        · rw [isLeast]
          exact lt_of_le_of_ne (smallest _ List.mem_cons_self) (Ne.symm same)
        · exact higher other isLater

/-- Searching in two rounds: the lowest first component, then the first smallest
second component among the items that have it, the others being masked by a
value above all second components. -/
theorem argmin_masked (high size : Item → Int) (mask : Int) (items : List Item)
    (nonempty : items ≠ []) (masked : ∀ item ∈ items, size item < mask) (lowest : Int)
    (isLowest : (items.map high).min? = some lowest) :
    ∃ before item after, items = before ++ item :: after ∧
      argmin (items.map (fun item => if high item = lowest then size item else mask)) =
        before.length ∧
      high item = lowest ∧
      (∀ other ∈ before, toLex (high item, size item) < toLex (high other, size other)) ∧
      ∀ other ∈ after, toLex (high item, size item) ≤ toLex (high other, size other) := by
  obtain ⟨attained, floor⟩ := List.min?_eq_some_iff.mp isLowest
  obtain ⟨holder, isHolder, holds⟩ := List.mem_map.mp attained
  obtain ⟨before, item, after, split, position, higher, least⟩ :=
    argmin_map (fun item => if high item = lowest then size item else mask) items nonempty
  have inside : ∀ other, other ∈ before ∨ other = item ∨ other ∈ after → other ∈ items := by
    intro other somewhere
    rw [split, List.mem_append, List.mem_cons]
    exact somewhere
  -- a masked item cannot be the first smallest, since some item is not masked
  have chosen : high item = lowest := by
    by_contra isMasked
    have visible := masked holder isHolder
    rw [split, List.mem_append, List.mem_cons] at isHolder
    rcases isHolder with earlier | rfl | behind
    · have less := higher holder earlier
      rw [if_neg isMasked, if_pos holds] at less
      omega
    · exact isMasked holds
    · have less := least holder behind
      rw [if_neg isMasked, if_pos holds] at less
      omega
  refine ⟨before, item, after, split, position, chosen, ?_, ?_⟩
  · intro other earlier
    have above := floor _ (List.mem_map_of_mem (inside other (Or.inl earlier)))
    have less := higher other earlier
    rw [if_pos chosen] at less
    rw [Prod.Lex.toLex_lt_toLex, chosen]
    by_cases same : high other = lowest
    · rw [if_pos same] at less
      exact Or.inr ⟨same.symm, less⟩
    · exact Or.inl (lt_of_le_of_ne above (Ne.symm same))
  · intro other behind
    have above := floor _ (List.mem_map_of_mem (inside other (Or.inr (Or.inr behind))))
    have less := least other behind
    rw [if_pos chosen] at less
    rw [Prod.Lex.toLex_le_toLex, chosen]
    by_cases same : high other = lowest
    · rw [if_pos same] at less
      exact Or.inr ⟨same.symm, less⟩
    · exact Or.inl (lt_of_le_of_ne above (Ne.symm same))

end FirstLowest
