import Mathlib.Data.Finset.Basic
import Mathlib.Data.List.Sort

/-!
# Iteration over a set

A set promises no order for its elements. A loop over one is a loop over some
listing of it, each element once; a result that holds for every listing holds
for every order the interpreter may choose.
-/

universe u v

/-- One listing for each set. -/
structure Iteration (Item : Type u) where
  order : Finset Item → List Item
  lists : ∀ items item, item ∈ order items ↔ item ∈ items
  once : ∀ items, (order items).Nodup

namespace Iteration

variable {Item : Type u}

/-- The listing in increasing order. -/
def ascending [LinearOrder Item] : Iteration Item where
  order items := Quot.liftOn items.val (fun listed => listed.insertionSort (· ≤ ·))
    (fun first second reordered =>
      ((List.perm_insertionSort _ first).trans
        (reordered.trans (List.perm_insertionSort _ second).symm)).eq_of_pairwise'
          (List.pairwise_insertionSort _ first) (List.pairwise_insertionSort _ second))
  lists := by
    rintro ⟨⟨listed⟩, unique⟩ item
    exact List.mem_insertionSort _
  once := by
    rintro ⟨⟨listed⟩, unique⟩
    exact (List.perm_insertionSort _ listed).nodup_iff.mpr unique

end Iteration

namespace Loop

variable {State Item Result : Type u} {Problem : Type v}

/-- A loop whose passes may raise runs to its end when each pass succeeds under
an invariant of the items already done, in order. -/
theorem completes (pass : State → Item → Except Problem State)
    (Holds : List Item → State → Prop) (items : List Item)
    (passes : ∀ done item rest state, items = done ++ item :: rest → Holds done state →
      ∃ next, pass state item = .ok next ∧ Holds (done ++ [item]) next)
    (start : State) (initially : Holds [] start) :
    ∃ final, items.foldlM pass start = .ok final ∧ Holds items final := by
  -- The induction is on what remains; `done` is what the loop has been through.
  suffices remaining : ∀ rest done state, items = done ++ rest → Holds done state →
      ∃ final, rest.foldlM pass state = .ok final ∧ Holds items final from
    remaining items [] start rfl initially
  intro rest
  induction rest with
  | nil =>
    intro done state split holds
    rw [List.append_nil] at split
    exact ⟨state, rfl, split ▸ holds⟩
  | cons item rest inductionHypothesis =>
    intro done state split holds
    obtain ⟨next, succeeded, after⟩ := passes done item rest state split holds
    obtain ⟨final, finished, invariant⟩ :=
      inductionHypothesis (done ++ [item]) next (by rw [split, List.append_assoc]; rfl) after
    refine ⟨final, ?_, invariant⟩
    rw [List.foldlM_cons, succeeded]
    exact finished

/-- A comprehension whose elements all succeed lists a result for each item. -/
theorem collects (make : Item → Except Problem Result) (Made : Item → Result → Prop)
    (items : List Item)
    (makes : ∀ item ∈ items, ∃ result, make item = .ok result ∧ Made item result) :
    ∃ results, items.mapM make = .ok results ∧ List.Forall₂ Made items results := by
  induction items with
  | nil => exact ⟨[], rfl, .nil⟩
  | cons item rest inductionHypothesis =>
    obtain ⟨result, succeeded, made⟩ := makes item List.mem_cons_self
    obtain ⟨results, finished, all⟩ := inductionHypothesis
      (fun other member => makes other (List.mem_cons_of_mem item member))
    refine ⟨result :: results, ?_, .cons made all⟩
    rw [List.mapM_cons, succeeded, finished]
    rfl

/-- Each collected result was made from an item. -/
theorem made_from {Made : Item → Result → Prop} {items : List Item} {results : List Result}
    (all : List.Forall₂ Made items results) {result : Result} (member : result ∈ results) :
    ∃ item ∈ items, Made item result := by
  induction all with
  | nil => cases member
  | @cons item first items results made rest inductionHypothesis =>
    rcases List.mem_cons.mp member with rfl | later
    · exact ⟨item, List.mem_cons_self, made⟩
    · obtain ⟨other, listed, madeLater⟩ := inductionHypothesis later
      exact ⟨other, List.mem_cons_of_mem item listed, madeLater⟩

end Loop
