import Mathlib.Data.List.Nodup
import Mathlib.Data.List.Perm.Basic

/-!
# Items that pass through stages

Items are stored for good under their index. Some of them are listed at a stage,
each at one place only, and must fit it; every item that is not listed has
reached its rest. An item that changes moves between places or comes to rest,
and no other item is touched.
-/

namespace Stages

universe u v
variable {Item : Type u} {Stage : Type v}

/-- The listed indices are distinct, what is listed fits its stage, and what is
not listed is at rest. -/
structure Staged (Fits : Stage → Item → Prop) (Rest : Item → Prop) (items : List Item)
    (spots : List (Nat × Stage)) : Prop where
  distinct : (spots.map Prod.fst).Nodup
  staged : ∀ index stage, (index, stage) ∈ spots →
    ∃ item, items[index]? = some item ∧ Fits stage item
  rest : ∀ (index : Nat) item, items[index]? = some item → index ∉ spots.map Prod.fst → Rest item

variable {Fits : Stage → Item → Prop} {Rest : Item → Prop} {items : List Item}
  {spots : List (Nat × Stage)}

theorem staged_nil : Staged Fits Rest [] [] where
  distinct := List.nodup_nil
  staged := fun _ _ impossible => absurd impossible List.not_mem_nil
  rest := fun _ _ impossible => nomatch impossible

/-- The order of the places does not matter. -/
theorem Staged.perm {reordered : List (Nat × Stage)} (staged : Staged Fits Rest items spots)
    (same : spots.Perm reordered) : Staged Fits Rest items reordered where
  distinct := (same.map Prod.fst).nodup_iff.mp staged.distinct
  staged := fun index stage member => staged.staged index stage (same.mem_iff.mpr member)
  rest := fun index item found absent =>
    staged.rest index item found (fun member => absent ((same.map Prod.fst).mem_iff.mp member))

/-- A new item enters at a stage it fits. -/
theorem Staged.enter (staged : Staged Fits Rest items spots) (item : Item) (stage : Stage)
    (fits : Fits stage item) : Staged Fits Rest (items ++ [item]) ((items.length, stage) :: spots) where
  distinct := by
    rw [List.map_cons, List.nodup_cons]
    refine ⟨?_, staged.distinct⟩
    intro member
    obtain ⟨⟨index, other⟩, listed, same⟩ := List.mem_map.mp member
    obtain ⟨old, found, -⟩ := staged.staged index other listed
    obtain ⟨inside, -⟩ := List.getElem?_eq_some_iff.mp found
    simp only at same
    omega
  staged := by
    intro index other member
    rcases List.mem_cons.mp member with new | listed
    · obtain ⟨rfl, rfl⟩ := Prod.mk.inj new
      exact ⟨item, List.getElem?_concat_length, fits⟩
    · obtain ⟨old, found, oldFits⟩ := staged.staged index other listed
      obtain ⟨inside, -⟩ := List.getElem?_eq_some_iff.mp found
      exact ⟨old, (List.getElem?_append_left inside).trans found, oldFits⟩
  rest := by
    intro index old found absent
    rw [List.map_cons, List.mem_cons, not_or] at absent
    obtain ⟨inside, -⟩ := List.getElem?_eq_some_iff.mp found
    rw [List.length_append, List.length_singleton] at inside
    have earlier : index < items.length := by
      have different := absent.1
      simp only at different
      omega
    rw [List.getElem?_append_left earlier] at found
    exact staged.rest index old found absent.2

/-- Everything but one listed item is untouched by a change of that item. -/
theorem Staged.others {index : Nat} {stage : Stage} (staged : Staged Fits Rest items ((index, stage) :: spots))
    (next : Item) :
    index ∉ spots.map Prod.fst ∧
      (∀ other place, (other, place) ∈ spots →
        ∃ item, (items.set index next)[other]? = some item ∧ Fits place item) ∧
      ∀ (other : Nat) item, (items.set index next)[other]? = some item → other ≠ index →
        other ∉ spots.map Prod.fst → Rest item := by
  have distinct := staged.distinct
  rw [List.map_cons, List.nodup_cons] at distinct
  refine ⟨distinct.1, ?_, ?_⟩
  · intro other place member
    have different : index ≠ other := by
      rintro rfl
      exact distinct.1 (List.mem_map.mpr ⟨_, member, rfl⟩)
    obtain ⟨item, found, fits⟩ := staged.staged other place (List.mem_cons_of_mem _ member)
    exact ⟨item, by rw [List.getElem?_set_ne different, found], fits⟩
  · intro other item found different absent
    rw [List.getElem?_set_ne (Ne.symm different)] at found
    refine staged.rest other item found ?_
    rw [List.map_cons, List.mem_cons, not_or]
    exact ⟨different, absent⟩

/-- The changed item moves to a stage it fits, possibly the one it was at. -/
theorem Staged.move {index : Nat} {stage : Stage}
    (staged : Staged Fits Rest items ((index, stage) :: spots)) (next : Item) (target : Stage)
    (fits : Fits target next) : Staged Fits Rest (items.set index next) ((index, target) :: spots) := by
  obtain ⟨absent, kept, resting⟩ := staged.others next
  obtain ⟨old, found, -⟩ := staged.staged index stage List.mem_cons_self
  obtain ⟨inside, -⟩ := List.getElem?_eq_some_iff.mp found
  constructor
  · exact staged.distinct
  · intro other place member
    rcases List.mem_cons.mp member with new | listed
    · obtain ⟨rfl, rfl⟩ := Prod.mk.inj new
      exact ⟨next, List.getElem?_set_self inside, fits⟩
    · exact kept other place listed
  · intro other item present elsewhere
    rw [List.map_cons, List.mem_cons, not_or] at elsewhere
    exact resting other item present elsewhere.1 elsewhere.2

/-- The changed item comes to rest. -/
theorem Staged.leave {index : Nat} {stage : Stage}
    (staged : Staged Fits Rest items ((index, stage) :: spots)) (next : Item)
    (atRest : Rest next) : Staged Fits Rest (items.set index next) spots := by
  obtain ⟨absent, kept, resting⟩ := staged.others next
  obtain ⟨old, found, -⟩ := staged.staged index stage List.mem_cons_self
  obtain ⟨inside, -⟩ := List.getElem?_eq_some_iff.mp found
  constructor
  · exact (List.nodup_cons.mp staged.distinct).2
  · exact kept
  · intro other item present elsewhere
    by_cases same : other = index
    · subst same
      rw [List.getElem?_set_self inside, Option.some.injEq] at present
      exact present ▸ atRest
    · exact resting other item present same elsewhere

end Stages
