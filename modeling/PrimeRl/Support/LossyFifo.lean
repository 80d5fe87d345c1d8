import Mathlib.Data.List.Nodup
import Mathlib.Data.List.Sublists

/-!
# First-in first-out lines that may lose items

Items are offered in an order and held in that order until the end of time,
whichever stage they have reached. Nothing is held twice and nothing overtakes:
what is held is a subsequence of what was offered, short by the items lost.
-/

namespace LossyFifo

universe u
variable {Item : Type u}

/-- What a line holds of what it was offered, and how much it lost. -/
structure Kept (offered held : List Item) (lost : Int) : Prop where
  ordered : held.Sublist offered
  counted : (offered.length : Int) = held.length + lost

theorem kept_nil : Kept ([] : List Item) [] 0 where
  ordered := .refl _
  counted := rfl

/-- An offered item goes to the end of the line. -/
theorem Kept.offer {offered held : List Item} {lost : Int} (kept : Kept offered held lost)
    (item : Item) : Kept (offered ++ [item]) (held ++ [item]) lost where
  ordered := kept.ordered.append (.refl _)
  counted := by
    have before := kept.counted
    simp only [List.length_append, List.length_singleton]
    omega

/-- Losing a stretch closes the gap. -/
theorem Kept.lose {offered front gone back : List Item} {lost : Int}
    (kept : Kept offered (front ++ gone ++ back) lost) :
    Kept offered (front ++ back) (lost + gone.length) where
  ordered := by
    refine List.Sublist.trans ?_ kept.ordered
    rw [List.append_assoc]
    exact (List.sublist_append_right gone back).append_left front
  counted := by
    have before := kept.counted
    simp only [List.length_append] at before ⊢
    omega

/-- Distinct offers are held at most once. -/
theorem Kept.nodup {offered held : List Item} {lost : Int} (kept : Kept offered held lost)
    (distinct : offered.Nodup) : held.Nodup :=
  distinct.sublist kept.ordered

end LossyFifo
