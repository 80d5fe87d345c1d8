import Mathlib.Data.List.Perm.Basic
import Mathlib.Data.List.Sort

/-!
# First-fit placement

Items are placed one at a time into the first bin that accepts them; an item no
bin accepts opens a new last bin. Whatever the acceptance test is, placement
only moves items: nothing is lost, repeated or split between bins. A property
that a new bin has, and that accepted additions keep, holds of every bin.
-/

namespace FirstFit

universe u
variable {Item : Type u}

/-- Put an item into the first accepting bin, or into a new last one. -/
def place (accepts : List Item → Item → Bool) (item : Item) : List (List Item) → List (List Item)
  | [] => [[item]]
  | bin :: rest =>
      if accepts bin item then (bin ++ [item]) :: rest else bin :: place accepts item rest

/-- Place items in the given order, starting without bins. -/
def pack (accepts : List Item → Item → Bool) (items : List Item) : List (List Item) :=
  items.foldl (fun bins item => place accepts item bins) []

theorem place_perm (accepts : List Item → Item → Bool) (item : Item) (bins : List (List Item)) :
    (place accepts item bins).flatten.Perm (item :: bins.flatten) := by
  induction bins with
  | nil => exact List.Perm.refl _
  | cons bin rest inductionHypothesis =>
    simp only [place]
    split
    · simp only [List.flatten_cons, List.append_assoc, List.singleton_append]
      exact List.perm_middle
    · simp only [List.flatten_cons]
      exact (inductionHypothesis.append_left bin).trans List.perm_middle

/-- Every placed item is in exactly one bin, as often as it was given. -/
theorem pack_perm (accepts : List Item → Item → Bool) (items : List Item) :
    (pack accepts items).flatten.Perm items := by
  have general (bins : List (List Item)) :
      (items.foldl (fun bins item => place accepts item bins) bins).flatten.Perm
        (items ++ bins.flatten) := by
    induction items generalizing bins with
    | nil => exact List.Perm.refl _
    | cons item rest inductionHypothesis =>
      rw [List.foldl_cons]
      refine (inductionHypothesis (place accepts item bins)).trans ?_
      exact ((place_perm accepts item bins).append_left rest).trans List.perm_middle
  simpa only [pack, List.flatten_nil, List.append_nil] using general []

theorem place_invariant (accepts : List Item → Item → Bool) (Holds : List Item → Prop)
    (item : Item) (bins : List (List Item)) (opened : Holds [item])
    (extended : ∀ bin, Holds bin → accepts bin item = true → Holds (bin ++ [item]))
    (before : ∀ bin ∈ bins, Holds bin) : ∀ bin ∈ place accepts item bins, Holds bin := by
  induction bins with
  | nil =>
    intro bin member
    exact List.mem_singleton.mp member ▸ opened
  | cons first rest inductionHypothesis =>
    intro bin member
    simp only [place] at member
    split at member
    · rename_i accepted
      rcases List.mem_cons.mp member with rfl | later
      · exact extended first (before first List.mem_cons_self) accepted
      · exact before bin (List.mem_cons_of_mem first later)
    · rcases List.mem_cons.mp member with rfl | later
      · exact before bin List.mem_cons_self
      · exact inductionHypothesis (fun other inside => before other (List.mem_cons_of_mem first inside))
          bin later

/-- A bin property established by opening and kept by accepted additions holds
of every packed bin. -/
theorem pack_invariant (accepts : List Item → Item → Bool) (Holds : List Item → Prop)
    (items : List Item) (opened : ∀ item ∈ items, Holds [item])
    (extended : ∀ bin, ∀ item ∈ items, Holds bin → accepts bin item = true → Holds (bin ++ [item])) :
    ∀ bin ∈ pack accepts items, Holds bin := by
  have general (bins : List (List Item)) (before : ∀ bin ∈ bins, Holds bin) :
      ∀ bin ∈ items.foldl (fun bins item => place accepts item bins) bins, Holds bin := by
    induction items generalizing bins with
    | nil => exact before
    | cons item rest inductionHypothesis =>
      rw [List.foldl_cons]
      apply inductionHypothesis
      · intro other member
        exact opened other (List.mem_cons_of_mem item member)
      · intro bin other member
        exact extended bin other (List.mem_cons_of_mem item member)
      · exact place_invariant accepts Holds item bins (opened item List.mem_cons_self)
          (fun bin => extended bin item List.mem_cons_self) before
  exact general [] (fun bin impossible => absurd impossible List.not_mem_nil)

/-- A relation between bins that a new bin has with every bin that refused its item, and
that additions to either side keep, relates every two packed bins, the earlier one first. -/
theorem place_pairwise (accepts : List Item → Item → Bool) (Related : List Item → List Item → Prop)
    (item : Item) (bins : List (List Item))
    (opened : ∀ bin ∈ bins, accepts bin item = false → Related bin [item])
    (left : ∀ bin other, Related bin other → Related (bin ++ [item]) other)
    (right : ∀ bin other, Related bin other → Related bin (other ++ [item]))
    (before : bins.Pairwise Related) : (place accepts item bins).Pairwise Related := by
  induction bins with
  | nil => exact List.pairwise_singleton _ _
  | cons first rest inductionHypothesis =>
    obtain ⟨firstRelated, restPairwise⟩ := List.pairwise_cons.mp before
    rw [place]
    split
    · exact List.pairwise_cons.mpr
        ⟨fun other member => left first other (firstRelated other member), restPairwise⟩
    · rename_i refused
      refine List.pairwise_cons.mpr ⟨?_, inductionHypothesis
        (fun bin member => opened bin (List.mem_cons_of_mem first member)) restPairwise⟩
      -- The later bins are as before, but for the one that took the item.
      have later : ∀ bins, (∀ bin ∈ bins, Related first bin) →
          ∀ bin ∈ place accepts item bins, Related first bin := by
        intro bins
        induction bins with
        | nil =>
          intro _ bin member
          obtain rfl := List.mem_singleton.mp member
          exact opened first List.mem_cons_self (Bool.eq_false_of_not_eq_true refused)
        | cons other others laterHypothesis =>
          intro related bin member
          obtain ⟨here, there⟩ := List.forall_mem_cons.mp related
          rw [place] at member
          split at member
          · rcases List.mem_cons.mp member with rfl | inOthers
            · exact right first other here
            · exact there bin inOthers
          · rcases List.mem_cons.mp member with rfl | inOthers
            · exact here
            · exact laterHypothesis there bin inOthers
      exact later rest firstRelated

theorem pack_pairwise (accepts : List Item → Item → Bool) (Related : List Item → List Item → Prop)
    (items : List Item)
    (opened : ∀ bin, ∀ item ∈ items, accepts bin item = false → Related bin [item])
    (left : ∀ bin other, ∀ item ∈ items, Related bin other → Related (bin ++ [item]) other)
    (right : ∀ bin other, ∀ item ∈ items, Related bin other → Related bin (other ++ [item])) :
    (pack accepts items).Pairwise Related := by
  have general (bins : List (List Item)) (before : bins.Pairwise Related) :
      (items.foldl (fun bins item => place accepts item bins) bins).Pairwise Related := by
    induction items generalizing bins with
    | nil => exact before
    | cons item rest inductionHypothesis =>
      rw [List.foldl_cons]
      apply inductionHypothesis
      · exact fun bin other member => opened bin other (List.mem_cons_of_mem item member)
      · exact fun bin other next member => left bin other next (List.mem_cons_of_mem item member)
      · exact fun bin other next member => right bin other next (List.mem_cons_of_mem item member)
      · exact place_pairwise accepts Related item bins
          (fun bin _ => opened bin item List.mem_cons_self)
          (fun bin other => left bin other item List.mem_cons_self)
          (fun bin other => right bin other item List.mem_cons_self) before
  exact general [] List.Pairwise.nil

end FirstFit
