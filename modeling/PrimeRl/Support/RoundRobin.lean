import Mathlib.Data.List.Basic
import Mathlib.Data.List.Nodup
import Mathlib.Data.List.Range

/-!
# Round robin over lists

Rounds take the first item of every list, then the second, and so on; a list that
has run out is passed over. Each list is visited in its own order, and a round is
over before the next one starts.
-/

namespace RoundRobin

universe u
variable {Item : Type u}

/-- The length of the longest of the lists. -/
def longest (lists : List (List Item)) : Nat := (lists.map List.length).foldr max 0

/-- The rounds. A list that has run out is filled up with nothing. -/
def zipLongest (lists : List (List Item)) : List (List (Option Item)) :=
  (List.range (longest lists)).map (fun round => lists.map (fun list => list[round]?))

/-- The items in the order in which they are visited. -/
def visit (lists : List (List Item)) : List Item :=
  (zipLongest lists).flatMap (fun round => round.filterMap id)

theorem visit_eq (lists : List (List Item)) :
    visit lists = (List.range (longest lists)).flatMap
      (fun round => lists.filterMap (fun list => list[round]?)) := by
  rw [visit, zipLongest, List.flatMap_map]
  congr
  funext round
  rw [List.filterMap_map]
  rfl

theorem length_le_longest {lists : List (List Item)} {list : List Item} (listed : list ∈ lists) :
    list.length ≤ longest lists := by
  induction lists with
  | nil => cases listed
  | cons first rest inductionHypothesis =>
    rcases List.mem_cons.mp listed with rfl | inRest
    · exact le_max_left _ _
    · exact (inductionHypothesis inRest).trans (le_max_right _ _)

/-- The items of a list that is long enough, one position after the other. -/
theorem positions (list : List Item) {bound : Nat} (long : list.length ≤ bound) :
    (List.range bound).flatMap (fun round => list[round]?.toList) = list := by
  induction list generalizing bound with
  | nil => simp
  | cons item rest inductionHypothesis =>
    obtain ⟨shorter, rfl⟩ : ∃ shorter, bound = shorter + 1 :=
      Nat.exists_eq_succ_of_ne_zero (by rw [List.length_cons] at long; omega)
    have shorterLong : rest.length ≤ shorter := Nat.le_of_succ_le_succ long
    have tail := inductionHypothesis shorterLong
    rw [List.range_succ_eq_map, List.flatMap_cons, List.flatMap_map]
    simp only [List.getElem?_cons_zero, Option.toList_some, List.getElem?_cons_succ]
    exact congrArg (item :: ·) tail

/-- The items of one list, when a test tells them from those of the others. -/
theorem visit_filter (test : Item → Bool) (before after : List (List Item)) (list : List Item)
    (own : ∀ item ∈ list, test item = true)
    (others : ∀ other ∈ before ++ after, ∀ item ∈ other, test item = false) :
    (visit (before ++ list :: after)).filter test = list := by
  have none (lists : List (List Item)) (foreign : ∀ other ∈ lists, ∀ item ∈ other, test item = false)
      (round : Nat) : (lists.filterMap (fun list => list[round]?)).filter test = [] := by
    rw [List.filter_eq_nil_iff]
    intro item listed
    obtain ⟨other, inLists, found⟩ := List.mem_filterMap.mp listed
    rw [foreign other inLists item (List.mem_of_getElem? found)]
    exact Bool.false_ne_true
  have one (round : Nat) :
      ((before ++ list :: after).filterMap (fun list => list[round]?)).filter test =
        list[round]?.toList := by
    rw [List.filterMap_append, List.filter_append,
      none before (fun other listed => others other (List.mem_append_left _ listed)),
      List.nil_append]
    have rest := none after (fun other listed => others other (List.mem_append_right _ listed)) round
    cases found : list[round]? with
    | none =>
      simp only [List.filterMap_cons, found]
      exact rest
    | some item =>
      simp only [List.filterMap_cons, found,
        List.filter_cons_of_pos (own item (List.mem_of_getElem? found)), rest, Option.toList_some]
  rw [visit_eq, List.filter_flatMap]
  simp only [one]
  exact positions list (length_le_longest (List.mem_append_right _ List.mem_cons_self))

/-- The item that a round takes from a list, by its position. -/
def taken (lists : List (List Item)) (place : Nat × Nat) : Option Item :=
  lists[place.2]?.bind (fun list => list[place.1]?)

/-- Items taken at every place there is, by rounds and by lists within a round. -/
def Alternates (lists : List (List Item)) (items : List Item) : Prop :=
  ∃ places : List (Nat × Nat), List.Forall₂ (fun place item => taken lists place = some item) places items ∧
    places.Pairwise (fun earlier later =>
      earlier.1 < later.1 ∨ earlier.1 = later.1 ∧ earlier.2 < later.2) ∧
    ∀ place, (taken lists place).isSome → place ∈ places

/-- One round with its places. -/
def roundPlaces (lists : List (List Item)) (round : Nat) : List ((Nat × Nat) × Item) :=
  lists.zipIdx.filterMap (fun entry => entry.1[round]?.map (fun item => ((round, entry.2), item)))

theorem mem_round_places (lists : List (List Item)) (round : Nat) (place : Nat × Nat) (item : Item) :
    (place, item) ∈ roundPlaces lists round ↔ place.1 = round ∧ taken lists place = some item := by
  simp only [roundPlaces, List.mem_filterMap, Option.map_eq_some_iff, Prod.mk.injEq, taken,
    Option.bind_eq_some_iff, Prod.exists, List.mk_mem_zipIdx_iff_getElem?]
  constructor
  · rintro ⟨list, position, isList, other, found, rfl, rfl⟩
    exact ⟨rfl, list, isList, found⟩
  · rintro ⟨rfl, list, isList, found⟩
    exact ⟨list, place.2, isList, item, found, rfl, rfl⟩

theorem round_places_items (lists : List (List Item)) (round : Nat) :
    (roundPlaces lists round).map Prod.snd = lists.filterMap (fun list => list[round]?) := by
  have general (start : Nat) : ((lists.zipIdx start).filterMap (fun entry =>
      entry.1[round]?.map (fun item => ((round, entry.2), item)))).map Prod.snd =
        lists.filterMap (fun list => list[round]?) := by
    induction lists generalizing start with
    | nil => rfl
    | cons list rest inductionHypothesis =>
      rw [List.zipIdx_cons]
      cases found : list[round]? with
      | none => simp [found, inductionHypothesis]
      | some item => simp [found, inductionHypothesis]
  exact general 0

theorem round_places_ascending (lists : List (List Item)) (round : Nat) :
    ((roundPlaces lists round).map Prod.fst).Pairwise (fun earlier later => earlier.2 < later.2) := by
  rw [List.pairwise_map, roundPlaces]
  apply List.Pairwise.filterMap _ (R := fun earlier later : List Item × Nat => earlier.2 < later.2)
  · rintro ⟨first, position⟩ ⟨second, later⟩ below entry isEntry other isOther
    obtain ⟨item, -, rfl⟩ := Option.map_eq_some_iff.mp isEntry
    obtain ⟨another, -, rfl⟩ := Option.map_eq_some_iff.mp isOther
    exact below
  · have indices : (lists.zipIdx.map Prod.snd).Pairwise (· < ·) := by
      rw [List.zipIdx_map_snd]
      exact List.pairwise_lt_range' 1
    exact List.pairwise_map.mp indices

theorem alternates_visit (lists : List (List Item)) : Alternates lists (visit lists) := by
  obtain ⟨entries, isEntries⟩ : ∃ entries, entries =
      (List.range (longest lists)).flatMap (roundPlaces lists) := ⟨_, rfl⟩
  have items : visit lists = entries.map Prod.snd := by
    rw [visit_eq, isEntries, List.map_flatMap]
    simp only [round_places_items]
  refine ⟨entries.map Prod.fst, ?_, ?_, ?_⟩
  · rw [items, List.forall₂_map_left_iff, List.forall₂_map_right_iff, List.forall₂_same]
    rintro ⟨place, item⟩ listed
    rw [isEntries] at listed
    obtain ⟨round, -, inRound⟩ := List.mem_flatMap.mp listed
    exact ((mem_round_places lists round place item).mp inRound).2
  · rw [isEntries, List.map_flatMap, List.pairwise_flatMap]
    constructor
    · intro round _
      refine (round_places_ascending lists round).imp_of_mem ?_
      intro earlier later isEarlier isLater below
      obtain ⟨⟨place, item⟩, listed, rfl⟩ := List.mem_map.mp isEarlier
      obtain ⟨⟨other, another⟩, otherListed, rfl⟩ := List.mem_map.mp isLater
      have first := ((mem_round_places lists round place item).mp listed).1
      have second := ((mem_round_places lists round other another).mp otherListed).1
      exact .inr ⟨first.trans second.symm, below⟩
    · refine List.pairwise_lt_range.imp ?_
      intro round next below earlier isEarlier later isLater
      obtain ⟨⟨place, item⟩, listed, rfl⟩ := List.mem_map.mp isEarlier
      obtain ⟨⟨other, another⟩, otherListed, rfl⟩ := List.mem_map.mp isLater
      have first := ((mem_round_places lists round place item).mp listed).1
      have second := ((mem_round_places lists next other another).mp otherListed).1
      refine .inl ?_
      change place.1 < other.1
      omega
  · intro place found
    obtain ⟨item, isItem⟩ := Option.isSome_iff_exists.mp found
    rw [isEntries]
    refine List.mem_map.mpr ⟨(place, item), List.mem_flatMap.mpr ⟨place.1, ?_, ?_⟩, rfl⟩
    · obtain ⟨list, isList, inList⟩ := Option.bind_eq_some_iff.mp isItem
      have long := length_le_longest (List.mem_of_getElem? isList)
      have bound := (List.getElem?_eq_some_iff.mp inList).1
      exact List.mem_range.mpr (bound.trans_le long)
    · exact (mem_round_places lists place.1 place item).mpr ⟨rfl, isItem⟩

end RoundRobin
