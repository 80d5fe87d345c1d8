import Mathlib.Data.Finmap

/-!
# Named slots

A bounded number of slots is handed to names. The assignment is recorded three
times: slots by name, names by slot, and the slots nobody holds. Taking a free
slot and releasing a held one keep the three in agreement, and the first record
decides the other two.
-/

namespace SlotTable

universe u
variable {Name : Type u} [DecidableEq Name]

/-- The three records describe one injective assignment of slots below `count`. -/
structure Agrees (count : Nat) (slots : Finmap (fun _ : Name => Nat))
    (names : Finmap (fun _ : Nat => Name)) (free : Finset Nat) : Prop where
  inverse : ∀ name slot, slots.lookup name = some slot ↔ names.lookup slot = some name
  free_iff : ∀ slot, slot ∈ free ↔ slot < count ∧ slot ∉ names
  bounded : ∀ slot, slot ∈ names → slot < count

theorem agrees_empty (count : Nat) :
    Agrees count (∅ : Finmap (fun _ : Name => Nat)) ∅ (Finset.range count) where
  inverse := by simp
  free_iff := by simp [Finmap.notMem_empty]
  bounded := fun _ member => absurd member Finmap.notMem_empty

variable {count : Nat} {slots : Finmap (fun _ : Name => Nat)}
  {names : Finmap (fun _ : Nat => Name)} {free : Finset Nat}

/-- A slot held by a name is listed by slot too. -/
theorem Agrees.held (agrees : Agrees count slots names free) {name : Name} {slot : Nat}
    (found : slots.lookup name = some slot) : slot ∈ names :=
  Finmap.mem_of_lookup_eq_some ((agrees.inverse name slot).mp found)

/-- No two names hold one slot. -/
theorem Agrees.injective (agrees : Agrees count slots names free) {first second : Name}
    {slot : Nat} (one : slots.lookup first = some slot)
    (other : slots.lookup second = some slot) : first = second := by
  have firstHolds := (agrees.inverse first slot).mp one
  have secondHolds := (agrees.inverse second slot).mp other
  exact Option.some.inj (firstHolds.symm.trans secondHolds)

/-- A slot in use is not free. -/
theorem Agrees.used (agrees : Agrees count slots names free) {name : Name} {slot : Nat}
    (found : slots.lookup name = some slot) : slot ∉ free :=
  fun isFree => ((agrees.free_iff slot).mp isFree).2 (agrees.held found)

/-- A new name takes a free slot. -/
theorem Agrees.take (agrees : Agrees count slots names free) {name : Name} {slot : Nat}
    (fresh : name ∉ slots) (available : slot ∈ free) :
    Agrees count (slots.insert name slot) (names.insert slot name) (free.erase slot) := by
  have vacant : slot ∉ names := ((agrees.free_iff slot).mp available).2
  constructor
  · intro other place
    by_cases sameName : other = name
    · subst sameName
      rw [Finmap.lookup_insert, Option.some.injEq]
      by_cases samePlace : place = slot
      · subst samePlace
        simp [Finmap.lookup_insert]
      · have elsewhere : names.lookup place ≠ some other := fun held =>
          fresh (Finmap.mem_of_lookup_eq_some ((agrees.inverse other place).mpr held))
        rw [Finmap.lookup_insert_of_ne _ samePlace]
        exact ⟨fun same => absurd same.symm samePlace, fun held => absurd held elsewhere⟩
    · rw [Finmap.lookup_insert_of_ne _ sameName, agrees.inverse]
      by_cases samePlace : place = slot
      · subst samePlace
        rw [Finmap.lookup_insert, Finmap.lookup_eq_none.mpr vacant, Option.some.injEq]
        exact ⟨fun impossible => absurd impossible (by simp),
          fun same => absurd same.symm sameName⟩
      · rw [Finmap.lookup_insert_of_ne _ samePlace]
  · intro place
    rw [Finset.mem_erase, agrees.free_iff, Finmap.mem_insert, not_or]
    constructor
    · rintro ⟨different, below, unlisted⟩
      exact ⟨below, different, unlisted⟩
    · rintro ⟨below, different, unlisted⟩
      exact ⟨different, below, unlisted⟩
  · intro place member
    rcases Finmap.mem_insert.mp member with rfl | listed
    · exact ((agrees.free_iff place).mp available).1
    · exact agrees.bounded place listed

/-- A name gives its slot back. -/
theorem Agrees.release (agrees : Agrees count slots names free) {name : Name} {slot : Nat}
    (found : slots.lookup name = some slot) :
    Agrees count (slots.erase name) (names.erase slot) (insert slot free) := by
  have listed : names.lookup slot = some name := (agrees.inverse name slot).mp found
  constructor
  · intro other place
    by_cases sameName : other = name
    · subst sameName
      rw [Finmap.lookup_erase]
      by_cases samePlace : place = slot
      · subst samePlace
        simp [Finmap.lookup_erase]
      · rw [Finmap.lookup_erase_ne samePlace]
        constructor
        · intro impossible
          exact absurd impossible (by simp)
        · intro held
          have sameSlot := (agrees.inverse other place).mpr held
          rw [found, Option.some.injEq] at sameSlot
          exact absurd sameSlot.symm samePlace
    · rw [Finmap.lookup_erase_ne sameName, agrees.inverse]
      by_cases samePlace : place = slot
      · subst samePlace
        rw [Finmap.lookup_erase, listed, Option.some.injEq]
        exact ⟨fun same => absurd same.symm sameName,
          fun impossible => absurd impossible (by simp)⟩
      · rw [Finmap.lookup_erase_ne samePlace]
  · intro place
    rw [Finset.mem_insert, agrees.free_iff, Finmap.mem_erase, not_and_or, not_not]
    constructor
    · rintro (rfl | ⟨below, unlisted⟩)
      · exact ⟨agrees.bounded place (agrees.held found), .inl rfl⟩
      · exact ⟨below, .inr unlisted⟩
    · rintro ⟨below, same | unlisted⟩
      · exact .inl same
      · exact .inr ⟨below, unlisted⟩
  · intro place member
    exact agrees.bounded place (Finmap.mem_erase.mp member).2

/-- Slots by name decide names by slot and what is free. -/
theorem Agrees.determined (agrees : Agrees count slots names free)
    {otherNames : Finmap (fun _ : Nat => Name)} {otherFree : Finset Nat}
    (other : Agrees count slots otherNames otherFree) :
    otherNames = names ∧ otherFree = free := by
  have sameNames : otherNames = names := by
    apply Finmap.ext_lookup
    intro slot
    apply Option.ext
    intro name
    rw [← other.inverse, ← agrees.inverse]
  refine ⟨sameNames, ?_⟩
  ext slot
  rw [other.free_iff, agrees.free_iff, sameNames]

end SlotTable
