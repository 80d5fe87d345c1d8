import Mathlib.Data.List.Dedup
import Mathlib.Data.List.GetD
import Mathlib.Data.List.Range
import Mathlib.Logic.Function.Basic

/-!
# Objects at addresses

Addresses are handed out in order, so the addresses in use are those below the
next one. Copying a list of objects takes new addresses and copies an object
that is listed twice once. Objects at other addresses stay as they are.
-/

universe u

/-- A store of objects; what stands from the next address on is not in use. -/
structure Heap (Object : Type u) where
  cell : Nat → Object
  next : Nat

namespace Heap

variable {Object : Type u}

/-- Replace the object at an address. -/
def write (heap : Heap Object) (address : Nat) (object : Object) : Heap Object :=
  { heap with cell := Function.update heap.cell address object }

@[simp] theorem write_next (heap : Heap Object) (address : Nat) (object : Object) :
    (heap.write address object).next = heap.next := rfl

@[simp] theorem write_same (heap : Heap Object) (address : Nat) (object : Object) :
    (heap.write address object).cell address = object := by
  simp only [write, Function.update_self]

theorem write_other (heap : Heap Object) (address : Nat) (object : Object) {other : Nat}
    (apart : other ≠ address) : (heap.write address object).cell other = heap.cell other := by
  simp only [write, Function.update_of_ne apart]

/-- Place new objects behind those in use. -/
def extend (heap : Heap Object) (objects : List Object) : Heap Object where
  cell := fun address =>
    if address < heap.next then heap.cell address
    else objects.getD (address - heap.next) (heap.cell address)
  next := heap.next + objects.length

theorem extend_used (heap : Heap Object) (objects : List Object) {address : Nat}
    (used : address < heap.next) : (heap.extend objects).cell address = heap.cell address :=
  if_pos used

theorem extend_fresh (heap : Heap Object) (objects : List Object) (index : Nat)
    (inside : index < objects.length) :
    (heap.extend objects).cell (heap.next + index) = objects[index] := by
  have notUsed : ¬ heap.next + index < heap.next := by omega
  rw [extend]
  dsimp only
  rw [if_neg notUsed, Nat.add_sub_cancel_left, List.getD_eq_getElem _ _ inside]

/-- Copy the objects at the listed addresses, each object once; the copies stand
    at the returned addresses. -/
def copy (heap : Heap Object) (addresses : List Nat) : Heap Object × List Nat :=
  (heap.extend (addresses.dedup.map heap.cell),
    addresses.map (fun address => heap.next + addresses.dedup.idxOf address))

theorem copy_used (heap : Heap Object) (addresses : List Nat) {address : Nat}
    (used : address < heap.next) : (heap.copy addresses).1.cell address = heap.cell address :=
  heap.extend_used _ used

theorem copy_next (heap : Heap Object) (addresses : List Nat) :
    heap.next ≤ (heap.copy addresses).1.next := Nat.le_add_right _ _

/-- Copies are new objects in use. -/
theorem copy_fresh (heap : Heap Object) (addresses : List Nat) :
    ∀ address ∈ (heap.copy addresses).2,
      heap.next ≤ address ∧ address < (heap.copy addresses).1.next := by
  intro address member
  obtain ⟨source, listed, rfl⟩ := List.mem_map.mp member
  have inside := List.idxOf_lt_length_of_mem (List.mem_dedup.mpr listed)
  refine ⟨Nat.le_add_right _ _, ?_⟩
  rw [copy, extend, List.length_map]
  exact Nat.add_lt_add_left inside heap.next

/-- Copies read as their sources. -/
theorem copy_reads (heap : Heap Object) (addresses : List Nat) :
    (heap.copy addresses).2.map (heap.copy addresses).1.cell = addresses.map heap.cell := by
  rw [copy, List.map_map]
  apply List.map_congr_left
  intro address listed
  have inside := List.idxOf_lt_length_of_mem (List.mem_dedup.mpr listed)
  rw [Function.comp_apply, extend_fresh heap _ _ (by rwa [List.length_map]), List.getElem_map,
    List.getElem_idxOf]

/-- Distinct objects have distinct copies. -/
theorem copy_nodup (heap : Heap Object) (addresses : List Nat) (distinct : addresses.Nodup) :
    (heap.copy addresses).2.Nodup := by
  apply List.Nodup.map_on ?_ distinct
  intro first firstListed second secondListed same
  exact (List.idxOf_inj (List.mem_dedup.mpr firstListed)).mp (Nat.add_left_cancel same)

end Heap
