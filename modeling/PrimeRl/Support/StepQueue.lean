import Mathlib.Data.List.Basic

/-!
# Queues of consecutive steps

Items arrive in batches, each batch stamped with the next step. They are taken
from the front, and only those of the current step. The current step moves on
when its last item is taken, so it is always the step at the head of the queue,
or the one to arrive next.
-/

namespace StepQueue

universe u
variable {Item : Type u}

/-- What is left of the steps from `current` up to `next`, in order. Every step
that is queued has an item left. -/
structure Queued (stamp : Item → Int) (current next : Int) (queue : List Item) : Prop where
  ordered : current ≤ next
  sorted : queue.Pairwise (fun first second => stamp first ≤ stamp second)
  within : ∀ item ∈ queue, current ≤ stamp item ∧ stamp item < next
  covered : ∀ step, current ≤ step → step < next → ∃ item ∈ queue, stamp item = step

variable {stamp : Item → Int} {current next : Int} {queue front rest : List Item}

theorem queued_nil (stamp : Item → Int) (current : Int) : Queued stamp current current [] where
  ordered := Int.le_refl current
  sorted := List.Pairwise.nil
  within := fun _ impossible => absurd impossible List.not_mem_nil
  covered := fun _ below above => absurd (Int.lt_of_le_of_lt below above) (Int.lt_irrefl current)

/-- A batch of the next step goes behind what is queued. -/
theorem Queued.arrive (queued : Queued stamp current next queue) {batch : List Item}
    (nonempty : batch ≠ []) (stamped : ∀ item ∈ batch, stamp item = next) :
    Queued stamp current (next + 1) (queue ++ batch) where
  ordered := by
    have ordered := queued.ordered
    omega
  sorted := by
    rw [List.pairwise_append]
    refine ⟨queued.sorted, ?_, ?_⟩
    · refine List.pairwise_of_forall_mem_list ?_
      intro first isFirst second isSecond
      have earlier := stamped first isFirst
      have later := stamped second isSecond
      omega
    · intro first isFirst second isSecond
      rw [stamped second isSecond]
      exact Int.le_of_lt (queued.within first isFirst).2
  within := by
    intro item member
    rcases List.mem_append.mp member with earlier | new
    · have bounds := queued.within item earlier
      omega
    · have ordered := queued.ordered
      rw [stamped item new]
      omega
  covered := by
    intro step below above
    by_cases earlier : step < next
    · obtain ⟨item, member, same⟩ := queued.covered step below earlier
      exact ⟨item, List.mem_append_left batch member, same⟩
    · obtain ⟨item, member⟩ := List.exists_mem_of_ne_nil batch nonempty
      refine ⟨item, List.mem_append_right queue member, ?_⟩
      rw [stamped item member]
      omega

/-- The head of the queue is of the current step. -/
theorem Queued.head (queued : Queued stamp current next (front ++ rest)) {item : Item}
    (isHead : (front ++ rest).head? = some item) : stamp item = current := by
  cases listed : front ++ rest with
  | nil => simp [listed] at isHead
  | cons first others =>
    obtain rfl : first = item := by simpa [listed] using isHead
    rw [listed] at queued
    have bounds := queued.within first List.mem_cons_self
    obtain ⟨least, member, same⟩ :=
      queued.covered current (Int.le_refl current) (Int.lt_of_le_of_lt bounds.1 bounds.2)
    rcases List.mem_cons.mp member with rfl | later
    · exact same
    · have after := (List.pairwise_cons.mp queued.sorted).1 least later
      omega

/-- An empty queue waits for the current step. -/
theorem Queued.caught_up (queued : Queued stamp current next []) : current = next := by
  by_contra different
  have ordered := queued.ordered
  obtain ⟨_, impossible, _⟩ := queued.covered current (Int.le_refl current) (by omega)
  exact absurd impossible List.not_mem_nil

/-- Part of the current step is taken. -/
theorem Queued.take (queued : Queued stamp current next (front ++ rest))
    (taken : ∀ item ∈ front, stamp item ≤ current) {head : Item} (isHead : rest.head? = some head)
    (remains : stamp head ≤ current) : Queued stamp current next rest where
  ordered := queued.ordered
  sorted := (List.pairwise_append.mp queued.sorted).2.1
  within := fun item member => queued.within item (List.mem_append_right front member)
  covered := by
    intro step below above
    obtain ⟨item, member, same⟩ := queued.covered step below above
    rcases List.mem_append.mp member with gone | stays
    · -- only items of the current step are gone, and the head is another one
      have headMember : head ∈ rest := List.mem_of_mem_head? isHead
      have bounds := queued.within head (List.mem_append_right front headMember)
      have old := taken item gone
      exact ⟨head, headMember, by omega⟩
    · exact ⟨item, stays, same⟩

/-- The last item of the current step is taken. -/
theorem Queued.finish (queued : Queued stamp current next (front ++ rest)) (some : front ≠ [])
    (taken : ∀ item ∈ front, stamp item ≤ current)
    (last : ∀ head, rest.head? = Option.some head → current < stamp head) :
    Queued stamp (current + 1) next rest where
  ordered := by
    obtain ⟨item, member⟩ := List.exists_mem_of_ne_nil front some
    have bounds := queued.within item (List.mem_append_left rest member)
    omega
  sorted := (List.pairwise_append.mp queued.sorted).2.1
  within := by
    intro item member
    have bounds := queued.within item (List.mem_append_right front member)
    cases rest with
    | nil => cases member
    | cons head others =>
      have headLast := last head rfl
      have sorted := (List.pairwise_append.mp queued.sorted).2.1
      rcases List.mem_cons.mp member with rfl | later
      · omega
      · have after := (List.pairwise_cons.mp sorted).1 item later
        omega
  covered := by
    intro step below above
    obtain ⟨item, member, same⟩ := queued.covered step (by omega) above
    rcases List.mem_append.mp member with gone | stays
    · have old := taken item gone
      omega
    · exact ⟨item, stays, same⟩

end StepQueue
