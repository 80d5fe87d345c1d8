import Mathlib.Data.List.Perm.Subperm
import Mathlib.Data.List.Range
import Mathlib.Data.List.Sort

/-!
# Numbered queues

Numbers are issued in order and wait in a queue. Some are served from its front,
some are gone from it, and once the queue is shut nobody waits any more. Whoever
was overtaken by a served number is gone.
-/

namespace NumberedQueue

/-- Numbers served so far and numbers that still wait, in the order of issue. -/
structure InOrder (issued : Nat) (served waiting : List Nat) (Gone : Nat → Prop)
    (shut : Prop) : Prop where
  ascending : (served ++ waiting).Pairwise (· < ·)
  below : ∀ number ∈ served ++ waiting, number < issued
  gaps : ∀ number < issued, number ∉ served → number ∉ waiting →
    Gone number ∨ (shut ∧ waiting = [] ∧ ∀ earlier ∈ served, earlier < number)

variable {issued : Nat} {served waiting : List Nat} {Gone StillGone : Nat → Prop}
  {shut stillShut : Prop}

theorem inOrder_nil (Gone : Nat → Prop) (shut : Prop) : InOrder 0 [] [] Gone shut where
  ascending := List.Pairwise.nil
  below := fun _ impossible => absurd impossible List.not_mem_nil
  gaps := fun _ impossible => absurd impossible (Nat.not_lt_zero _)

/-- Some numbers are served from the front, others are gone, the rest still waits. -/
theorem InOrder.serve {taken rest : List Nat} (inOrder : InOrder issued served waiting Gone shut)
    (ordered : (taken ++ rest).Sublist waiting)
    (gone : ∀ number ∈ waiting, number ∉ taken ++ rest → StillGone number)
    (keeps : ∀ number, Gone number → StillGone number) (keepsShut : shut → stillShut) :
    InOrder issued (served ++ taken) rest StillGone stillShut where
  ascending := by
    rw [List.append_assoc]
    exact inOrder.ascending.sublist (ordered.append_left served)
  below := by
    intro number member
    rw [List.append_assoc] at member
    exact inOrder.below number ((ordered.append_left served).mem member)
  gaps := by
    intro number inside unserved absent
    rw [List.mem_append, not_or] at unserved
    by_cases waited : number ∈ waiting
    · apply Or.inl
      apply gone number waited
      rw [List.mem_append, not_or]
      exact ⟨unserved.2, absent⟩
    · rcases inOrder.gaps number inside unserved.1 waited with isGone | ⟨isShut, empty, after⟩
      · exact Or.inl (keeps number isGone)
      · rw [empty, List.sublist_nil, List.append_eq_nil_iff] at ordered
        obtain ⟨rfl, rfl⟩ := ordered
        refine Or.inr ⟨keepsShut isShut, rfl, ?_⟩
        rw [List.append_nil]
        exact after

/-- The next number is issued and waits behind everyone. -/
theorem InOrder.issue (inOrder : InOrder issued served waiting Gone shut) (isOpen : ¬ shut)
    (keeps : ∀ number, Gone number → StillGone number) :
    InOrder (issued + 1) served (waiting ++ [issued]) StillGone stillShut where
  ascending := by
    rw [← List.append_assoc, List.pairwise_append]
    refine ⟨inOrder.ascending, List.pairwise_singleton _ _, ?_⟩
    intro number member last isLast
    rw [List.mem_singleton] at isLast
    exact isLast ▸ inOrder.below number member
  below := by
    intro number member
    rw [← List.append_assoc, List.mem_append, List.mem_singleton] at member
    rcases member with earlier | isLast
    · exact Nat.lt_succ_of_lt (inOrder.below number earlier)
    · exact isLast ▸ Nat.lt_succ_self number
  gaps := by
    intro number inside unserved absent
    rw [List.mem_append, List.mem_singleton, not_or] at absent
    have earlier : number < issued := by
      have different := absent.2
      omega
    rcases inOrder.gaps number earlier unserved absent.1 with isGone | ⟨isShut, -⟩
    · exact Or.inl (keeps number isGone)
    · exact absurd isShut isOpen

/-- Shutting the queue sends everyone who waits away. -/
theorem InOrder.close (inOrder : InOrder issued served waiting Gone shut)
    (keeps : ∀ number, Gone number → StillGone number) (isShut : stillShut) :
    InOrder issued served [] StillGone stillShut where
  ascending := by
    rw [List.append_nil]
    exact inOrder.ascending.sublist (List.sublist_append_left served waiting)
  below := fun number member =>
    inOrder.below number (List.mem_append_left waiting (by simpa using member))
  gaps := by
    intro number inside unserved _
    by_cases waited : number ∈ waiting
    · refine Or.inr ⟨isShut, rfl, ?_⟩
      intro earlier isServed
      exact (List.pairwise_append.mp inOrder.ascending).2.2 earlier isServed number waited
    · rcases inOrder.gaps number inside unserved waited with isGone | ⟨-, -, after⟩
      · exact Or.inl (keeps number isGone)
      · exact Or.inr ⟨isShut, rfl, after⟩

/-- Numbers are served in the order of their issue, each at most once. -/
theorem InOrder.served_sublist (inOrder : InOrder issued served waiting Gone shut) :
    served.Sublist (List.range issued) := by
  have ascending := inOrder.ascending.sublist (List.sublist_append_left served waiting)
  have distinct : served.Nodup := ascending.imp (fun earlier => Nat.ne_of_lt earlier)
  apply List.sublist_of_subperm_of_pairwise _ ascending List.pairwise_lt_range
  apply List.subperm_of_subset distinct
  intro number member
  rw [List.mem_range]
  exact inOrder.below number (List.mem_append_left waiting member)

/-- Whoever was overtaken by a served number is gone. -/
theorem InOrder.overtaken_gone {front back : List Nat}
    (inOrder : InOrder issued (front ++ back) waiting Gone shut) {number later : Nat}
    (unserved : number ∉ front) (isServed : later ∈ front) (overtaken : number < later) :
    Gone number := by
  have ascending := inOrder.ascending
  rw [List.append_assoc, List.pairwise_append] at ascending
  have behind : number ∉ back ++ waiting := by
    intro member
    have after := ascending.2.2 later isServed number member
    omega
  rw [List.mem_append, not_or] at behind
  have inside := inOrder.below later
    (List.mem_append_left waiting (List.mem_append_left back isServed))
  have elsewhere : number ∉ front ++ back := by
    rw [List.mem_append, not_or]
    exact ⟨unserved, behind.1⟩
  rcases inOrder.gaps number (lt_trans overtaken inside) elsewhere behind.2 with isGone | ⟨-, -, after⟩
  · exact isGone
  · have earlier := after later (List.mem_append_left back isServed)
    omega

end NumberedQueue
