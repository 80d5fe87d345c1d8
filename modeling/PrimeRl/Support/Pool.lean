import Mathlib.Algebra.BigOperators.Group.List.Basic
import Mathlib.Data.List.Perm.Basic

/-!
# Pools whose members change one at a time

A pool lists members by index. Replacing one member keeps all others, so a sum
over the pool changes by that member's share and what the pool holds altogether
changes by what that member holds.
-/

namespace Pool

universe u v
variable {Member : Type u}

/-- A member and the others, before and after a replacement. -/
theorem set_perm (pool : List Member) (index : Nat) (member : Member)
    (found : pool[index]? = some member) :
    ∃ others, pool.Perm (member :: others) ∧
      ∀ next, (pool.set index next).Perm (next :: others) := by
  obtain ⟨inside, rfl⟩ := List.getElem?_eq_some_iff.mp found
  refine ⟨pool.eraseIdx index, (List.getElem_cons_eraseIdx_perm inside).symm, ?_⟩
  intro next
  exact List.set_perm_cons_eraseIdx inside next

/-- A sum over the pool changes by the share of the replaced member. -/
theorem sum_set {Total : Type v} [AddCommMonoid Total] (measure : Member → Total)
    (pool : List Member) (index : Nat) (member next : Member)
    (found : pool[index]? = some member) :
    ((pool.set index next).map measure).sum + measure member =
      (pool.map measure).sum + measure next := by
  obtain ⟨others, before, after⟩ := set_perm pool index member found
  rw [((after next).map measure).sum_eq, (before.map measure).sum_eq]
  simp only [List.map_cons, List.sum_cons]
  rw [add_right_comm, add_comm (measure next), add_right_comm]

/-- A count over the pool changes by whether the replaced member counts. -/
theorem countP_set (counts : Member → Bool) (pool : List Member) (index : Nat)
    (member next : Member) (found : pool[index]? = some member) :
    (pool.set index next).countP counts + (if counts member then 1 else 0) =
      pool.countP counts + (if counts next then 1 else 0) := by
  obtain ⟨others, before, after⟩ := set_perm pool index member found
  rw [(after next).countP_eq, before.countP_eq, List.countP_cons, List.countP_cons]
  omega

/-- What the pool holds, with the share of one member in front. -/
theorem flatMap_set {Item : Type v} (holds : Member → List Item) (pool : List Member)
    (index : Nat) (member : Member) (found : pool[index]? = some member) :
    ∃ others, (pool.flatMap holds).Perm (holds member ++ others) ∧
      ∀ next, ((pool.set index next).flatMap holds).Perm (holds next ++ others) := by
  obtain ⟨others, before, after⟩ := set_perm pool index member found
  exact ⟨others.flatMap holds, before.flatMap_right holds, fun next => (after next).flatMap_right holds⟩

/-- A pool in which only one member holds anything. -/
theorem flatMap_alone {Item : Type v} (holds : Member → List Item) (pool : List Member)
    (index : Nat) (member : Member) (found : pool[index]? = some member)
    (others : ∀ (place : Nat) other, pool[place]? = some other → place ≠ index →
      holds other = []) : pool.flatMap holds = holds member := by
  induction pool generalizing index with
  | nil => cases found
  | cons first rest inductionHypothesis =>
    rw [List.flatMap_cons]
    cases index with
    | zero =>
      obtain rfl := Option.some.inj found
      have nothing : rest.flatMap holds = [] := by
        rw [List.flatMap_eq_nil_iff]
        intro other present
        obtain ⟨place, isPlace⟩ := List.getElem?_of_mem present
        exact others (place + 1) other isPlace (Nat.succ_ne_zero place)
      rw [nothing, List.append_nil]
    | succ index =>
      have same := inductionHypothesis index found
        (fun place other present different => others (place + 1) other present (by omega))
      rw [others 0 first rfl (Nat.zero_ne_add_one index), List.nil_append, same]

end Pool
