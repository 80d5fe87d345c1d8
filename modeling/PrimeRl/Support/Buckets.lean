import Mathlib.Algebra.BigOperators.Group.List.Basic
import Mathlib.Algebra.Ring.Nat
import Mathlib.Data.List.Nodup
import Mathlib.Data.List.Perm.Basic

/-!
# Collecting into buckets

Items are appended, in order of arrival, to the bucket their key names. A bucket
lists exactly the items with its key, and together the buckets rearrange the
items.
-/

namespace Buckets

universe u v
variable {Item : Type u} {Value : Type v}

/-- Append the value of every item to the bucket of its key. -/
def collect (size : Nat) (key : Item → Nat) (value : Item → Value) (items : List Item) :
    List (List Value) :=
  items.foldl (fun buckets item => buckets.modify (key item) (fun bucket => bucket ++ [value item]))
    (List.replicate size [])

/-- Appending to one bucket adds one value to all buckets together. -/
theorem modify_append_perm (buckets : List (List Value)) (position : Nat) (value : Value)
    (inside : position < buckets.length) :
    (buckets.modify position (fun bucket => bucket ++ [value])).flatten.Perm
      (value :: buckets.flatten) := by
  induction buckets generalizing position with
  | nil => simp at inside
  | cons first rest inductionHypothesis =>
    cases position with
    | zero =>
      simp only [List.modify_zero_cons, List.flatten_cons, List.append_assoc, List.singleton_append]
      exact List.perm_middle
    | succ position =>
      simp only [List.modify_succ_cons, List.flatten_cons]
      exact ((inductionHypothesis position (by simpa using inside)).append_left first).trans
        List.perm_middle

/-- Exchanging one bucket exchanges its items. -/
theorem set_perm (buckets : List (List Value)) (position : Nat) (bucket : List Value)
    (inside : position < buckets.length) :
    ((buckets.set position bucket).flatten ++ buckets.getD position []).Perm
      (buckets.flatten ++ bucket) := by
  induction buckets generalizing position with
  | nil => simp at inside
  | cons first rest inductionHypothesis =>
    cases position with
    | zero =>
      simp only [List.set_cons_zero, List.flatten_cons, List.getD_cons_zero, List.append_assoc]
      have turned : ((rest.flatten ++ first) ++ bucket).Perm ((first ++ rest.flatten) ++ bucket) :=
        List.perm_append_comm.append_right bucket
      rw [List.append_assoc first] at turned
      exact List.perm_append_comm.trans turned
    | succ position =>
      simp only [List.set_cons_succ, List.flatten_cons, List.getD_cons_succ, List.append_assoc]
      exact (inductionHypothesis position (by simpa using inside)).append_left first

theorem collect_length (size : Nat) (key : Item → Nat) (value : Item → Value) (items : List Item) :
    (collect size key value items).length = size := by
  have general (buckets : List (List Value)) :
      (items.foldl (fun buckets item =>
        buckets.modify (key item) (fun bucket => bucket ++ [value item])) buckets).length =
        buckets.length := by
    induction items generalizing buckets with
    | nil => rfl
    | cons item rest inductionHypothesis =>
      rw [List.foldl_cons, inductionHypothesis, List.length_modify]
  rw [collect, general, List.length_replicate]

/-- With every key in range the buckets rearrange the items. -/
theorem collect_perm (size : Nat) (key : Item → Nat) (value : Item → Value) (items : List Item)
    (inside : ∀ item ∈ items, key item < size) :
    (collect size key value items).flatten.Perm (items.map value) := by
  have general (buckets : List (List Value)) (width : buckets.length = size) :
      (items.foldl (fun buckets item =>
        buckets.modify (key item) (fun bucket => bucket ++ [value item])) buckets).flatten.Perm
        (items.map value ++ buckets.flatten) := by
    induction items generalizing buckets with
    | nil => exact List.Perm.refl _
    | cons item rest inductionHypothesis =>
      have here := modify_append_perm buckets (key item) (value item)
        (width ▸ inside item List.mem_cons_self)
      have later := inductionHypothesis (fun other member => inside other (List.mem_cons_of_mem _ member))
        (buckets.modify (key item) (fun bucket => bucket ++ [value item]))
        (by rw [List.length_modify, width])
      exact later.trans ((here.append_left _).trans List.perm_middle)
  have start := general (List.replicate size []) List.length_replicate
  rwa [List.flatten_replicate_nil, List.append_nil] at start

/-- Each bucket lists the items with its key, in order of arrival. -/
theorem collect_eq (size : Nat) (key : Item → Nat) (value : Item → Value) (items : List Item) :
    collect size key value items = (List.range size).map
      (fun bucket => (items.filter (fun item => key item = bucket)).map value) := by
  have general (buckets : List (List Value)) (bucket : Nat) :
      (items.foldl (fun buckets item =>
        buckets.modify (key item) (fun bucket => bucket ++ [value item])) buckets)[bucket]? =
        (buckets[bucket]?).map (fun content =>
          content ++ (items.filter (fun item => key item = bucket)).map value) := by
    induction items generalizing buckets with
    | nil => simp
    | cons item rest inductionHypothesis =>
      rw [List.foldl_cons, inductionHypothesis, List.getElem?_modify, Option.map_eq_map,
        Option.map_map]
      by_cases same : key item = bucket
      · congr 1
        funext content
        simp [same]
      · congr 1
        funext content
        simp [same]
  apply List.ext_getElem?
  intro bucket
  rw [collect, general, List.getElem?_map, List.getElem?_replicate]
  by_cases inside : bucket < size
  · simp [inside]
  · simp [inside]

theorem collect_flatten (size : Nat) (key : Item → Nat) (value : Item → Value) (items : List Item) :
    (collect size key value items).flatten =
      (List.range size).flatMap
        (fun bucket => (items.filter (fun item => key item = bucket)).map value) := by
  rw [collect_eq, List.flatMap_def]

/-! ## Dealing in turn -/

/-- Of the numbers below a multiple every remainder has its share. -/
theorem count_remainder {size bucket : Nat} (inside : bucket < size) (rounds : Nat) :
    (List.range (rounds * size)).countP (fun number => number % size = bucket) = rounds := by
  induction rounds with
  | zero => simp
  | succ rounds inductionHypothesis =>
    have round : ((List.range size).map (rounds * size + ·)).countP
        (fun number => number % size = bucket) = 1 := by
      have same : ∀ number ∈ List.range size,
          (decide ((rounds * size + number) % size = bucket) = true ↔ (number == bucket) = true) := by
        intro number member
        rw [Nat.mul_add_mod_of_lt (List.mem_range.mp member)]
        simp
      rw [List.countP_map]
      exact (List.countP_congr same).trans
        (List.count_eq_one_of_mem List.nodup_range (List.mem_range.mpr inside))
    rw [Nat.succ_mul, List.range_add, List.countP_append, inductionHypothesis, round]

/-- Dealing a multiple of the count of buckets gives every bucket its share. -/
theorem deal_even (size rounds : Nat) (items : List Item) (total : items.length = rounds * size) :
    ∀ bucket ∈ collect size (fun item => item.2 % size) Prod.fst items.zipIdx,
      bucket.length = rounds := by
  intro bucket member
  rw [collect_eq] at member
  obtain ⟨number, inRange, rfl⟩ := List.mem_map.mp member
  have places : items.zipIdx.map Prod.snd = List.range items.length := by
    rw [List.zipIdx_map_snd, List.range_eq_range']
  have counted : (items.zipIdx.filter (fun item => decide (item.2 % size = number))).length =
      (items.zipIdx.map Prod.snd).countP (fun place => place % size = number) := by
    rw [List.countP_map, List.countP_eq_length_filter]
    rfl
  rw [List.length_map, counted, places, total]
  exact count_remainder (List.mem_range.mp inRange) rounds

/-! ## Sorting by tests -/

/-- Tests of which no item passes two sort the items: what passes each of them and
    what passes none are all items. -/
theorem sift_perm {Test : Type v} (passes : Test → Item → Bool) (tests : List Test)
    (items : List Item) (once : ∀ item ∈ items, tests.countP (passes · item) ≤ 1) :
    (tests.flatMap (fun test => items.filter (passes test)) ++
      items.filter (fun item => !tests.any (passes · item))).Perm items := by
  classical
  rw [List.perm_iff_count]
  intro item
  by_cases listed : item ∈ items
  · have passed (p : Item → Bool) :
        (items.filter p).count item = if p item then items.count item else 0 := by
      split
      · next yes => exact List.count_filter yes
      · next no =>
        apply List.count_eq_zero_of_not_mem
        simp [no]
    have total (tests : List Test) :
        (tests.flatMap (fun test => items.filter (passes test))).count item =
          tests.countP (passes · item) * items.count item := by
      induction tests with
      | nil => simp
      | cons test tests inductionHypothesis =>
        rw [List.flatMap_cons, List.count_append, inductionHypothesis, passed, List.countP_cons]
        split
        · rw [Nat.add_mul, Nat.one_mul, Nat.add_comm]
        · simp
    rw [List.count_append, total, passed]
    cases Nat.eq_zero_or_pos (tests.countP (passes · item)) with
    | inl none =>
      have untested : tests.any (passes · item) = false := by
        rw [List.any_eq_false]
        exact fun test member => List.countP_eq_zero.mp none test member
      simp [none, untested]
    | inr some =>
      have one : tests.countP (passes · item) = 1 := Nat.le_antisymm (once item listed) some
      have tested : tests.any (passes · item) = true := by
        rw [List.any_eq_true]
        exact List.countP_pos_iff.mp some
      simp [one, tested]
  · rw [List.count_eq_zero_of_not_mem listed]
    apply List.count_eq_zero_of_not_mem
    simp [listed]

end Buckets
