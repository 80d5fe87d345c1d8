import Mathlib.Algebra.BigOperators.Group.List.Basic
import Mathlib.Algebra.Ring.Int.Defs
import Mathlib.Algebra.Ring.Nat
import Mathlib.Data.List.Nodup
import Mathlib.Data.List.Perm.Basic

/-!
# Dictionaries that remember insertion order

Entries are listed oldest first and no key is listed twice. Writing to a key
that is already present keeps its position, and writing to a new key appends;
removal keeps the order of what remains. Every law about totals over the
entries follows from one permutation: a present entry, then the rest.
-/

universe u v

/-- An insertion-ordered association list that carries the distinctness of its keys. -/
structure OrderedDict (Key : Type u) (Value : Type v) where
  entries : List (Key × Value)
  distinct : (entries.map Prod.fst).Nodup
deriving DecidableEq

namespace OrderedDict

variable {Key : Type u} {Value : Type v}

def empty : OrderedDict Key Value := ⟨[], List.nodup_nil⟩

/-- Keys, oldest first. -/
def keys (dict : OrderedDict Key Value) : List Key := dict.entries.map Prod.fst

/-- Values, oldest first. -/
def values (dict : OrderedDict Key Value) : List Value := dict.entries.map Prod.snd

def size (dict : OrderedDict Key Value) : Nat := dict.entries.length

/-- A measure summed over the values. -/
def total (dict : OrderedDict Key Value) (measure : Value → Nat) : Nat :=
  (dict.values.map measure).sum

/-- Remove and return the oldest entry. -/
def popFirst (dict : OrderedDict Key Value) : Option ((Key × Value) × OrderedDict Key Value) :=
  match dict with
  | ⟨[], _⟩ => none
  | ⟨entry :: rest, distinct⟩ => some (entry, ⟨rest, (List.nodup_cons.mp distinct).2⟩)

/-- The oldest entry is the head of the listing. -/
theorem popFirst_eq_some_iff (dict rest : OrderedDict Key Value) (key : Key) (value : Value) :
    dict.popFirst = some ((key, value), rest) ↔ dict.entries = (key, value) :: rest.entries := by
  obtain ⟨entries, distinct⟩ := dict
  obtain ⟨restEntries, restDistinct⟩ := rest
  cases entries with
  | nil => simp [popFirst]
  | cons entry tail => simp [popFirst]

variable [DecidableEq Key]

/-- The value stored under a key. -/
def get? (dict : OrderedDict Key Value) (key : Key) : Option Value :=
  (dict.entries.find? (fun entry => decide (entry.1 = key))).map Prod.snd

/-- Rewrite the value under a key in place; an absent key changes nothing. -/
def modify (dict : OrderedDict Key Value) (key : Key) (change : Value → Value) :
    OrderedDict Key Value where
  entries := dict.entries.map
    (fun entry => if entry.1 = key then (entry.1, change entry.2) else entry)
  distinct := by
    have unchanged : (dict.entries.map
        (fun entry => if entry.1 = key then (entry.1, change entry.2) else entry)).map Prod.fst =
        dict.entries.map Prod.fst := by
      rw [List.map_map]
      apply List.map_congr_left
      intro entry _
      simp only [Function.comp_apply]
      split <;> rfl
    exact unchanged ▸ dict.distinct

/-- Drop the entry under a key. -/
def erase (dict : OrderedDict Key Value) (key : Key) : OrderedDict Key Value where
  entries := dict.entries.filter (fun entry => decide (entry.1 ≠ key))
  distinct := dict.distinct.sublist (List.filter_sublist.map Prod.fst)

/-- Drop the entries whose value passes a test. -/
def discard (dict : OrderedDict Key Value) (test : Value → Bool) : OrderedDict Key Value where
  entries := dict.entries.filter (fun entry => !test entry.2)
  distinct := dict.distinct.sublist (List.filter_sublist.map Prod.fst)

/-- Rewrite every value in place. -/
def mapValues (dict : OrderedDict Key Value) (change : Value → Value) : OrderedDict Key Value where
  entries := dict.entries.map (fun entry => (entry.1, change entry.2))
  distinct := by
    rw [List.map_map]
    exact dict.distinct

/-- Store a value: in place when the key is present, at the end when it is new. -/
def set (dict : OrderedDict Key Value) (key : Key) (value : Value) : OrderedDict Key Value :=
  if present : key ∈ dict.keys then dict.modify key (fun _ => value)
  else
    { entries := dict.entries ++ [(key, value)]
      distinct := by
        rw [List.map_append, List.nodup_append]
        refine ⟨dict.distinct, List.nodup_singleton key, ?_⟩
        intro old member other singleton same
        have isKey : other = key := List.mem_singleton.mp singleton
        rw [same, isKey] at member
        exact present member }

@[simp] theorem modify_keys (dict : OrderedDict Key Value) (key : Key) (change : Value → Value) :
    (dict.modify key change).keys = dict.keys := by
  simp only [keys, modify, List.map_map]
  apply List.map_congr_left
  intro entry _
  simp only [Function.comp_apply]
  split <;> rfl

/-- Reading a key finds exactly the listed entry, because keys are distinct. -/
theorem get?_eq_some_iff (dict : OrderedDict Key Value) (key : Key) (value : Value) :
    dict.get? key = some value ↔ (key, value) ∈ dict.entries := by
  obtain ⟨entries, distinct⟩ := dict
  simp only [get?]
  induction entries with
  | nil => simp
  | cons entry rest inductionHypothesis =>
    have restDistinct : (rest.map Prod.fst).Nodup := (List.nodup_cons.mp distinct).2
    have fresh : entry.1 ∉ rest.map Prod.fst := (List.nodup_cons.mp distinct).1
    by_cases same : entry.1 = key
    · simp only [List.find?_cons, same, decide_true, Option.map_some, Option.some.injEq,
        List.mem_cons]
      constructor
      · rintro rfl
        exact .inl (by rw [← same])
      · rintro (rfl | later)
        · rfl
        · exact absurd (List.mem_map_of_mem (f := Prod.fst) later) (same ▸ fresh)
    · have different : (key, value) ≠ entry := fun equal => same (by rw [← equal])
      simp [same, different, inductionHypothesis restDistinct]

/-- A present entry followed by what remains after erasing it is a reordering
of the dictionary. -/
theorem erase_perm (dict : OrderedDict Key Value) (key : Key) (value : Value)
    (found : dict.get? key = some value) :
    dict.entries.Perm ((key, value) :: (dict.erase key).entries) := by
  rw [get?_eq_some_iff] at found
  obtain ⟨entries, distinct⟩ := dict
  simp only [erase] at found ⊢
  induction entries with
  | nil => simp at found
  | cons entry rest inductionHypothesis =>
    have restDistinct : (rest.map Prod.fst).Nodup := (List.nodup_cons.mp distinct).2
    have fresh : entry.1 ∉ rest.map Prod.fst := (List.nodup_cons.mp distinct).1
    rcases List.mem_cons.mp found with rfl | later
    · have untouched : rest.filter (fun other => decide (other.1 ≠ key)) = rest := by
        rw [List.filter_eq_self]
        intro other member
        simp only [ne_eq, decide_eq_true_eq]
        intro same
        exact fresh (List.mem_map.mpr ⟨other, member, same⟩)
      rw [List.filter_cons_of_neg (by simp), untouched]
    · have different : entry.1 ≠ key := by
        intro same
        exact fresh (List.mem_map.mpr ⟨(key, value), later, same.symm⟩)
      simp only [ne_eq, List.filter_cons, different, not_false_eq_true, decide_true, if_true]
      exact ((inductionHypothesis restDistinct later).cons entry).trans (List.Perm.swap _ _ _)

/-- Writing a new key appends its entry. -/
theorem set_new (dict : OrderedDict Key Value) (key : Key) (value : Value)
    (fresh : key ∉ dict.keys) : (dict.set key value).entries = dict.entries ++ [(key, value)] := by
  simp only [set, fresh, ↓reduceDIte]

/-- Writing new keys one after the other appends their entries. -/
theorem set_all_entries (dict : OrderedDict Key Value) (items : List (Key × Value))
    (unique : (items.map Prod.fst).Nodup) (fresh : ∀ item ∈ items, item.1 ∉ dict.keys) :
    (items.foldl (fun current item => current.set item.1 item.2) dict).entries =
      dict.entries ++ items := by
  induction items generalizing dict with
  | nil => exact (List.append_nil _).symm
  | cons item rest inductionHypothesis =>
    obtain ⟨absent, uniqueRest⟩ := List.nodup_cons.mp unique
    have appended := set_new dict item.1 item.2 (fresh item List.mem_cons_self)
    have keysAfter : (dict.set item.1 item.2).keys = dict.keys ++ [item.1] := by
      rw [keys, appended, List.map_append]
      rfl
    rw [List.foldl_cons, inductionHypothesis _ uniqueRest, appended, List.append_assoc]
    · rfl
    · intro other member inside
      rw [keysAfter, List.mem_append, List.mem_singleton] at inside
      rcases inside with earlier | same
      · exact fresh other (List.mem_cons_of_mem item member) earlier
      · exact absent (same ▸ List.mem_map_of_mem member)

/-- What is stored after a write: the written value under its key, the rest as before. -/
theorem mem_set (dict : OrderedDict Key Value) (key other : Key) (value stored : Value) :
    (other, stored) ∈ (dict.set key value).entries ↔
      (other = key ∧ stored = value) ∨ (other ≠ key ∧ (other, stored) ∈ dict.entries) := by
  by_cases present : key ∈ dict.keys
  · simp only [set, present, ↓reduceDIte, modify, List.mem_map]
    constructor
    · rintro ⟨⟨name, old⟩, member, changed⟩
      by_cases same : name = key
      · rw [if_pos same] at changed
        obtain ⟨rfl, rfl⟩ := Prod.mk.inj changed
        exact Or.inl ⟨same, rfl⟩
      · rw [if_neg same] at changed
        obtain ⟨rfl, rfl⟩ := Prod.mk.inj changed
        exact Or.inr ⟨same, member⟩
    · rintro (⟨rfl, rfl⟩ | ⟨different, member⟩)
      · obtain ⟨⟨name, old⟩, member, rfl⟩ := List.mem_map.mp present
        exact ⟨(name, old), member, if_pos rfl⟩
      · exact ⟨(other, stored), member, if_neg different⟩
  · rw [set_new dict key value present, List.mem_append, List.mem_singleton, Prod.mk.injEq]
    constructor
    · rintro (member | same)
      · refine Or.inr ⟨?_, member⟩
        rintro rfl
        exact present (List.mem_map_of_mem member)
      · exact Or.inl same
    · rintro (same | ⟨-, member⟩)
      · exact Or.inr same
      · exact Or.inl member

theorem mem_keys_set (dict : OrderedDict Key Value) (key other : Key) (value : Value) :
    other ∈ (dict.set key value).keys ↔ other = key ∨ other ∈ dict.keys := by
  simp only [keys, List.mem_map, Prod.exists, exists_and_right, exists_eq_right, mem_set]
  constructor
  · rintro ⟨stored, ⟨same, -⟩ | ⟨-, member⟩⟩
    · exact Or.inl same
    · exact Or.inr ⟨stored, member⟩
  · rintro (same | ⟨stored, member⟩)
    · exact ⟨value, Or.inl ⟨same, rfl⟩⟩
    · by_cases same : other = key
      · exact ⟨value, Or.inl ⟨same, rfl⟩⟩
      · exact ⟨stored, Or.inr ⟨same, member⟩⟩

theorem get?_set (dict : OrderedDict Key Value) (key other : Key) (value : Value) :
    (dict.set key value).get? other = if other = key then some value else dict.get? other := by
  apply Option.ext
  intro stored
  rw [get?_eq_some_iff, mem_set]
  split
  · rename_i same
    rw [Option.some.injEq]
    constructor
    · rintro (⟨-, rfl⟩ | ⟨different, -⟩)
      · rfl
      · exact absurd same different
    · rintro rfl
      exact Or.inl ⟨same, rfl⟩
  · rename_i different
    rw [get?_eq_some_iff]
    constructor
    · rintro (⟨same, -⟩ | ⟨-, member⟩)
      · exact absurd same different
      · exact member
    · intro member
      exact Or.inr ⟨different, member⟩

theorem mem_erase (dict : OrderedDict Key Value) (key other : Key) (stored : Value) :
    (other, stored) ∈ (dict.erase key).entries ↔ other ≠ key ∧ (other, stored) ∈ dict.entries := by
  simp only [erase, List.mem_filter, decide_eq_true_eq]
  exact And.comm

/-- A written entry followed by what the key was not listed for. -/
theorem set_perm (dict : OrderedDict Key Value) (key : Key) (value : Value) :
    (dict.set key value).entries.Perm ((key, value) :: (dict.erase key).entries) := by
  have written := erase_perm (dict.set key value) key value (by rw [get?_set, if_pos rfl])
  refine written.trans (List.Perm.cons _ ?_)
  refine (List.perm_ext_iff_of_nodup (List.Nodup.of_map Prod.fst (OrderedDict.distinct _))
    (List.Nodup.of_map Prod.fst (OrderedDict.distinct _))).mpr ?_
  rintro ⟨other, stored⟩
  rw [mem_erase, mem_erase, mem_set]
  constructor
  · rintro ⟨different, ⟨same, _⟩ | ⟨_, member⟩⟩
    · exact absurd same different
    · exact ⟨different, member⟩
  · rintro ⟨different, member⟩
    exact ⟨different, .inr ⟨different, member⟩⟩

/-- Appending to the list under a key adds one item to all lists together. -/
theorem append_perm {Item : Type v} (dict : OrderedDict Key (List Item)) (key : Key) (item : Item) :
    ((dict.set key ((dict.get? key).getD [] ++ [item])).entries.flatMap Prod.snd).Perm
      (dict.entries.flatMap Prod.snd ++ [item]) := by
  refine ((set_perm dict key _).flatMap_right Prod.snd).trans ?_
  rw [List.flatMap_cons, List.append_assoc]
  cases found : dict.get? key with
  | some items =>
    have split := (erase_perm dict key items found).flatMap_right Prod.snd
    rw [List.flatMap_cons] at split
    refine (List.perm_append_comm.append_left _).trans ?_
    rw [← List.append_assoc]
    exact split.symm.append_right [item]
  | none =>
    have all : (dict.erase key).entries = dict.entries := by
      simp only [erase]
      rw [List.filter_eq_self]
      rintro ⟨other, stored⟩ member
      simp only [ne_eq, decide_eq_true_eq]
      rintro rfl
      rw [(get?_eq_some_iff dict other stored).mpr member] at found
      cases found
    rw [all, Option.getD_none, List.nil_append]
    exact List.perm_append_comm

theorem get?_erase (dict : OrderedDict Key Value) (key other : Key) :
    (dict.erase key).get? other = if other = key then none else dict.get? other := by
  apply Option.ext
  intro stored
  rw [get?_eq_some_iff, mem_erase]
  split
  · rename_i same
    exact ⟨fun both => absurd same both.1, fun impossible => absurd impossible.symm (Option.some_ne_none _)⟩
  · rename_i different
    rw [get?_eq_some_iff]
    exact ⟨fun both => both.2, fun member => ⟨different, member⟩⟩

/-- Erasing a present key removes exactly its own contribution. -/
theorem total_erase (dict : OrderedDict Key Value) (key : Key) (value : Value)
    (measure : Value → Nat) (found : dict.get? key = some value) :
    dict.total measure = measure value + (dict.erase key).total measure := by
  have reordered := ((dict.erase_perm key value found).map Prod.snd).map measure
  simpa only [total, values, List.map_cons, List.sum_cons] using reordered.sum_eq

/-- Erasing a present key removes one entry. -/
theorem size_erase (dict : OrderedDict Key Value) (key : Key) (value : Value)
    (found : dict.get? key = some value) : dict.size = (dict.erase key).size + 1 := by
  simpa only [size, List.length_cons] using (dict.erase_perm key value found).length_eq

/-- A rewrite that keeps the measure of each value keeps the total. -/
theorem total_modify (dict : OrderedDict Key Value) (key : Key) (change : Value → Value)
    (measure : Value → Nat) (kept : ∀ value, measure (change value) = measure value) :
    (dict.modify key change).total measure = dict.total measure := by
  simp only [total, values, modify, List.map_map]
  congr 1
  apply List.map_congr_left
  intro entry _
  simp only [Function.comp_apply]
  split
  · exact kept entry.2
  · rfl

/-- Rewriting each of several distinct keys once rewrites exactly their entries,
all in place. -/
theorem modify_all_entries (dict : OrderedDict Key Value) (selected : List Key)
    (change : Value → Value) (unique : selected.Nodup) :
    (selected.foldl (fun current key => current.modify key change) dict).entries =
      dict.entries.map
        (fun entry => if entry.1 ∈ selected then (entry.1, change entry.2) else entry) := by
  induction selected generalizing dict with
  | nil => simp
  | cons key rest inductionHypothesis =>
    have absent : key ∉ rest := (List.nodup_cons.mp unique).1
    rw [List.foldl_cons, inductionHypothesis _ (List.nodup_cons.mp unique).2]
    simp only [modify, List.map_map]
    apply List.map_congr_left
    intro entry _
    by_cases same : entry.1 = key
    · simp [same, absent]
    · simp [same]

omit [DecidableEq Key] in
/-- What is discarded takes its contribution away. -/
theorem total_discard (dict : OrderedDict Key Value) (test : Value → Bool)
    (measure : Value → Nat) :
    dict.total measure =
      ((dict.entries.filter (fun entry => test entry.2)).map
        (fun entry => measure entry.2)).sum + (dict.discard test).total measure := by
  obtain ⟨entries, distinct⟩ := dict
  simp only [total, values, discard]
  clear distinct
  induction entries with
  | nil => rfl
  | cons entry rest inductionHypothesis =>
    cases passes : test entry.2 with
    | true =>
      simp only [List.filter_cons, passes, Bool.not_true, Bool.false_eq_true, if_true, if_false,
        List.map_cons, List.sum_cons]
      omega
    | false =>
      simp only [List.filter_cons, passes, Bool.not_false, Bool.false_eq_true, if_true, if_false,
        List.map_cons, List.sum_cons]
      omega

omit [DecidableEq Key] in
/-- A rewrite that keeps the measure of each value keeps the total. -/
theorem total_map_values (dict : OrderedDict Key Value) (change : Value → Value)
    (measure : Value → Nat) (kept : ∀ value, measure (change value) = measure value) :
    (dict.mapValues change).total measure = dict.total measure := by
  simp only [total, values, mapValues, List.map_map]
  congr 1
  apply List.map_congr_left
  intro entry _
  exact kept entry.2

end OrderedDict
