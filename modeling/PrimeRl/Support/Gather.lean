import PrimeRl.Support.OrderedDict

/-!
# Gathering items by key

Items arrive with a key and wait until as many as the key's size have arrived.
Then they leave together, oldest first. When no key gets more items than its
size, every key leaves at most once, with all its items, at the arrival that
completes it.
-/

namespace Gather

universe u v
variable {Key : Type u} {Item : Type v} [DecidableEq Key]

/-- The items of one key, in the order of their arrival. -/
def itemsOf (arrived : List (Key × Item)) (key : Key) : List Item :=
  (arrived.filter (fun entry => decide (entry.1 = key))).map Prod.snd

/-- What waits and what has left, after some arrivals. -/
structure Gathered (size : Key → Nat) (arrived : List (Key × Item))
    (waiting : OrderedDict Key (List Item)) (finished : List (Key × List Item)) : Prop where
  open_items : ∀ key items, (key, items) ∈ waiting.entries →
    items = itemsOf arrived key ∧ 0 < items.length ∧ items.length < size key
  all_items : ∀ key items, (key, items) ∈ finished →
    items = itemsOf arrived key ∧ items.length = size key
  once : (finished.map Prod.fst).Nodup
  covered : ∀ key, itemsOf arrived key ≠ [] → key ∈ waiting.keys ∨ key ∈ finished.map Prod.fst

theorem items_append_same (arrived : List (Key × Item)) (key : Key) (item : Item) :
    itemsOf (arrived ++ [(key, item)]) key = itemsOf arrived key ++ [item] := by
  rw [itemsOf, List.filter_append, List.map_append, itemsOf]
  simp

theorem items_append_other (arrived : List (Key × Item)) (key other : Key) (item : Item)
    (different : other ≠ key) : itemsOf (arrived ++ [(key, item)]) other = itemsOf arrived other := by
  rw [itemsOf, List.filter_append, List.map_append, itemsOf]
  simp [Ne.symm different]

theorem mem_items (arrived : List (Key × Item)) (key : Key) (item : Item) :
    item ∈ itemsOf arrived key ↔ (key, item) ∈ arrived := by
  simp [itemsOf]

theorem items_distinct {arrived : List (Key × Item)} (distinct : (arrived.map Prod.snd).Nodup)
    (key : Key) : (itemsOf arrived key).Nodup :=
  distinct.sublist (List.filter_sublist.map Prod.snd)

/-- An item that arrives once has one key. -/
theorem key_of_item {arrived : List (Key × Item)} (distinct : (arrived.map Prod.snd).Nodup)
    {key other : Key} {item : Item} (member : item ∈ itemsOf arrived key)
    (otherMember : item ∈ itemsOf arrived other) : key = other := by
  have first := (mem_items arrived key item).mp member
  have second := (mem_items arrived other item).mp otherMember
  exact congrArg Prod.fst (List.inj_on_of_nodup_map distinct first second rfl)

theorem gathered_empty (size : Key → Nat) :
    Gathered size ([] : List (Key × Item)) .empty [] where
  open_items := fun _ _ impossible => absurd impossible List.not_mem_nil
  all_items := fun _ _ impossible => absurd impossible List.not_mem_nil
  once := List.nodup_nil
  covered := fun _ some => absurd rfl some

namespace Gathered

variable {size : Key → Nat} {arrived : List (Key × Item)} {waiting : OrderedDict Key (List Item)}
  {finished : List (Key × List Item)}

/-- What waits under a key is all that arrived, as long as the key is not complete. -/
theorem waiting_items (gathered : Gathered size arrived waiting finished) (key : Key)
    (incomplete : (itemsOf arrived key).length < size key) :
    (waiting.get? key).getD [] = itemsOf arrived key := by
  by_cases none : itemsOf arrived key = []
  · rw [none]
    cases found : waiting.get? key with
    | none => rfl
    | some items =>
      have listed := (OrderedDict.get?_eq_some_iff waiting key items).mp found
      exact (gathered.open_items key items listed).1.trans none
  · rcases gathered.covered key none with isOpen | left
    · obtain ⟨⟨other, items⟩, listed, rfl⟩ := List.mem_map.mp isOpen
      rw [(OrderedDict.get?_eq_some_iff waiting _ items).mpr listed]
      exact (gathered.open_items _ items listed).1
    · obtain ⟨⟨other, items⟩, listed, rfl⟩ := List.mem_map.mp left
      obtain ⟨rfl, full⟩ := gathered.all_items _ items listed
      exact absurd full (Nat.ne_of_lt incomplete)

/-- Only the sizes of keys with an arrival matter. -/
theorem resize {other : Key → Nat} (gathered : Gathered size arrived waiting finished)
    (same : ∀ key, itemsOf arrived key ≠ [] → other key = size key)
    (positive : ∀ key ∈ finished.map Prod.fst, 0 < size key) :
    Gathered other arrived waiting finished where
  open_items := by
    intro key items listed
    obtain ⟨rfl, some, fewer⟩ := gathered.open_items key items listed
    exact ⟨rfl, some, (same key (List.ne_nil_of_length_pos some)).symm ▸ fewer⟩
  all_items := by
    intro key items listed
    obtain ⟨rfl, full⟩ := gathered.all_items key items listed
    have some : 0 < (itemsOf arrived key).length :=
      full ▸ positive key (List.mem_map.mpr ⟨_, listed, rfl⟩)
    exact ⟨rfl, (same key (List.ne_nil_of_length_pos some)).symm ▸ full⟩
  once := gathered.once
  covered := gathered.covered

/-- An arrival that leaves its key incomplete waits. -/
theorem wait (gathered : Gathered size arrived waiting finished) (key : Key) (item : Item)
    (incomplete : (itemsOf (arrived ++ [(key, item)]) key).length < size key) :
    Gathered size (arrived ++ [(key, item)])
      (waiting.set key ((waiting.get? key).getD [] ++ [item])) finished := by
  rw [items_append_same, List.length_append, List.length_singleton] at incomplete
  have items := gathered.waiting_items key (by omega)
  rw [items]
  constructor
  · intro other listed member
    rcases (OrderedDict.mem_set _ _ _ _ _).mp member with ⟨rfl, rfl⟩ | ⟨different, before⟩
    · rw [items_append_same, List.length_append, List.length_singleton]
      exact ⟨rfl, Nat.succ_pos _, incomplete⟩
    · rw [items_append_other arrived key other item different]
      exact gathered.open_items other listed before
  · intro other listed member
    obtain ⟨rfl, full⟩ := gathered.all_items other listed member
    have different : other ≠ key := by
      rintro rfl
      omega
    rw [items_append_other arrived key other item different]
    exact ⟨rfl, full⟩
  · exact gathered.once
  · intro other some
    by_cases same : other = key
    · exact Or.inl ((OrderedDict.mem_keys_set _ _ _ _).mpr (Or.inl same))
    · rw [items_append_other arrived key other item same] at some
      rcases gathered.covered other some with isOpen | left
      · exact Or.inl ((OrderedDict.mem_keys_set _ _ _ _).mpr (Or.inr isOpen))
      · exact Or.inr left

/-- The arrival that completes its key lets all its items go. -/
theorem finish (gathered : Gathered size arrived waiting finished) (key : Key) (item : Item)
    (complete : (itemsOf (arrived ++ [(key, item)]) key).length = size key) :
    Gathered size (arrived ++ [(key, item)])
      ((waiting.set key ((waiting.get? key).getD [] ++ [item])).erase key)
      (finished ++ [(key, itemsOf (arrived ++ [(key, item)]) key)]) := by
  have before := complete
  rw [items_append_same, List.length_append, List.length_singleton] at before
  have fresh : key ∉ finished.map Prod.fst := by
    intro left
    obtain ⟨⟨other, items⟩, listed, rfl⟩ := List.mem_map.mp left
    obtain ⟨rfl, full⟩ := gathered.all_items _ items listed
    simp only at full before
    omega
  constructor
  · intro other listed member
    obtain ⟨different, inSet⟩ := (OrderedDict.mem_erase _ _ _ _).mp member
    rcases (OrderedDict.mem_set _ _ _ _ _).mp inSet with ⟨rfl, -⟩ | ⟨-, earlier⟩
    · exact absurd rfl different
    · rw [items_append_other arrived key other item different]
      exact gathered.open_items other listed earlier
  · intro other listed member
    rcases List.mem_append.mp member with earlier | last
    · obtain ⟨rfl, full⟩ := gathered.all_items other listed earlier
      have different : other ≠ key := by
        rintro rfl
        exact fresh (List.mem_map_of_mem earlier)
      rw [items_append_other arrived key other item different]
      exact ⟨rfl, full⟩
    · obtain ⟨rfl, rfl⟩ := Prod.mk.inj (List.mem_singleton.mp last)
      exact ⟨rfl, complete⟩
  · rw [List.map_append, List.nodup_append]
    refine ⟨gathered.once, List.nodup_singleton key, ?_⟩
    rintro other member last isLast rfl
    rw [List.map_singleton, List.mem_singleton] at isLast
    have same : other = key := isLast
    exact fresh (same ▸ member)
  · intro other some
    by_cases same : other = key
    · refine Or.inr (List.mem_map.mpr ⟨_, List.mem_append_right _ (List.mem_singleton_self _), ?_⟩)
      exact same.symm
    · rw [items_append_other arrived key other item same] at some
      rcases gathered.covered other some with isOpen | left
      · refine Or.inl ?_
        obtain ⟨⟨name, items⟩, listed, rfl⟩ := List.mem_map.mp isOpen
        refine List.mem_map.mpr ⟨(name, items), ?_, rfl⟩
        refine (OrderedDict.mem_erase _ _ _ _).mpr ⟨same, ?_⟩
        exact (OrderedDict.mem_set _ _ _ _ _).mpr (Or.inr ⟨same, listed⟩)
      · rw [List.map_append]
        exact Or.inr (List.mem_append_left _ left)

/-- A key has left exactly when as many items as its size have arrived. -/
theorem finished_iff (gathered : Gathered size arrived waiting finished) (key : Key)
    (some : itemsOf arrived key ≠ []) :
    key ∈ finished.map Prod.fst ↔ (itemsOf arrived key).length = size key := by
  constructor
  · intro left
    obtain ⟨⟨other, items⟩, listed, rfl⟩ := List.mem_map.mp left
    obtain ⟨rfl, full⟩ := gathered.all_items _ items listed
    exact full
  · intro full
    rcases gathered.covered key some with isOpen | left
    · obtain ⟨⟨other, items⟩, listed, rfl⟩ := List.mem_map.mp isOpen
      obtain ⟨rfl, -, fewer⟩ := gathered.open_items _ items listed
      exact absurd full (Nat.ne_of_lt fewer)
    · exact left

/-- When no item arrives twice, no item leaves twice. -/
theorem finished_distinct (gathered : Gathered size arrived waiting finished)
    (distinct : (arrived.map Prod.snd).Nodup) : (finished.flatMap Prod.snd).Nodup := by
  rw [List.nodup_flatMap]
  constructor
  · rintro ⟨key, items⟩ listed
    obtain ⟨rfl, -⟩ := gathered.all_items key items listed
    exact items_distinct distinct key
  · refine (List.pairwise_map.mp gathered.once).imp_of_mem ?_
    rintro ⟨key, items⟩ ⟨other, others⟩ listed otherListed different item member otherMember
    obtain ⟨rfl, -⟩ := gathered.all_items key items listed
    obtain ⟨rfl, -⟩ := gathered.all_items other others otherListed
    exact different (key_of_item distinct member otherMember)

end Gathered

end Gather
