import Mathlib.Data.List.Basic
import Mathlib.Data.List.SplitLengths

/-!
# Columns and even cuts

A list of rows of one width is read by columns, and reading the columns of its
columns gives the rows back. A list is cut into blocks of one width, which its
concatenation undoes in both directions. Exchanges between ranks are made of
these two.
-/

namespace Exchange

universe u v
variable {Item : Type u} {Other : Type v}

/-! ## Columns -/

/-- Rows that all have one width. -/
def Rectangular (width : Nat) (rows : List (List Item)) : Prop := ∀ row ∈ rows, row.length = width

instance (width : Nat) (rows : List (List Item)) : Decidable (Rectangular width rows) :=
  inferInstanceAs (Decidable (∀ row ∈ rows, row.length = width))

/-- One item of each row that is long enough. -/
def column (rows : List (List Item)) (index : Nat) : List Item :=
  rows.filterMap (fun row => row[index]?)

def transpose (width : Nat) (rows : List (List Item)) : List (List Item) :=
  (List.range width).map (column rows)

theorem column_cons {rows : List (List Item)} {row : List Item} {item : Item} {index : Nat}
    (present : row[index]? = some item) :
    column (row :: rows) index = item :: column rows index := by
  simp only [column, List.filterMap_cons, present]

theorem mem_column {rows : List (List Item)} {index : Nat} {item : Item} :
    item ∈ column rows index ↔ ∃ row ∈ rows, row[index]? = some item := List.mem_filterMap

theorem column_map (rows : List Other) (change : Other → List Item) (value : Other → Item)
    (index : Nat) (read : ∀ row ∈ rows, (change row)[index]? = some (value row)) :
    column (rows.map change) index = rows.map value := by
  induction rows with
  | nil => rfl
  | cons row rows inductionHypothesis =>
    obtain ⟨here, others⟩ := List.forall_mem_cons.mp read
    rw [List.map_cons, column_cons here, inductionHypothesis others, List.map_cons]

/-- A column inside the width has an item of every row. -/
theorem column_get {width index : Nat} {rows : List (List Item)} (even : Rectangular width rows)
    (inside : index < width) (place : Nat) :
    (column rows index)[place]? = rows[place]?.bind (fun row => row[index]?) := by
  induction rows generalizing place with
  | nil => rfl
  | cons row rows inductionHypothesis =>
    obtain ⟨here, others⟩ := List.forall_mem_cons.mp even
    have present : row[index]? = some row[index] := List.getElem?_eq_getElem (here ▸ inside)
    rw [column_cons present]
    cases place with
    | zero => exact present.symm
    | succ place => exact inductionHypothesis others place

theorem column_length {width index : Nat} {rows : List (List Item)}
    (even : Rectangular width rows) (inside : index < width) :
    (column rows index).length = rows.length := by
  induction rows with
  | nil => rfl
  | cons row rows inductionHypothesis =>
    obtain ⟨here, others⟩ := List.forall_mem_cons.mp even
    have present : row[index]? = some row[index] := List.getElem?_eq_getElem (here ▸ inside)
    rw [column_cons present, List.length_cons, List.length_cons, inductionHypothesis others]

theorem transpose_get {width index : Nat} (rows : List (List Item)) (inside : index < width) :
    (transpose width rows)[index]? = some (column rows index) := by
  rw [transpose, List.getElem?_map, List.getElem?_range inside, Option.map_some]

theorem transpose_length (width : Nat) (rows : List (List Item)) :
    (transpose width rows).length = width := by
  rw [transpose, List.length_map, List.length_range]

theorem transpose_even {width : Nat} {rows : List (List Item)} (even : Rectangular width rows) :
    Rectangular rows.length (transpose width rows) := by
  intro line member
  obtain ⟨index, inside, rfl⟩ := List.mem_map.mp member
  exact column_length even (List.mem_range.mp inside)

/-- A column of the columns is a row. -/
theorem column_transpose {width : Nat} {rows : List (List Item)} (even : Rectangular width rows)
    (place : Nat) (row : List Item) (listed : rows[place]? = some row) :
    column (transpose width rows) place = row := by
  have present : ∀ index ∈ List.range width, (column rows index)[place]? = row[index]? := by
    intro index inside
    rw [column_get even (List.mem_range.mp inside), listed]
    rfl
  have count : row.length = width := even row (List.mem_of_getElem? listed)
  apply List.ext_getElem?
  intro index
  by_cases inside : index < width
  · have turned := transpose_even even
    have within : place < rows.length := (List.getElem?_eq_some_iff.mp listed).1
    rw [column_get turned within, transpose_get rows inside]
    exact present index (List.mem_range.mpr inside)
  · have within : place < rows.length := (List.getElem?_eq_some_iff.mp listed).1
    have short := column_length (transpose_even even) within
    rw [transpose_length] at short
    rw [List.getElem?_eq_none (by omega), List.getElem?_eq_none (by omega)]

/-- The columns of the columns are the rows. -/
theorem transpose_transpose {width : Nat} {rows : List (List Item)}
    (even : Rectangular width rows) : transpose rows.length (transpose width rows) = rows := by
  apply List.ext_getElem?
  intro place
  by_cases inside : place < rows.length
  · have listed := List.getElem?_eq_getElem inside
    rw [transpose_get _ inside, column_transpose even place rows[place] listed, listed]
  · rw [List.getElem?_eq_none (by rw [transpose_length]; omega),
      List.getElem?_eq_none (by omega)]

/-! ## Even cuts -/

/-- Blocks of one width from the start. -/
def cut (count width : Nat) (items : List Item) : List (List Item) :=
  (List.replicate count width).splitLengths items

theorem cut_succ (count width : Nat) (items : List Item) :
    cut (count + 1) width items = items.take width :: cut count width (items.drop width) := by
  rw [cut, List.replicate_succ, List.splitLengths_cons]
  rfl

theorem cut_length (count width : Nat) (items : List Item) :
    (cut count width items).length = count := by
  rw [cut, List.length_splitLengths, List.length_replicate]

theorem cut_even {count width : Nat} {items : List Item} (whole : items.length = count * width) :
    Rectangular width (cut count width items) := by
  intro block member
  have lengths := List.map_splitLengths_length items (List.replicate count width)
    (by rw [List.sum_replicate_nat, whole])
  have listed := List.mem_map_of_mem (f := List.length) member
  rw [cut, lengths] at listed
  exact List.eq_of_mem_replicate listed

theorem cut_flatten {count width : Nat} {items : List Item} (whole : items.length = count * width) :
    (cut count width items).flatten = items :=
  List.flatten_splitLengths items _ (by rw [List.sum_replicate_nat, whole])

/-- Blocks of one width are what their concatenation is cut into. -/
theorem cut_of_flatten {width : Nat} {blocks : List (List Item)} (even : Rectangular width blocks) :
    cut blocks.length width blocks.flatten = blocks := by
  induction blocks with
  | nil => rfl
  | cons block blocks inductionHypothesis =>
    obtain ⟨here, others⟩ := List.forall_mem_cons.mp even
    rw [List.length_cons, cut_succ, List.flatten_cons, ← here, List.take_left, List.drop_left, here,
      inductionHypothesis others]

/-- Block `index` starts behind so many widths. -/
theorem cut_get {count width index : Nat} (items : List Item) (inside : index < count) :
    (cut count width items)[index]? = some ((items.drop (index * width)).take width) := by
  induction count generalizing items index with
  | zero => exact absurd inside (Nat.not_lt_zero index)
  | succ count inductionHypothesis =>
    rw [cut_succ]
    cases index with
    | zero => rw [List.getElem?_cons_zero, Nat.zero_mul, List.drop_zero]
    | succ index =>
      rw [List.getElem?_cons_succ, inductionHypothesis _ (Nat.lt_of_succ_lt_succ inside),
        List.drop_drop, Nat.succ_mul, Nat.add_comm width]

theorem flatten_length {width : Nat} {rows : List (List Item)} (even : Rectangular width rows) :
    rows.flatten.length = rows.length * width := by
  rw [List.length_flatten, List.map_congr_left even, List.map_const', List.sum_replicate_nat]

/-- An item of the concatenation is an item of one of the rows. -/
theorem flatten_get {width offset : Nat} {rows : List (List Item)} (even : Rectangular width rows)
    (place : Nat) (inside : offset < width) :
    rows.flatten[place * width + offset]? = rows[place]?.bind (fun row => row[offset]?) := by
  induction rows generalizing place with
  | nil => rfl
  | cons row rows inductionHypothesis =>
    obtain ⟨here, others⟩ := List.forall_mem_cons.mp even
    rw [List.flatten_cons]
    cases place with
    | zero =>
      rw [Nat.zero_mul, Nat.zero_add, List.getElem?_append_left (by omega)]
      rfl
    | succ place =>
      have later : (place + 1) * width + offset = row.length + (place * width + offset) := by
        rw [here, Nat.succ_mul]
        omega
      rw [later, List.getElem?_append_right (Nat.le_add_right _ _), Nat.add_sub_cancel_left,
        inductionHypothesis others, List.getElem?_cons_succ]

end Exchange
