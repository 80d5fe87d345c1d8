import Mathlib.Algebra.Ring.Int.Defs
import Mathlib.Algebra.Ring.Nat
import PrimeRl.Support.LittleEndian

/-!
# MessagePack

Numbers, texts, arrays and maps are written with the shortest header that holds their
value or their count. A value that no header holds is not written.
-/

namespace MessagePack

universe u
variable {Item : Type u}

def bigEndian (width value : Nat) : List UInt8 := (LittleEndian.bytes width value).reverse

/-- An unsigned integer. -/
def natural (value : Nat) : Option (List UInt8) :=
  if value < 2 ^ 7 then some [UInt8.ofNat value]
  else if value < 2 ^ 8 then some (0xcc :: bigEndian 1 value)
  else if value < 2 ^ 16 then some (0xcd :: bigEndian 2 value)
  else if value < 2 ^ 32 then some (0xce :: bigEndian 4 value)
  else if value < 2 ^ 64 then some (0xcf :: bigEndian 8 value)
  else none

def arrayHeader (count : Nat) : Option (List UInt8) :=
  if count < 2 ^ 4 then some [UInt8.ofNat (0x90 + count)]
  else if count < 2 ^ 16 then some (0xdc :: bigEndian 2 count)
  else if count < 2 ^ 32 then some (0xdd :: bigEndian 4 count)
  else none

def mapHeader (count : Nat) : Option (List UInt8) :=
  if count < 2 ^ 4 then some [UInt8.ofNat (0x80 + count)]
  else if count < 2 ^ 16 then some (0xde :: bigEndian 2 count)
  else if count < 2 ^ 32 then some (0xdf :: bigEndian 4 count)
  else none

/-- A text, given by the bytes that encode it. -/
def text (contents : List UInt8) : Option (List UInt8) :=
  let count := contents.length
  if count < 2 ^ 5 then some (UInt8.ofNat (0xa0 + count) :: contents)
  else if count < 2 ^ 8 then some (0xd9 :: bigEndian 1 count ++ contents)
  else if count < 2 ^ 16 then some (0xda :: bigEndian 2 count ++ contents)
  else if count < 2 ^ 32 then some (0xdb :: bigEndian 4 count ++ contents)
  else none

/-- Items one after the other. -/
def concat (encode : Item → Option (List UInt8)) : List Item → Option (List UInt8)
  | [] => some []
  | item :: rest =>
    (encode item).bind fun written => (concat encode rest).map fun later => written ++ later

def array (encode : Item → Option (List UInt8)) (items : List Item) : Option (List UInt8) :=
  (arrayHeader items.length).bind fun header => (concat encode items).map fun body => header ++ body

theorem big_endian_length (width value : Nat) : (bigEndian width value).length = width := by
  rw [bigEndian, List.length_reverse, LittleEndian.bytes_length]

/-! ## Sizes -/

/-- How many bytes an integer takes. -/
def naturalWidth (value : Nat) : Nat :=
  if value < 2 ^ 7 then 1
  else if value < 2 ^ 8 then 2
  else if value < 2 ^ 16 then 3
  else if value < 2 ^ 32 then 5
  else 9

theorem natural_length {value : Nat} {written : List UInt8} (encoded : natural value = some written) :
    written.length = naturalWidth value := by
  rw [natural] at encoded
  rw [naturalWidth]
  split_ifs at encoded ⊢
  all_goals
    cases encoded
    simp [big_endian_length]

/-- A larger integer takes no fewer bytes. -/
theorem natural_width_mono {smaller larger : Nat} (ordered : smaller ≤ larger) :
    naturalWidth smaller ≤ naturalWidth larger := by
  simp only [naturalWidth]
  split_ifs
  all_goals omega

theorem natural_encodes {value : Nat} (small : value < 2 ^ 64) :
    ∃ written, natural value = some written := by
  rw [natural]
  split_ifs
  all_goals exact ⟨_, rfl⟩

/-- The header of an array takes at most five bytes, and no more than the array has items. -/
theorem array_header_length {count : Nat} {header : List UInt8}
    (encoded : arrayHeader count = some header) :
    header.length ≤ 5 ∧ (0 < count → header.length ≤ count) := by
  rw [arrayHeader] at encoded
  split_ifs at encoded with few some many
  · cases encoded
    exact ⟨Nat.le_add_left 1 4, fun positive => positive⟩
  · cases encoded
    simp only [List.length_cons, big_endian_length]
    omega
  · cases encoded
    simp only [List.length_cons, big_endian_length]
    omega

theorem array_header_encodes {count : Nat} (small : count < 2 ^ 32) :
    ∃ header, arrayHeader count = some header := by
  rw [arrayHeader]
  split_ifs
  all_goals exact ⟨_, rfl⟩

/-- Items of bounded sizes take at most the sum of the bounds. -/
theorem concat_length {encode : Item → Option (List UInt8)} {bound : Item → Nat} {items : List Item}
    (each : ∀ item ∈ items, ∀ written, encode item = some written → written.length ≤ bound item)
    {written : List UInt8} (encoded : concat encode items = some written) :
    written.length ≤ (items.map bound).sum := by
  induction items generalizing written with
  | nil =>
    obtain rfl := Option.some.inj encoded
    exact Nat.le_refl 0
  | cons item rest inductionHypothesis =>
    obtain ⟨here, later⟩ := List.forall_mem_cons.mp each
    rw [concat, Option.bind_eq_some_iff] at encoded
    obtain ⟨first, isFirst, remaining⟩ := encoded
    obtain ⟨others, areOthers, rfl⟩ := Option.map_eq_some_iff.mp remaining
    have firstBound := here first isFirst
    have othersBound := inductionHypothesis later areOthers
    rw [List.length_append, List.map_cons, List.sum_cons]
    exact Nat.add_le_add firstBound othersBound

theorem concat_encodes {encode : Item → Option (List UInt8)} {items : List Item}
    (each : ∀ item ∈ items, ∃ written, encode item = some written) :
    ∃ written, concat encode items = some written := by
  induction items with
  | nil => exact ⟨[], rfl⟩
  | cons item rest inductionHypothesis =>
    obtain ⟨⟨first, isFirst⟩, later⟩ := List.forall_mem_cons.mp each
    obtain ⟨others, areOthers⟩ := inductionHypothesis later
    exact ⟨first ++ others, by rw [concat, isFirst, areOthers]; rfl⟩

/-- An array is its header and its items. -/
theorem array_eq_some_iff {encode : Item → Option (List UInt8)} {items : List Item}
    {written : List UInt8} : array encode items = some written ↔
      ∃ header body, arrayHeader items.length = some header ∧ concat encode items = some body ∧
        header ++ body = written := by
  simp only [array, Option.bind_eq_some_iff, Option.map_eq_some_iff, exists_and_left]

end MessagePack
