/-!
# Codecs

A codec writes items as bytes and reads an item from the front of bytes, with what
follows it left. Codecs of parts make up those of pairs, of counted lists and of what a
part stands for.
-/

structure Codec (Item : Type) where
  write : Item → List UInt8
  read : List UInt8 → Option (Item × List UInt8)
  read_write : ∀ item rest, read (write item ++ rest) = some (item, rest)

namespace Codec

variable {Item First Second : Type}

/-- The digits of a number to base 128, lowest first, all but the last marked. There are
    at most as many as the number of steps. -/
def writeDigits : Nat → Nat → List UInt8
  | 0, _ => []
  | steps + 1, number =>
      if number < 128 then [UInt8.ofNat number]
      else UInt8.ofNat (128 + number % 128) :: writeDigits steps (number / 128)

def readDigits : List UInt8 → Option (Nat × List UInt8)
  | [] => none
  | byte :: rest =>
      if byte.toNat < 128 then some (byte.toNat, rest)
      else (readDigits rest).map (fun found => (byte.toNat - 128 + 128 * found.1, found.2))

theorem read_digits (steps number : Nat) (enough : number < steps) (rest : List UInt8) :
    readDigits (writeDigits steps number ++ rest) = some (number, rest) := by
  induction steps generalizing number with
  | zero => exact absurd enough (Nat.not_lt_zero number)
  | succ steps inductionHypothesis =>
    rw [writeDigits]
    split
    · next small =>
      have byte : (UInt8.ofNat number).toNat = number := by
        rw [UInt8.toNat_ofNat']
        omega
      rw [List.singleton_append, readDigits, byte, if_pos small]
    · next large =>
      have byte : (UInt8.ofNat (128 + number % 128)).toNat = 128 + number % 128 := by
        rw [UInt8.toNat_ofNat']
        omega
      have value : 128 + number % 128 - 128 + 128 * (number / 128) = number := by omega
      rw [List.cons_append, readDigits, byte, if_neg (by omega),
        inductionHypothesis (number / 128) (by omega), Option.map_some, value]

def natural : Codec Nat where
  write number := writeDigits (number + 1) number
  read := readDigits
  read_write number rest := read_digits (number + 1) number (Nat.lt_succ_self number) rest

/-- A part and then another. -/
def pair (first : Codec First) (second : Codec Second) : Codec (First × Second) where
  write item := first.write item.1 ++ second.write item.2
  read bytes := do
    let (one, bytes) ← first.read bytes
    let (other, bytes) ← second.read bytes
    some ((one, other), bytes)
  read_write item rest := by
    simp only [List.append_assoc, first.read_write, second.read_write, Option.bind_eq_bind,
      Option.bind_some]

def readItems (item : Codec Item) : Nat → List UInt8 → Option (List Item × List UInt8)
  | 0, bytes => some ([], bytes)
  | count + 1, bytes => do
      let (one, bytes) ← item.read bytes
      let (others, bytes) ← readItems item count bytes
      some (one :: others, bytes)

theorem read_items (item : Codec Item) (items : List Item) (rest : List UInt8) :
    readItems item items.length (items.flatMap item.write ++ rest) = some (items, rest) := by
  induction items with
  | nil => rfl
  | cons one items inductionHypothesis =>
    simp only [List.length_cons, readItems, List.flatMap_cons, List.append_assoc, item.read_write,
      Option.bind_eq_bind, Option.bind_some, inductionHypothesis]

/-- Items behind their count. -/
def list (item : Codec Item) : Codec (List Item) where
  write items := natural.write items.length ++ items.flatMap item.write
  read bytes := do
    let (count, bytes) ← natural.read bytes
    readItems item count bytes
  read_write items rest := by
    simp only [List.append_assoc, natural.read_write, read_items, Option.bind_eq_bind,
      Option.bind_some]

/-- What a part stands for. -/
def standing (part : Codec First) (code : Item → First) (decode : First → Option Item)
    (decode_code : ∀ item, decode (code item) = some item) : Codec Item where
  write item := part.write (code item)
  read bytes := do
    let (one, bytes) ← part.read bytes
    let item ← decode one
    some (item, bytes)
  read_write item rest := by
    simp only [part.read_write, decode_code, Option.bind_eq_bind, Option.bind_some]

def letter : Codec Char :=
  natural.standing Char.toNat (fun number => some (Char.ofNat number))
    (fun letter => congrArg some (Char.ofNat_toNat letter))

/-- The item that is all of the bytes. -/
def readAll (item : Codec Item) (bytes : List UInt8) : Option Item :=
  match item.read bytes with
  | some (one, []) => some one
  | _ => none

theorem read_all (item : Codec Item) (one : Item) : item.readAll (item.write one) = some one := by
  have read := item.read_write one []
  rw [List.append_nil] at read
  rw [readAll, read]

end Codec
