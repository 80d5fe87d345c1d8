import Mathlib.Data.List.Sort
import Mathlib.Data.List.TakeWhile
import PrimeRl.Support.Decimal

/-!
# Canonical JSON

Values are written without blanks and with the members of an object sorted by key.
A text is quoted as it is but for quotes, backslashes and control characters; any
character may also be written by the hexadecimal codes of its UTF-16 units.
-/

namespace Json

abbrev Text := List Char

def isNumberChar (letter : Char) : Bool :=
  letter.isDigit || letter ∈ ['-', '+', '.', 'e', 'E']

/-- The part of a number behind a mark, or nothing. -/
def digitsBehind (marks : List Char) (digits : Text → Bool) : Text → Bool
  | [] => true
  | mark :: rest => mark ∈ marks && digits rest

def allDigits (text : Text) : Bool := text ≠ [] && text.all Char.isDigit

def dropSign (signs : List Char) : Text → Text
  | [] => []
  | letter :: rest => if letter ∈ signs then rest else letter :: rest

/-- A sign, a whole number without superfluous zeros, a fraction and an exponent. -/
def isNumeral (text : Text) : Bool :=
  let unsigned := dropSign ['-'] text
  let whole := unsigned.takeWhile Char.isDigit
  let behind := unsigned.dropWhile Char.isDigit
  let isExponent := digitsBehind ['e', 'E'] (fun rest => allDigits (dropSign ['+', '-'] rest))
  text.all isNumberChar && whole ≠ [] && (whole.head? ≠ some '0' || whole.length = 1) &&
    (isExponent behind || digitsBehind ['.'] (fun rest =>
      rest.takeWhile Char.isDigit ≠ [] && isExponent (rest.dropWhile Char.isDigit)) behind)

/-- The writing of a number. -/
abbrev Numeral := { literal : Text // isNumeral literal }

/-- A value; numbers are compared as they are written. -/
inductive Value where
  | null
  | bool (value : Bool)
  | number (literal : Numeral)
  | str (text : Text)
  | arr (items : List Value)
  | obj (members : List (Text × Value))

theorem digits_are_digits (number : Nat) : ∀ digit ∈ Nat.toDigits 10 number, digit.isDigit = true :=
  fun _ member => Nat.isDigit_of_mem_toDigits (by decide) (by decide) member

theorem digits_number_chars (number : Nat) : (Nat.toDigits 10 number).all isNumberChar = true := by
  rw [List.all_eq_true]
  intro digit member
  simp [isNumberChar, digits_are_digits number digit member]

/-- A decimal, with or without a sign, is a numeral. -/
theorem decimal_numeral (number : Nat) (text : Text) (isText : dropSign ['-'] text = Nat.toDigits 10 number)
    (chars : text.all isNumberChar = true) : isNumeral text = true := by
  have digits := digits_are_digits number
  obtain ⟨nonempty, -, noZero⟩ := Decimal.canonical_toDigits number
  have whole : (Nat.toDigits 10 number).takeWhile Char.isDigit = Nat.toDigits 10 number :=
    List.takeWhile_eq_self_iff.mpr digits
  have behind : (Nat.toDigits 10 number).dropWhile Char.isDigit = [] :=
    List.dropWhile_eq_nil_iff.mpr digits
  have short : (Nat.toDigits 10 number).head? ≠ some '0' ∨ (Nat.toDigits 10 number).length = 1 := by
    by_cases zero : (Nat.toDigits 10 number).head? = some '0'
    · exact .inr (by rw [noZero zero]; rfl)
    · exact .inl zero
  simp only [isNumeral, isText, whole, behind, chars, digitsBehind, Bool.true_and, Bool.true_or,
    Bool.and_true, Bool.and_eq_true, Bool.or_eq_true, decide_eq_true_eq]
  exact ⟨nonempty, short⟩

theorem digits_unsigned (number : Nat) :
    dropSign ['-'] (Nat.toDigits 10 number) = Nat.toDigits 10 number := by
  obtain ⟨first, rest, isDigits⟩ := List.exists_cons_of_ne_nil
    (Nat.toDigits_ne_nil (n := number) (b := 10))
  have digit := digits_are_digits number first (by simp [isDigits])
  have unsigned : first ∉ ['-'] := by
    intro sign
    rw [List.mem_singleton.mp sign] at digit
    exact absurd digit (by decide)
  rw [isDigits, dropSign, if_neg unsigned]

/-- The writing of an integer. -/
def integer : Int → Numeral
  | .ofNat number =>
      ⟨_, decimal_numeral number _ (digits_unsigned number) (digits_number_chars number)⟩
  | .negSucc number => ⟨'-' :: Nat.toDigits 10 (number + 1), decimal_numeral (number + 1) _ rfl (by
      rw [List.all_cons, digits_number_chars, Bool.and_true]
      rfl)⟩

/-! ## Quoted texts -/

/-- Four hexadecimal digits of a unit. -/
def hexDigits (unit : Nat) : Text :=
  [unit / 4096 % 16, unit / 256 % 16, unit / 16 % 16, unit % 16].map Nat.digitChar

/-- The UTF-16 units of a character. -/
def units (letter : Char) : List Nat :=
  if letter.toNat < 0x10000 then [letter.toNat]
  else [0xD800 + (letter.toNat - 0x10000) / 1024, 0xDC00 + (letter.toNat - 0x10000) % 1024]

/-- A character by its units. -/
def unicodeChar (letter : Char) : Text :=
  (units letter).flatMap (fun unit => '\\' :: 'u' :: hexDigits unit)

/-- A character as the encoder writes it between quotes. -/
def plainChar (letter : Char) : Text :=
  if letter = '"' then ['\\', '"']
  else if letter = '\\' then ['\\', '\\']
  else if letter = '\x08' then ['\\', 'b']
  else if letter = '\x0c' then ['\\', 'f']
  else if letter = '\n' then ['\\', 'n']
  else if letter = '\r' then ['\\', 'r']
  else if letter = '\t' then ['\\', 't']
  else if letter.toNat < 32 then unicodeChar letter
  else [letter]

/-- A text between quotes. -/
def quote (text : Text) : Text := '"' :: text.flatMap plainChar ++ ['"']

def hexDigit (letter : Char) : Option Nat :=
  if '0' ≤ letter ∧ letter ≤ '9' then some (letter.toNat - '0'.toNat)
  else if 'a' ≤ letter ∧ letter ≤ 'f' then some (letter.toNat - 'a'.toNat + 10)
  else if 'A' ≤ letter ∧ letter ≤ 'F' then some (letter.toNat - 'A'.toNat + 10)
  else none

/-- The unit behind `\u`, and what follows it. -/
def readUnit : Text → Option (Nat × Text)
  | first :: second :: third :: fourth :: rest => do
      let first ← hexDigit first
      let second ← hexDigit second
      let third ← hexDigit third
      let fourth ← hexDigit fourth
      some (first * 4096 + second * 256 + third * 16 + fourth, rest)
  | _ => none

/-- The character of the units behind `\u`. A surrogate alone is no character. -/
def readUnicode (text : Text) : Option (Char × Text) := do
  let (unit, rest) ← readUnit text
  if 0xD800 ≤ unit ∧ unit < 0xDC00 then
    match rest with
    | '\\' :: 'u' :: rest => do
        let (second, rest) ← readUnit rest
        if 0xDC00 ≤ second ∧ second < 0xE000 then
          some (Char.ofNat (0x10000 + (unit - 0xD800) * 1024 + (second - 0xDC00)), rest)
        else none
    | _ => none
  else if 0xDC00 ≤ unit ∧ unit < 0xE000 then none
  else some (Char.ofNat unit, rest)

/-- One character between quotes, and what follows it. -/
def readChar : Text → Option (Char × Text)
  | [] => none
  | letter :: rest =>
      if letter = '\\' then
        match rest with
        | 'u' :: rest => readUnicode rest
        | '"' :: rest => some ('"', rest)
        | '\\' :: rest => some ('\\', rest)
        | '/' :: rest => some ('/', rest)
        | 'b' :: rest => some ('\x08', rest)
        | 'f' :: rest => some ('\x0c', rest)
        | 'n' :: rest => some ('\n', rest)
        | 'r' :: rest => some ('\r', rest)
        | 't' :: rest => some ('\t', rest)
        | _ => none
      else if letter = '"' ∨ letter.toNat < 32 then none
      else some (letter, rest)

/-- The text in front of the closing quote, and what follows the quote. Every character
    takes a step. -/
def readString : Nat → Text → Option (Text × Text)
  | _, '"' :: rest => some ([], rest)
  | 0, _ => none
  | steps + 1, text => do
      let (letter, rest) ← readChar text
      let (value, rest) ← readString steps rest
      some (letter :: value, rest)

/-! ## Values -/

/-- The order of texts by their characters. -/
def upTo (text other : Text) : Prop := ¬ other < text

instance (text other : Text) : Decidable (upTo text other) :=
  inferInstanceAs (Decidable (¬ other < text))

instance : Std.Total upTo := ⟨fun text other => List.le_total text other⟩

instance : IsTrans Text upTo := ⟨fun _ _ _ below above => List.le_trans below above⟩

theorem upTo_antisymm {text other : Text} (below : upTo text other) (above : upTo other text) :
    text = other :=
  List.le_antisymm below above

/-- Texts with a separator between them. -/
def separated : List Text → Text
  | [] => []
  | [text] => text
  | text :: rest => text ++ ',' :: separated rest

/-- Members in the order of their keys. -/
def sortMembers {Entry : Type} (members : List (Text × Entry)) : List (Text × Entry) :=
  members.insertionSort (fun member other => upTo member.1 other.1)

def writeMember (member : Text × Text) : Text := quote member.1 ++ ':' :: member.2

mutual
/-- The canonical text of a value. -/
def canonical : Value → Text
  | .null => "null".toList
  | .bool true => "true".toList
  | .bool false => "false".toList
  | .number literal => literal.1
  | .str text => quote text
  | .arr items => '[' :: separated (canonicalItems items) ++ [']']
  | .obj members =>
      '{' :: separated ((sortMembers (canonicalMembers members)).map writeMember) ++ ['}']
def canonicalItems : List Value → List Text
  | [] => []
  | item :: items => canonical item :: canonicalItems items
def canonicalMembers : List (Text × Value) → List (Text × Text)
  | [] => []
  | (key, value) :: members => (key, canonical value) :: canonicalMembers members
end

theorem canonical_items (items : List Value) : canonicalItems items = items.map canonical := by
  induction items with
  | nil => rw [canonicalItems, List.map_nil]
  | cons item items inductionHypothesis =>
    rw [canonicalItems, inductionHypothesis, List.map_cons]

theorem canonical_members (members : List (Text × Value)) :
    canonicalMembers members = members.map (fun member => (member.1, canonical member.2)) := by
  induction members with
  | nil => rw [canonicalMembers, List.map_nil]
  | cons member members inductionHypothesis =>
    rw [canonicalMembers, inductionHypothesis, List.map_cons]

end Json
