import PrimeRl.Support.Json

/-!
# Reading JSON

A character is read back from each of its writings between quotes, so a text is read
back from every mixture of them. A value is written as chunks: its texts between quotes,
and letters that are no quotes.
-/

namespace Json

/-! ## Characters -/

theorem hexDigit_digitChar {digit : Nat} (small : digit < 16) :
    hexDigit (Nat.digitChar digit) = some digit := by
  have each : ∀ digit : Fin 16, hexDigit (Nat.digitChar digit) = some digit.val := by decide
  exact each ⟨digit, small⟩

theorem readUnit_hexDigits {unit : Nat} (small : unit < 0x10000) (rest : Text) :
    readUnit (hexDigits unit ++ rest) = some (unit, rest) := by
  have below (number : Nat) : number % 16 < 16 := Nat.mod_lt number (by decide)
  have value : unit / 4096 % 16 * 4096 + unit / 256 % 16 * 256 + unit / 16 % 16 * 16 + unit % 16 =
      unit := by omega
  simp only [hexDigits, List.map_cons, List.map_nil, List.cons_append, List.nil_append, readUnit,
    hexDigit_digitChar (below _), Option.bind_eq_bind, Option.bind_some, value]

theorem readChar_unicode (rest : Text) : readChar ('\\' :: 'u' :: rest) = readUnicode rest := by
  simp [readChar]

theorem readUnicode_basic {unit : Nat} (small : unit < 0x10000)
    (whole : ¬ (0xD800 ≤ unit ∧ unit < 0xE000)) (rest : Text) :
    readUnicode (hexDigits unit ++ rest) = some (Char.ofNat unit, rest) := by
  rw [readUnicode, readUnit_hexDigits small, Option.bind_eq_bind, Option.bind_some]
  dsimp only
  rw [if_neg (by omega), if_neg (by omega)]

theorem readUnicode_pair {unit second : Nat} (high : 0xD800 ≤ unit ∧ unit < 0xDC00)
    (low : 0xDC00 ≤ second ∧ second < 0xE000) (rest : Text) :
    readUnicode (hexDigits unit ++ '\\' :: 'u' :: hexDigits second ++ rest) =
      some (Char.ofNat (0x10000 + (unit - 0xD800) * 1024 + (second - 0xDC00)), rest) := by
  rw [readUnicode, List.append_assoc, readUnit_hexDigits (by omega), Option.bind_eq_bind,
    Option.bind_some]
  simp only [List.cons_append]
  rw [if_pos high, readUnit_hexDigits (by omega), Option.bind_some]
  dsimp only
  rw [if_pos low]

theorem readChar_unicodeChar (letter : Char) (rest : Text) :
    readChar (unicodeChar letter ++ rest) = some (letter, rest) := by
  have valid : letter.toNat < 0xD800 ∨ 0xDFFF < letter.toNat ∧ letter.toNat < 0x110000 := letter.valid
  rw [unicodeChar, units]
  split
  · next basic =>
    rw [List.flatMap_singleton, List.cons_append, List.cons_append, readChar_unicode,
      readUnicode_basic basic (by omega), Char.ofNat_toNat]
  · next beyond =>
    rw [List.flatMap_cons, List.flatMap_singleton, List.cons_append, List.cons_append,
      List.cons_append, List.cons_append, readChar_unicode,
      readUnicode_pair (by omega) (by omega)]
    have value : 0x10000 + (0xD800 + (letter.toNat - 0x10000) / 1024 - 0xD800) * 1024 +
        (0xDC00 + (letter.toNat - 0x10000) % 1024 - 0xDC00) = letter.toNat := by omega
    rw [value, Char.ofNat_toNat]

theorem readChar_plainChar (letter : Char) (rest : Text) :
    readChar (plainChar letter ++ rest) = some (letter, rest) := by
  rw [plainChar]
  split
  · next isLetter => simp [readChar, isLetter]
  split
  · next isLetter => simp [readChar, isLetter]
  split
  · next isLetter => simp [readChar, isLetter]
  split
  · next isLetter => simp [readChar, isLetter]
  split
  · next isLetter => simp [readChar, isLetter]
  split
  · next isLetter => simp [readChar, isLetter]
  split
  · next isLetter => simp [readChar, isLetter]
  split
  · exact readChar_unicodeChar letter rest
  · next quote backslash _ _ _ _ _ printable =>
    simp [readChar, quote, backslash, printable]

/-! ## Quoted texts -/

/-- A character by its units where it is marked, and as the encoder writes it elsewhere. -/
def writeCell (cell : Char × Bool) : Text :=
  if cell.2 then unicodeChar cell.1 else plainChar cell.1

theorem readChar_cell (cell : Char × Bool) (rest : Text) :
    readChar (writeCell cell ++ rest) = some (cell.1, rest) := by
  rw [writeCell]
  split
  · exact readChar_unicodeChar cell.1 rest
  · exact readChar_plainChar cell.1 rest

/-- No character begins with the closing quote. -/
theorem readString_step {written rest : Text} {letter : Char} (steps : Nat)
    (isChar : readChar (written ++ rest) = some (letter, rest)) :
    readString (steps + 1) (written ++ rest) =
      (readString steps rest).map (fun found => (letter :: found.1, found.2)) := by
  rw [readString.eq_def]
  split
  · next isQuote =>
    rw [isQuote] at isChar
    simp [readChar] at isChar
  · next impossible _ => simp at impossible
  · next fewer isSteps _ =>
    obtain rfl : steps = fewer := Nat.succ.inj isSteps
    rw [isChar, Option.bind_eq_bind, Option.bind_some]
    dsimp only
    cases readString steps rest with
    | none => rfl
    | some found => rfl

theorem readString_cells (cells : List (Char × Bool)) (rest : Text) (steps : Nat)
    (enough : cells.length ≤ steps) :
    readString steps (cells.flatMap writeCell ++ '"' :: rest) = some (cells.map Prod.fst, rest) := by
  induction cells generalizing steps with
  | nil => simp [readString]
  | cons cell cells inductionHypothesis =>
    obtain ⟨fewer, rfl⟩ : ∃ fewer, steps = fewer + 1 := ⟨steps - 1, by simp at enough; omega⟩
    rw [List.flatMap_cons, List.append_assoc, readString_step fewer (readChar_cell cell _),
      inductionHypothesis fewer (by simpa using enough)]
    rfl

theorem cell_nonempty (cell : Char × Bool) : writeCell cell ≠ [] := by
  intro empty
  have read := readChar_cell cell []
  rw [empty] at read
  simp [readChar] at read

theorem cells_length (cells : List (Char × Bool)) :
    cells.length ≤ (cells.flatMap writeCell).length := by
  induction cells with
  | nil => exact Nat.le_refl 0
  | cons cell cells inductionHypothesis =>
    have filled := List.length_pos_of_ne_nil (cell_nonempty cell)
    rw [List.flatMap_cons, List.length_append, List.length_cons]
    omega

/-- The encoder marks no character. -/
theorem plain_cells (text : Text) :
    text.flatMap plainChar = (text.map (fun letter => (letter, false))).flatMap writeCell := by
  rw [List.flatMap_map]
  rfl

theorem plain_letters (text : Text) : (text.map (fun letter => (letter, false))).map Prod.fst = text := by
  simp [Function.comp_def]

/-! ## Chunks -/

inductive Chunk where
  | bare (text : Text)
  | quoted (text : Text)

def Chunk.write (quoting : Text → Text) : Chunk → Text
  | .bare text => text
  | .quoted text => quoting text

def writeChunks (quoting : Text → Text) (chunks : List Chunk) : Text :=
  chunks.flatMap (Chunk.write quoting)

def separatedChunks : List (List Chunk) → List Chunk
  | [] => []
  | [chunks] => chunks
  | chunks :: rest => chunks ++ .bare [','] :: separatedChunks rest

def memberChunks (member : Text × List Chunk) : List Chunk :=
  .quoted member.1 :: .bare [':'] :: member.2

mutual
/-- The chunks of the canonical text of a value. -/
def chunks : Value → List Chunk
  | .null => [.bare "null".toList]
  | .bool true => [.bare "true".toList]
  | .bool false => [.bare "false".toList]
  | .number literal => [.bare literal.1]
  | .str text => [.quoted text]
  | .arr items => .bare ['['] :: (separatedChunks (chunksItems items) ++ [.bare [']']])
  | .obj members =>
      .bare ['{'] :: (separatedChunks ((sortMembers (chunksMembers members)).map memberChunks) ++
        [.bare ['}']])
def chunksItems : List Value → List (List Chunk)
  | [] => []
  | item :: items => chunks item :: chunksItems items
def chunksMembers : List (Text × Value) → List (Text × List Chunk)
  | [] => []
  | (key, value) :: members => (key, chunks value) :: chunksMembers members
end

/-- The order of members is that of their keys, whatever their values are. -/
theorem sort_members_map {Entry Image : Type} (image : Entry → Image) (members : List (Text × Entry)) :
    sortMembers (members.map (fun member => (member.1, image member.2))) =
      (sortMembers members).map (fun member => (member.1, image member.2)) := by
  rw [sortMembers, sortMembers]
  exact (List.map_insertionSort
    (fun member other : Text × Entry => upTo member.1 other.1)
    (fun member other : Text × Image => upTo member.1 other.1)
    (fun member : Text × Entry => (member.1, image member.2)) members
    (fun _ _ _ _ => Iff.rfl)).symm

theorem write_separated (quoting : Text → Text) (items : List (List Chunk)) :
    writeChunks quoting (separatedChunks items) = separated (items.map (writeChunks quoting)) := by
  induction items using separatedChunks.induct with
  | case1 => rfl
  | case2 chunks => rfl
  | case3 chunks rest more inductionHypothesis =>
    rw [separatedChunks, List.map_cons, separated, ← inductionHypothesis]
    · simp [writeChunks, Chunk.write]
    · simpa using more
    · exact more

mutual
theorem canonical_chunks : ∀ value, canonical value = writeChunks quote (chunks value)
  | .null => by simp [canonical, chunks, writeChunks, Chunk.write]
  | .bool true => by simp [canonical, chunks, writeChunks, Chunk.write]
  | .bool false => by simp [canonical, chunks, writeChunks, Chunk.write]
  | .number literal => by simp [canonical, chunks, writeChunks, Chunk.write]
  | .str text => by simp [canonical, chunks, writeChunks, Chunk.write]
  | .arr items => by
    rw [canonical, chunks, canonical_items_chunks items, ← write_separated]
    simp [writeChunks, Chunk.write]
  | .obj members => by
    have sorted : sortMembers (canonicalMembers members) =
        (sortMembers (chunksMembers members)).map
          (fun member => (member.1, writeChunks quote member.2)) := by
      rw [canonical_members_chunks members, sort_members_map]
    rw [canonical, chunks, sorted, List.map_map]
    have members : (writeMember ∘ fun member : Text × List Chunk =>
        (member.1, writeChunks quote member.2)) = writeChunks quote ∘ memberChunks := by
      funext member
      simp [writeMember, memberChunks, writeChunks, Chunk.write]
    rw [members, ← List.map_map, ← write_separated]
    simp [writeChunks, Chunk.write]
theorem canonical_items_chunks :
    ∀ items, canonicalItems items = (chunksItems items).map (writeChunks quote)
  | [] => by rw [canonicalItems, chunksItems, List.map_nil]
  | item :: items => by
    rw [canonicalItems, chunksItems, List.map_cons, canonical_chunks item,
      canonical_items_chunks items]
theorem canonical_members_chunks :
    ∀ members, canonicalMembers members =
      (chunksMembers members).map (fun member => (member.1, writeChunks quote member.2))
  | [] => by rw [canonicalMembers, chunksMembers, List.map_nil]
  | (key, value) :: members => by
    rw [canonicalMembers, chunksMembers, List.map_cons, canonical_chunks value,
      canonical_members_chunks members]
end

/-! ## Letters outside texts -/

/-- Letters of marks, names and numbers. -/
def isBare (letter : Char) : Bool :=
  isNumberChar letter || letter ∈ ['{', '}', '[', ']', ',', ':'] ||
    letter ∈ ['n', 'u', 'l', 't', 'r', 'e', 'f', 'a', 's']

/-- A text between quotes, or letters that need none. -/
def Chunk.Bare : Chunk → Prop
  | .bare text => text.all isBare = true
  | .quoted _ => True

theorem numeral_bare (literal : Numeral) : literal.1.all isBare = true := by
  have numeral := literal.2
  simp only [isNumeral, Bool.and_eq_true] at numeral
  rw [List.all_eq_true] at numeral ⊢
  intro letter member
  simp [isBare, numeral.1.1.1 letter member]

theorem separated_bare {items : List (List Chunk)}
    (each : ∀ item ∈ items, ∀ chunk ∈ item, chunk.Bare) :
    ∀ chunk ∈ separatedChunks items, chunk.Bare := by
  induction items using separatedChunks.induct with
  | case1 => simp [separatedChunks]
  | case2 item => simpa [separatedChunks] using each
  | case3 item rest more inductionHypothesis =>
    obtain ⟨here, later⟩ := List.forall_mem_cons.mp each
    rw [separatedChunks]
    · intro chunk member
      rcases List.mem_append.mp member with inItem | behind
      · exact here chunk inItem
      · rcases List.mem_cons.mp behind with rfl | inRest
        · rfl
        · exact inductionHypothesis later chunk inRest
    · exact more

/-- Chunks in brackets are bare when those inside are. -/
theorem bracketed_bare {first last : Char} {inside : List Chunk} (isFirst : isBare first = true)
    (isLast : isBare last = true) (each : ∀ chunk ∈ inside, chunk.Bare) :
    ∀ chunk ∈ .bare [first] :: (inside ++ [.bare [last]]), chunk.Bare := by
  intro chunk member
  rcases List.mem_cons.mp member with rfl | behind
  · simpa [Chunk.Bare] using isFirst
  · rcases List.mem_append.mp behind with inInside | atEnd
    · exact each chunk inInside
    · rw [List.mem_singleton.mp atEnd]
      simpa [Chunk.Bare] using isLast

mutual
theorem chunks_bare : ∀ value, ∀ chunk ∈ chunks value, chunk.Bare
  | .null => by simp [chunks, Chunk.Bare, isBare]
  | .bool true => by simp [chunks, Chunk.Bare, isBare]
  | .bool false => by simp [chunks, Chunk.Bare, isBare]
  | .number literal => by simpa [chunks, Chunk.Bare] using numeral_bare literal
  | .str text => by simp [chunks, Chunk.Bare]
  | .arr items => by
    rw [chunks]
    exact bracketed_bare rfl rfl (separated_bare (chunks_items_bare items))
  | .obj members => by
    rw [chunks]
    refine bracketed_bare rfl rfl (separated_bare (List.forall_mem_map.mpr ?_))
    intro member listed
    have each := chunks_members_bare members member (by simpa [sortMembers] using listed)
    intro chunk inside
    rcases List.mem_cons.mp inside with rfl | behind
    · trivial
    · rcases List.mem_cons.mp behind with rfl | inValue
      · rfl
      · exact each chunk inValue
theorem chunks_items_bare : ∀ items, ∀ item ∈ chunksItems items, ∀ chunk ∈ item, chunk.Bare
  | [] => by simp [chunksItems]
  | item :: items => by
    rw [chunksItems]
    exact List.forall_mem_cons.mpr ⟨chunks_bare item, chunks_items_bare items⟩
theorem chunks_members_bare :
    ∀ members, ∀ member ∈ chunksMembers members, ∀ chunk ∈ member.2, chunk.Bare
  | [] => by simp [chunksMembers]
  | (key, value) :: members => by
    rw [chunksMembers]
    exact List.forall_mem_cons.mpr ⟨chunks_bare value, chunks_members_bare members⟩
end

/-! ## Values -/

def isBlank (letter : Char) : Bool := letter ∈ [' ', '\t', '\n', '\r']

def skipBlanks (text : Text) : Text := text.dropWhile isBlank

/-- A name, or the longest number in front. -/
def readWord (text : Text) : Option (Value × Text) :=
  match text with
  | 'n' :: 'u' :: 'l' :: 'l' :: rest => some (.null, rest)
  | 't' :: 'r' :: 'u' :: 'e' :: rest => some (.bool true, rest)
  | 'f' :: 'a' :: 'l' :: 's' :: 'e' :: rest => some (.bool false, rest)
  | text =>
      if numeral : isNumeral (text.takeWhile isNumberChar) then
        some (.number ⟨text.takeWhile isNumberChar, numeral⟩, text.dropWhile isNumberChar)
      else none

mutual
/-- The value in front, and what follows it. An object is read as its pairs. -/
def readValue : Nat → Text → Option (Value × Text)
  | 0, _ => none
  | steps + 1, text =>
      match skipBlanks text with
      | [] => none
      | letter :: rest =>
          if letter = '"' then
            (readString rest.length rest).map (fun found => (.str found.1, found.2))
          else if letter = '[' then
            match skipBlanks rest with
            | ']' :: rest => some (.arr [], rest)
            | rest => (readItems steps rest).map (fun found => (.arr found.1, found.2))
          else if letter = '{' then
            match skipBlanks rest with
            | '}' :: rest => some (.obj [], rest)
            | rest => (readMembers steps rest).map (fun found => (.obj found.1, found.2))
          else readWord (letter :: rest)
def readItems : Nat → Text → Option (List Value × Text)
  | 0, _ => none
  | steps + 1, text => do
      let (item, rest) ← readValue steps text
      match skipBlanks rest with
      | ',' :: rest => do
          let (items, rest) ← readItems steps rest
          some (item :: items, rest)
      | ']' :: rest => some ([item], rest)
      | _ => none
def readMembers : Nat → Text → Option (List (Text × Value) × Text)
  | 0, _ => none
  | steps + 1, text =>
      match skipBlanks text with
      | '"' :: rest => do
          let (key, rest) ← readString rest.length rest
          match skipBlanks rest with
          | ':' :: rest => do
              let (value, rest) ← readValue steps rest
              match skipBlanks rest with
              | ',' :: rest => do
                  let (members, rest) ← readMembers steps rest
                  some ((key, value) :: members, rest)
              | '}' :: rest => some ([(key, value)], rest)
              | _ => none
          | _ => none
      | _ => none
end

/-- The value that is the whole text. -/
def loads (text : Text) : Option Value :=
  match readValue text.length text with
  | some (value, rest) => if skipBlanks rest = [] then some value else none
  | none => none

mutual
/-- A value with the members of its objects sorted by key. -/
def normal : Value → Value
  | .null => .null
  | .bool value => .bool value
  | .number literal => .number literal
  | .str text => .str text
  | .arr items => .arr (normalItems items)
  | .obj members => .obj (sortMembers (normalMembers members))
def normalItems : List Value → List Value
  | [] => []
  | item :: items => normal item :: normalItems items
def normalMembers : List (Text × Value) → List (Text × Value)
  | [] => []
  | (key, value) :: members => (key, normal value) :: normalMembers members
end

/-- A way to write texts between quotes that are read back. -/
def Faithful (quoting : Text → Text) : Prop :=
  ∀ text rest, ∃ behind, quoting text ++ rest = '"' :: behind ∧
    readString behind.length behind = some (text, rest)

theorem cells_faithful {quoting : Text → Text} (written : ∀ text, ∃ cells : List (Char × Bool),
    cells.map Prod.fst = text ∧ quoting text = '"' :: cells.flatMap writeCell ++ ['"']) :
    Faithful quoting := by
  intro text rest
  obtain ⟨cells, rfl, isQuoted⟩ := written text
  refine ⟨cells.flatMap writeCell ++ '"' :: rest, by simp [isQuoted], ?_⟩
  apply readString_cells
  have length := cells_length cells
  rw [List.length_append]
  omega

theorem quote_faithful : Faithful quote :=
  cells_faithful (fun text => ⟨_, plain_letters text, by rw [quote, plain_cells]⟩)

/-- What follows a value does not continue a number. -/
def Ends (rest : Text) : Prop := ∀ letter ∈ rest.head?, isNumberChar letter = false

/-- A text that is read as a value, with what follows it left. -/
structure Denotes (text : Text) (value : Value) : Prop where
  starts : ∃ letter behind, text = letter :: behind ∧ isBlank letter = false ∧ letter ≠ ']'
  read : ∀ steps rest, text.length ≤ steps → Ends rest →
    readValue steps (text ++ rest) = some (value, rest)

theorem skip_letter {letter : Char} (solid : isBlank letter = false) (rest : Text) :
    skipBlanks (letter :: rest) = letter :: rest := by
  rw [skipBlanks, List.dropWhile_cons_of_neg (by simp [solid])]

theorem word_denotes (text : Text) (value : Value)
    (starts : ∃ letter behind, text = letter :: behind ∧ isBlank letter = false ∧ letter ≠ ']' ∧
      letter ≠ '"' ∧ letter ≠ '[' ∧ letter ≠ '{')
    (read : ∀ rest, Ends rest → readWord (text ++ rest) = some (value, rest)) :
    Denotes text value := by
  obtain ⟨letter, behind, rfl, solid, notClosing, notQuote, notBracket, notBrace⟩ := starts
  refine ⟨⟨letter, behind, rfl, solid, notClosing⟩, ?_⟩
  intro steps rest enough ends
  obtain ⟨fewer, rfl⟩ : ∃ fewer, steps = fewer + 1 := ⟨steps - 1, by simp at enough; omega⟩
  rw [List.cons_append, readValue, skip_letter solid]
  simp only [if_neg notQuote, if_neg notBracket, if_neg notBrace]
  exact read rest ends

theorem numeral_denotes (literal : Numeral) : Denotes literal.1 (.number literal) := by
  obtain ⟨text, numeral⟩ := literal
  have parts := numeral
  simp only [isNumeral, Bool.and_eq_true, decide_eq_true_eq] at parts
  have chars : ∀ letter ∈ text, isNumberChar letter = true := List.all_eq_true.mp parts.1.1.1
  cases text with
  | nil => simp [dropSign] at parts
  | cons letter behind =>
    have isNumber := chars letter List.mem_cons_self
    have other (mark : Char) (isMark : isNumberChar mark = false) : letter ≠ mark := by
      rintro rfl
      rw [isNumber] at isMark
      exact absurd isMark (by decide)
    apply word_denotes
    · refine ⟨letter, behind, rfl, ?_, other _ (by decide), other _ (by decide),
        other _ (by decide), other _ (by decide)⟩
      simp only [isBlank, List.mem_cons, List.not_mem_nil, or_false, decide_eq_false_iff_not, not_or]
      exact ⟨other _ (by decide), other _ (by decide), other _ (by decide), other _ (by decide)⟩
    · intro rest ends
      have taken : ((letter :: behind) ++ rest).takeWhile isNumberChar = letter :: behind := by
        rw [List.takeWhile_append_of_pos chars]
        cases rest with
        | nil => simp
        | cons next rest => simp [ends next (by simp)]
      have left : ((letter :: behind) ++ rest).dropWhile isNumberChar = rest := by
        rw [List.dropWhile_append_of_pos chars]
        cases rest with
        | nil => simp
        | cons next rest => simp [ends next (by simp)]
      rw [readWord.eq_def]
      split
      · next isName => exact absurd (List.cons.inj isName).1 (other _ (by decide))
      · next isName => exact absurd (List.cons.inj isName).1 (other _ (by decide))
      · next isName => exact absurd (List.cons.inj isName).1 (other _ (by decide))
      · simp only [taken, left]
        rw [dif_pos numeral]

theorem string_denotes {quoting : Text → Text} (faithful : Faithful quoting) (text : Text) :
    Denotes (quoting text) (.str text) := by
  constructor
  · obtain ⟨behind, isQuoted, -⟩ := faithful text []
    rw [List.append_nil] at isQuoted
    exact ⟨'"', behind, isQuoted, rfl, by decide⟩
  · intro steps rest enough _
    obtain ⟨behind, isQuoted, read⟩ := faithful text rest
    have filled : 0 < (quoting text).length := by
      obtain ⟨alone, isAlone, -⟩ := faithful text []
      rw [List.append_nil] at isAlone
      simp [isAlone]
    obtain ⟨fewer, rfl⟩ : ∃ fewer, steps = fewer + 1 := ⟨steps - 1, by omega⟩
    rw [isQuoted, readValue, skip_letter rfl]
    simp only [if_true, read, Option.map_some]

theorem separated_front (text : Text) (texts : List Text) :
    ∃ others, separated (text :: texts) = text ++ others := by
  cases texts with
  | nil => exact ⟨[], by simp [separated]⟩
  | cons next texts => exact ⟨_, rfl⟩

/-- Every item reads as its value, one step behind the other. -/
theorem items_read (items : List (Text × Value)) (nonempty : items ≠ [])
    (each : ∀ item ∈ items, Denotes item.1 item.2) (steps : Nat) (rest : Text)
    (enough : (separated (items.map Prod.fst)).length < steps) :
    readItems steps (separated (items.map Prod.fst) ++ ']' :: rest) =
      some (items.map Prod.snd, rest) := by
  induction items generalizing steps with
  | nil => exact absurd rfl nonempty
  | cons item items inductionHypothesis =>
    obtain ⟨here, later⟩ := List.forall_mem_cons.mp each
    obtain ⟨fewer, rfl⟩ : ∃ fewer, steps = fewer + 1 := ⟨steps - 1, by omega⟩
    cases items with
    | nil =>
      simp only [List.map_cons, List.map_nil, separated] at enough ⊢
      rw [readItems, here.read fewer _ (by omega) (by simp [Ends, isNumberChar]),
        Option.bind_eq_bind, Option.bind_some]
      simp [skip_letter (show isBlank ']' = false from rfl)]
    | cons next items =>
      have tail := inductionHypothesis (List.cons_ne_nil next items) later fewer
      simp only [List.map_cons, separated, List.length_append, List.length_cons] at enough tail ⊢
      rw [List.append_assoc, List.cons_append, readItems,
        here.read fewer _ (by omega) (by simp [Ends, isNumberChar]), Option.bind_eq_bind,
        Option.bind_some]
      simp only [skip_letter (show isBlank ',' = false from rfl)]
      rw [tail (by omega)]
      rfl

theorem array_denotes (items : List (Text × Value)) (each : ∀ item ∈ items, Denotes item.1 item.2) :
    Denotes ('[' :: separated (items.map Prod.fst) ++ [']']) (.arr (items.map Prod.snd)) := by
  refine ⟨⟨'[', _, rfl, rfl, by decide⟩, ?_⟩
  intro steps rest enough _
  obtain ⟨fewer, rfl⟩ : ∃ fewer, steps = fewer + 1 := ⟨steps - 1, by simp at enough; omega⟩
  rw [List.cons_append, List.cons_append, List.append_assoc, List.singleton_append, readValue,
    skip_letter rfl]
  simp only [if_neg (show ('[' : Char) ≠ '"' by decide), if_true]
  cases items with
  | nil => simp [separated, skip_letter (show isBlank ']' = false from rfl)]
  | cons item items =>
    have read := items_read (item :: items) (List.cons_ne_nil item items) each fewer rest (by
      simp only [List.length_cons, List.length_append, List.length_nil] at enough
      omega)
    obtain ⟨letter, behind, isItem, solid, notClosing⟩ := (each item List.mem_cons_self).starts
    obtain ⟨others, isText⟩ := separated_front item.1 (items.map Prod.fst)
    rw [List.map_cons, isText, isItem] at read ⊢
    simp only [List.cons_append] at read ⊢
    rw [skip_letter solid]
    split
    · next isClosing => exact absurd (List.cons.inj isClosing).1 notClosing
    · rw [read, Option.map_some]

/-- A member as it is written with its value. -/
def writtenMember (quoting : Text → Text) (member : Text × Text × Value) : Text :=
  quoting member.1 ++ ':' :: member.2.1

theorem members_read {quoting : Text → Text} (faithful : Faithful quoting)
    (members : List (Text × Text × Value)) (nonempty : members ≠ [])
    (each : ∀ member ∈ members, Denotes member.2.1 member.2.2) (steps : Nat) (rest : Text)
    (enough : (separated (members.map (writtenMember quoting))).length < steps) :
    readMembers steps (separated (members.map (writtenMember quoting)) ++ '}' :: rest) =
      some (members.map (fun member => (member.1, member.2.2)), rest) := by
  induction members generalizing steps with
  | nil => exact absurd rfl nonempty
  | cons member members inductionHypothesis =>
    obtain ⟨here, later⟩ := List.forall_mem_cons.mp each
    obtain ⟨fewer, rfl⟩ : ∃ fewer, steps = fewer + 1 := ⟨steps - 1, by omega⟩
    cases members with
    | nil =>
      simp only [List.map_cons, List.map_nil, separated, writtenMember, List.length_append,
        List.length_cons] at enough ⊢
      obtain ⟨behind, isQuoted, read⟩ := faithful member.1 (':' :: member.2.1 ++ '}' :: rest)
      rw [List.append_assoc, isQuoted, readMembers, skip_letter rfl]
      simp only [read, Option.bind_eq_bind, Option.bind_some, List.cons_append,
        skip_letter (show isBlank ':' = false from rfl)]
      rw [here.read fewer _ (by omega) (by simp [Ends, isNumberChar]), Option.bind_some]
      simp [skip_letter (show isBlank '}' = false from rfl)]
    | cons next members =>
      have tail := inductionHypothesis (List.cons_ne_nil next members) later fewer
      simp only [List.map_cons, separated, List.length_append, List.length_cons] at enough tail ⊢
      rw [writtenMember] at enough ⊢
      simp only [List.length_append, List.length_cons] at enough
      obtain ⟨behind, isQuoted, read⟩ := faithful member.1 (':' :: member.2.1 ++ ',' ::
        (separated (writtenMember quoting next :: members.map (writtenMember quoting)) ++ '}' :: rest))
      simp only [List.append_assoc, List.cons_append] at isQuoted read ⊢
      rw [isQuoted, readMembers, skip_letter rfl]
      simp only [read, Option.bind_eq_bind, Option.bind_some,
        skip_letter (show isBlank ':' = false from rfl)]
      rw [here.read fewer _ (by omega) (by simp [Ends, isNumberChar]), Option.bind_some]
      simp only [skip_letter (show isBlank ',' = false from rfl)]
      rw [tail (by omega)]
      rfl

theorem object_denotes {quoting : Text → Text} (faithful : Faithful quoting)
    (members : List (Text × Text × Value))
    (each : ∀ member ∈ members, Denotes member.2.1 member.2.2) :
    Denotes ('{' :: separated (members.map (writtenMember quoting)) ++ ['}'])
      (.obj (members.map (fun member => (member.1, member.2.2)))) := by
  refine ⟨⟨'{', _, rfl, rfl, by decide⟩, ?_⟩
  intro steps rest enough _
  obtain ⟨fewer, rfl⟩ : ∃ fewer, steps = fewer + 1 := ⟨steps - 1, by simp at enough; omega⟩
  rw [List.cons_append, List.cons_append, List.append_assoc, List.singleton_append, readValue,
    skip_letter rfl]
  simp only [if_neg (show ('{' : Char) ≠ '"' by decide), if_neg (show ('{' : Char) ≠ '[' by decide),
    if_true]
  cases members with
  | nil => simp [separated, skip_letter (show isBlank '}' = false from rfl)]
  | cons member members =>
    have read := members_read faithful (member :: members) (List.cons_ne_nil member members) each
      fewer rest (by
        simp only [List.length_cons, List.length_append, List.length_nil] at enough
        omega)
    obtain ⟨behind, isQuoted, -⟩ := faithful member.1 (':' :: member.2.1)
    obtain ⟨others, isText⟩ :=
      separated_front (writtenMember quoting member) (members.map (writtenMember quoting))
    rw [List.map_cons, isText, writtenMember, isQuoted] at read ⊢
    simp only [List.cons_append] at read ⊢
    rw [skip_letter rfl]
    split
    · next isClosing => exact absurd (List.cons.inj isClosing).1 (by decide)
    · rw [read, Option.map_some]

/-! ## Written values -/

theorem chunks_items (items : List Value) : chunksItems items = items.map chunks := by
  induction items with
  | nil => rw [chunksItems, List.map_nil]
  | cons item items inductionHypothesis =>
    rw [chunksItems, inductionHypothesis, List.map_cons]

theorem chunks_members (members : List (Text × Value)) :
    chunksMembers members = members.map (fun member => (member.1, chunks member.2)) := by
  induction members with
  | nil => rw [chunksMembers, List.map_nil]
  | cons member members inductionHypothesis =>
    rw [chunksMembers, inductionHypothesis, List.map_cons]

theorem normal_items (items : List Value) : normalItems items = items.map normal := by
  induction items with
  | nil => rw [normalItems, List.map_nil]
  | cons item items inductionHypothesis =>
    rw [normalItems, inductionHypothesis, List.map_cons]

theorem normal_members (members : List (Text × Value)) :
    normalMembers members = members.map (fun member => (member.1, normal member.2)) := by
  induction members with
  | nil => rw [normalMembers, List.map_nil]
  | cons member members inductionHypothesis =>
    rw [normalMembers, inductionHypothesis, List.map_cons]

section Written

variable {quoting : Text → Text}

mutual
/-- The text of a value reads as the value with its members sorted. -/
theorem value_denotes (faithful : Faithful quoting) :
    ∀ value, Denotes (writeChunks quoting (chunks value)) (normal value)
  | .null => by
    have isText : writeChunks quoting (chunks .null) = "null".toList := by
      simp [chunks, writeChunks, Chunk.write]
    rw [isText, normal]
    exact word_denotes _ _ ⟨'n', ['u', 'l', 'l'], by simp, by decide⟩ (fun _ _ => by simp [readWord])
  | .bool true => by
    have isText : writeChunks quoting (chunks (.bool true)) = "true".toList := by
      simp [chunks, writeChunks, Chunk.write]
    rw [isText, normal]
    exact word_denotes _ _ ⟨'t', ['r', 'u', 'e'], by simp, by decide⟩ (fun _ _ => by simp [readWord])
  | .bool false => by
    have isText : writeChunks quoting (chunks (.bool false)) = "false".toList := by
      simp [chunks, writeChunks, Chunk.write]
    rw [isText, normal]
    exact word_denotes _ _ ⟨'f', ['a', 'l', 's', 'e'], by simp, by decide⟩
      (fun _ _ => by simp [readWord])
  | .number literal => by
    have isText : writeChunks quoting (chunks (.number literal)) = literal.1 := by
      simp [chunks, writeChunks, Chunk.write]
    rw [isText, normal]
    exact numeral_denotes literal
  | .str text => by
    have isText : writeChunks quoting (chunks (.str text)) = quoting text := by
      simp [chunks, writeChunks, Chunk.write]
    rw [isText, normal]
    exact string_denotes faithful text
  | .arr items => by
    have denotes := array_denotes
      (items.map (fun item => (writeChunks quoting (chunks item), normal item)))
      (List.forall_mem_map.mpr (items_denote faithful items))
    have isText : writeChunks quoting (chunks (.arr items)) =
        '[' :: separated ((items.map chunks).map (writeChunks quoting)) ++ [']'] := by
      rw [← write_separated, chunks, chunks_items]
      simp [writeChunks, Chunk.write]
    rw [isText, normal, normal_items]
    simpa [Function.comp_def] using denotes
  | .obj members => by
    have denotes := object_denotes faithful ((sortMembers members).map
      (fun member => (member.1, writeChunks quoting (chunks member.2), normal member.2)))
      (List.forall_mem_map.mpr (fun member listed =>
        members_denote faithful members member (by simpa [sortMembers] using listed)))
    have isText : writeChunks quoting (chunks (.obj members)) = '{' :: separated
        (((sortMembers (chunksMembers members)).map memberChunks).map (writeChunks quoting)) ++
          ['}'] := by
      rw [← write_separated, chunks]
      simp [writeChunks, Chunk.write]
    rw [isText, normal, normal_members, chunks_members, sort_members_map, sort_members_map]
    simpa [Function.comp_def, memberChunks, writtenMember, writeChunks, Chunk.write] using denotes
theorem items_denote (faithful : Faithful quoting) :
    ∀ items : List Value, ∀ item ∈ items,
      Denotes (writeChunks quoting (chunks item)) (normal item)
  | [] => by simp
  | item :: items =>
    List.forall_mem_cons.mpr ⟨value_denotes faithful item, items_denote faithful items⟩
theorem members_denote (faithful : Faithful quoting) :
    ∀ members : List (Text × Value), ∀ member ∈ members,
      Denotes (writeChunks quoting (chunks member.2)) (normal member.2)
  | [] => by simp
  | (_, value) :: members =>
    List.forall_mem_cons.mpr ⟨value_denotes faithful value, members_denote faithful members⟩
end

theorem loads_chunks (faithful : Faithful quoting) (value : Value) :
    loads (writeChunks quoting (chunks value)) = some (normal value) := by
  have read := (value_denotes faithful value).read (writeChunks quoting (chunks value)).length []
    (Nat.le_refl _) (by simp [Ends])
  rw [List.append_nil] at read
  rw [loads, read]
  rfl

end Written

end Json
