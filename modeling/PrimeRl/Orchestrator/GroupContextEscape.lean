import PrimeRl.Orchestrator.GroupContext
import PrimeRl.Support.JsonReading

/-!
# Escaped payloads

A scan for control tokens marks the letters of each one found. A marked letter is written
by its UTF-16 units, so the text reads back the same, and every occurrence of a control
token starts with a marked letter.
-/

namespace PrimeRl.Orchestrator.GroupContext

open Json (Text)

/-! ## Marked letters -/

/-- Which letters belong to a token found. -/
def marks (tokens : List Text) : Nat → Text → List Bool
  | _, [] => []
  | inside + 1, _ :: rest => true :: marks tokens inside rest
  | 0, letter :: rest =>
      match tokenAt tokens (letter :: rest) with
      | some token => true :: marks tokens (token.length - 1) rest
      | none => false :: marks tokens 0 rest

theorem marks_length (tokens : List Text) (inside : Nat) (value : Text) :
    (marks tokens inside value).length = value.length := by
  induction value generalizing inside with
  | nil => simp [marks]
  | cons letter rest inductionHypothesis =>
    cases inside with
    | zero =>
      rw [marks]
      split
      · rw [List.length_cons, inductionHypothesis, List.length_cons]
      · rw [List.length_cons, inductionHypothesis, List.length_cons]
    | succ inside => rw [marks, List.length_cons, inductionHypothesis, List.length_cons]

/-- A token found stands in front. -/
theorem token_in_front {tokens : List Text} {text token : Text}
    (found : tokenAt tokens text = some token) : token ∈ tokens ∧ token <+: text := by
  refine ⟨List.mem_of_find?_eq_some found, ?_⟩
  have isFront := List.find?_some found
  rwa [List.isPrefixOf_iff_prefix] at isFront

/-- The text between the quotes. -/
def escapedBody (pieces : List (Text × Text) × Text) : Text :=
  pieces.1.flatMap (fun piece =>
    piece.1.flatMap Json.plainChar ++ piece.2.flatMap Json.unicodeChar) ++
      pieces.2.flatMap Json.plainChar

/-- Letters of a token are marked, and the others are not. -/
theorem body_of_marks (tokens : List Text) (nonempty : ∀ token ∈ tokens, token ≠ [])
    (inside : Nat) (value : Text) :
    (value.take inside).flatMap Json.unicodeChar ++ escapedBody (finditer tokens inside value) =
      (value.zip (marks tokens inside value)).flatMap Json.writeCell := by
  induction value generalizing inside with
  | nil => simp [finditer, marks, escapedBody]
  | cons letter rest inductionHypothesis =>
    cases inside with
    | succ inside =>
      rw [finditer, marks, List.take_succ_cons, List.zip_cons_cons, List.flatMap_cons,
        List.flatMap_cons, List.append_assoc, inductionHypothesis]
      rfl
    | zero =>
      rw [finditer, marks, List.take_zero, List.flatMap_nil, List.nil_append]
      cases found : tokenAt tokens (letter :: rest) with
      | none =>
        have later := inductionHypothesis 0
        rw [List.take_zero, List.flatMap_nil, List.nil_append] at later
        rw [List.zip_cons_cons, List.flatMap_cons, ← later]
        obtain ⟨pieces, last⟩ := finditer tokens 0 rest
        cases pieces with
        | nil => simp [escapedBody, Json.writeCell]
        | cons piece pieces => simp [escapedBody, Json.writeCell]
      | some token =>
        obtain ⟨listed, front⟩ := token_in_front found
        obtain ⟨first, others, rfl⟩ := List.exists_cons_of_ne_nil (nonempty token listed)
        obtain ⟨rfl, othersFront⟩ := List.cons_prefix_cons.mp front
        have isOthers := List.prefix_iff_eq_take.mp othersFront
        rw [List.zip_cons_cons, List.flatMap_cons]
        simp only [List.length_cons, Nat.add_sub_cancel]
        rw [← inductionHypothesis, ← isOthers]
        simp [escapedBody, Json.writeCell]

/-- Where a token stands, its first letter is marked: it is inside a token found earlier,
    or the scan finds one there. -/
theorem token_marked (tokens : List Text) (inside : Nat) (before token after : Text)
    (listed : token ∈ tokens) (nonempty : token ≠ []) :
    (marks tokens inside (before ++ token ++ after))[before.length]? = some true := by
  induction before generalizing inside with
  | nil =>
    obtain ⟨first, others, rfl⟩ := List.exists_cons_of_ne_nil nonempty
    cases inside with
    | succ inside => simp [marks]
    | zero =>
      have matched : (tokenAt tokens (first :: (others ++ after))).isSome := by
        rw [tokenAt, List.find?_isSome]
        exact ⟨_, listed, by simp [List.isPrefixOf_iff_prefix]⟩
      obtain ⟨found, isFound⟩ := Option.isSome_iff_exists.mp matched
      simp [marks, isFound]
  | cons letter before inductionHypothesis =>
    cases inside with
    | succ inside =>
      rw [List.cons_append, List.cons_append, marks, List.length_cons, List.getElem?_cons_succ]
      exact inductionHypothesis inside
    | zero =>
      rw [List.cons_append, List.cons_append, marks]
      split
      · rw [List.length_cons, List.getElem?_cons_succ]
        exact inductionHypothesis _
      · rw [List.length_cons, List.getElem?_cons_succ]
        exact inductionHypothesis _

/-- The letters of a text with their marks. -/
def cells (tokens : List Text) (value : Text) : List (Char × Bool) :=
  value.zip (marks tokens 0 value)

theorem cells_letters (tokens : List Text) (value : Text) :
    (cells tokens value).map Prod.fst = value :=
  List.map_fst_zip (Nat.le_of_eq (marks_length tokens 0 value).symm)

theorem escape_string_cells {tokens : List Text} (nonempty : ∀ token ∈ tokens, token ≠ [])
    (value : Text) :
    escapeString tokens value = '"' :: (cells tokens value).flatMap Json.writeCell ++ ['"'] := by
  have body := body_of_marks tokens nonempty 0 value
  rw [List.take_zero, List.flatMap_nil, List.nil_append] at body
  rw [cells, ← body]
  rfl

theorem escape_faithful {tokens : List Text} (nonempty : ∀ token ∈ tokens, token ≠ []) :
    Json.Faithful (escapeString tokens) :=
  Json.cells_faithful (fun text =>
    ⟨cells tokens text, cells_letters tokens text, escape_string_cells nonempty text⟩)

/-! ## Control tokens -/

theorem mem_control_tokens (specialTokens : List Text) (token : Text) :
    token ∈ controlTokens specialTokens ↔
      token ∈ [['<'], ['>'], privilegedDataBegin, privilegedDataEnd] ∨
        token ∈ specialTokens ∧ token ≠ [] := by
  simp only [controlTokens, List.mem_insertionSort, List.mem_dedup, List.mem_cons, List.mem_filter,
    decide_eq_true_eq, List.not_mem_nil, or_false, or_assoc]

theorem control_tokens_nonempty (specialTokens : List Text) :
    ∀ token ∈ controlTokens specialTokens, token ≠ [] := by
  intro token listed
  rcases (mem_control_tokens specialTokens token).mp listed with fixed | ⟨_, nonempty⟩
  · rintro rfl
    exact absurd fixed (by decide)
  · exact nonempty

/-! ## Literals in the payload -/

theorem literal_body_letter (letter : Char) (rest : Text) (notQuote : letter ≠ '"')
    (notBackslash : letter ≠ '\\') :
    literalBody (letter :: rest) = (literalBody rest).map (fun body => letter :: body) := by
  rw [literalBody]
  · exact notQuote
  · intro isBackslash
    exact absurd isBackslash notBackslash
  · intro other more isBackslash
    exact absurd isBackslash notBackslash

theorem hex_digit_plain (digit : Nat) :
    Nat.digitChar (digit % 16) ≠ '"' ∧ Nat.digitChar (digit % 16) ≠ '\\' := by
  have each : ∀ digit : Fin 16, Nat.digitChar digit ≠ '"' ∧ Nat.digitChar digit ≠ '\\' := by decide
  exact each ⟨digit % 16, Nat.mod_lt digit (by decide)⟩

theorem literal_body_unit (unit : Nat) (rest : Text) :
    literalBody ('\\' :: 'u' :: Json.hexDigits unit ++ rest) =
      (literalBody rest).map ('\\' :: 'u' :: Json.hexDigits unit ++ ·) := by
  simp only [Json.hexDigits, List.map_cons, List.map_nil, List.cons_append, List.nil_append]
  rw [literalBody, if_neg (by decide), literal_body_letter _ _ (hex_digit_plain _).1 (hex_digit_plain _).2,
    literal_body_letter _ _ (hex_digit_plain _).1 (hex_digit_plain _).2,
    literal_body_letter _ _ (hex_digit_plain _).1 (hex_digit_plain _).2,
    literal_body_letter _ _ (hex_digit_plain _).1 (hex_digit_plain _).2]
  simp only [Option.map_map]
  rfl

/-- A writing of a letter has no quote that ends a literal. -/
theorem literal_body_plain (letter : Char) (rest : Text) :
    literalBody (Json.plainChar letter ++ rest) =
      (literalBody rest).map (Json.plainChar letter ++ ·) := by
  rw [Json.plainChar]
  split
  · simp [literalBody]
  split
  · simp [literalBody]
  split
  · simp [literalBody]
  split
  · simp [literalBody]
  split
  · simp [literalBody]
  split
  · simp [literalBody]
  split
  · simp [literalBody]
  split
  · next control =>
    have units : Json.units letter = [letter.toNat] := if_pos (by omega)
    rw [Json.unicodeChar, units, List.flatMap_singleton]
    exact literal_body_unit letter.toNat rest
  · next notQuote notBackslash _ _ _ _ _ _ => exact literal_body_letter letter rest notQuote notBackslash

theorem literal_body_quote (value rest : Text) :
    literalBody (value.flatMap Json.plainChar ++ '"' :: rest) =
      some (value.flatMap Json.plainChar) := by
  induction value with
  | nil => simp [literalBody]
  | cons letter value inductionHypothesis =>
    rw [List.flatMap_cons, List.append_assoc, literal_body_plain, inductionHypothesis]
    rfl

/-- The unescaped literal reads as its text. -/
theorem read_plain (value : Text) :
    Json.readString (value.flatMap Json.plainChar).length (value.flatMap Json.plainChar ++ ['"']) =
      some (value, []) := by
  have enough := Json.cells_length (value.map (fun letter => (letter, false)))
  have read := Json.readString_cells _ [] _ enough
  rwa [← Json.plain_cells, Json.plain_letters] at read

theorem escape_inside (tokens : List Text) (front rest : Text) :
    escapeLiterals tokens front.length (front ++ rest) = escapeLiterals tokens 0 rest := by
  induction front with
  | nil => rfl
  | cons letter front inductionHypothesis =>
    rw [List.length_cons, List.cons_append, escapeLiterals, inductionHypothesis]

theorem escape_bare (tokens : List Text) (text rest : Text) (bare : text.all Json.isBare = true) :
    escapeLiterals tokens 0 (text ++ rest) = (escapeLiterals tokens 0 rest).map (text ++ ·) := by
  induction text with
  | nil =>
    rw [List.nil_append]
    cases escapeLiterals tokens 0 rest with
    | error problem => rfl
    | ok others => rfl
  | cons letter text inductionHypothesis =>
    rw [List.all_cons, Bool.and_eq_true] at bare
    have noQuote : letter ≠ '"' := by
      rintro rfl
      exact absurd bare.1 (by decide)
    rw [List.cons_append, escapeLiterals, if_neg noQuote]
    dsimp only
    rw [inductionHypothesis bare.2, Fallible.map_map]
    rfl

theorem escape_quoted (tokens : List Text) (value rest : Text) :
    escapeLiterals tokens 0 (Json.quote value ++ rest) =
      (escapeLiterals tokens 0 rest).map (escapeString tokens value ++ ·) := by
  have isQuote : Json.quote value ++ rest = '"' :: (value.flatMap Json.plainChar ++ '"' :: rest) := by
    simp [Json.quote]
  have behind := escape_inside tokens (value.flatMap Json.plainChar ++ ['"']) rest
  rw [List.length_append, List.length_singleton, List.append_assoc, List.singleton_append] at behind
  rw [isQuote, escapeLiterals, if_pos rfl, literal_body_quote]
  dsimp only
  rw [read_plain, behind]

/-- In chunks, every text is escaped and nothing else is changed. -/
theorem escape_chunks (tokens : List Text) (chunks : List Json.Chunk)
    (bare : ∀ chunk ∈ chunks, chunk.Bare) :
    escapeLiterals tokens 0 (Json.writeChunks Json.quote chunks) =
      .ok (Json.writeChunks (escapeString tokens) chunks) := by
  induction chunks with
  | nil => rfl
  | cons chunk chunks inductionHypothesis =>
    obtain ⟨here, later⟩ := List.forall_mem_cons.mp bare
    rw [Json.writeChunks, List.flatMap_cons, ← Json.writeChunks]
    cases chunk with
    | bare text =>
      rw [Json.Chunk.write, escape_bare tokens text _ here, inductionHypothesis later]
      rfl
    | quoted text =>
      rw [Json.Chunk.write, escape_quoted, inductionHypothesis later]
      rfl

/-! ## What the payload does not have -/

/-- Letters in the writing of a letter that is not written as it is. -/
def isEscapeLetter (letter : Char) : Bool :=
  letter ∈ ['\\', '"', 'b', 'f', 'n', 'r', 't', 'u'] || letter ∈ (List.range 16).map Nat.digitChar

theorem unicode_letters (letter : Char) : (Json.unicodeChar letter).all isEscapeLetter = true := by
  have digit (unit : Nat) : isEscapeLetter (Nat.digitChar (unit % 16)) = true := by
    have each : ∀ digit : Fin 16, isEscapeLetter (Nat.digitChar digit) = true := by decide
    exact each ⟨unit % 16, Nat.mod_lt unit (by decide)⟩
  rw [List.all_eq_true, Json.unicodeChar]
  intro written member
  obtain ⟨unit, _, inUnit⟩ := List.mem_flatMap.mp member
  simp only [Json.hexDigits, List.map_cons, List.map_nil, List.mem_cons, List.not_mem_nil,
    or_false] at inUnit
  rcases inUnit with rfl | rfl | rfl | rfl | rfl | rfl
  · rfl
  · rfl
  · exact digit _
  · exact digit _
  · exact digit _
  · exact digit _

/-- A letter is written as it is, or by letters of escapes. -/
theorem cell_cases (cell : Char × Bool) :
    cell.2 = false ∧ Json.writeCell cell = [cell.1] ∨
      (Json.writeCell cell).all isEscapeLetter = true := by
  obtain ⟨letter, mark⟩ := cell
  cases mark with
  | true => exact .inr (unicode_letters letter)
  | false =>
    have isPlain : Json.writeCell (letter, false) = Json.plainChar letter := rfl
    rw [isPlain, Json.plainChar]
    split
    · exact .inr rfl
    split
    · exact .inr rfl
    split
    · exact .inr rfl
    split
    · exact .inr rfl
    split
    · exact .inr rfl
    split
    · exact .inr rfl
    split
    · exact .inr rfl
    split
    · exact .inr (unicode_letters letter)
    · exact .inl ⟨rfl, rfl⟩

/-- Where a token stands in a text, its first letter is marked. -/
theorem cells_marked {tokens : List Text} {value token : Text} {front back : List (Char × Bool)}
    (split : cells tokens value = front ++ back) (listed : token ∈ tokens) (nonempty : token ≠ [])
    (stands : token <+: back.map Prod.fst) : ∃ letter rest, back = (letter, true) :: rest := by
  obtain ⟨after, isAfter⟩ := stands
  have isValue : value = front.map Prod.fst ++ token ++ after := by
    rw [← cells_letters tokens value, split, List.map_append, List.append_assoc, isAfter]
  have isMarks : marks tokens 0 value = front.map Prod.snd ++ back.map Prod.snd := by
    rw [← List.map_append, ← split, cells,
      List.map_snd_zip (Nat.le_of_eq (marks_length tokens 0 value))]
  have marked := token_marked tokens 0 (front.map Prod.fst) token after listed nonempty
  rw [← isValue, isMarks, List.length_map, List.getElem?_append_right (by simp), List.length_map,
    Nat.sub_self] at marked
  cases back with
  | nil => simp at marked
  | cons cell rest =>
    obtain ⟨letter, mark⟩ := cell
    obtain rfl : mark = true := by simpa using marked
    exact ⟨letter, rest, rfl⟩

/-- What stands in a literal without letters of escapes stands in its text. -/
theorem raw_prefix (found : Text) (raw : ∀ letter ∈ found, isEscapeLetter letter = false)
    (listing : List (Char × Bool)) (rest : Text)
    (stands : found <+: listing.flatMap Json.writeCell ++ '"' :: rest) :
    found <+: listing.map Prod.fst := by
  induction found generalizing listing with
  | nil => exact List.nil_prefix
  | cons letter found inductionHypothesis =>
    obtain ⟨here, later⟩ := List.forall_mem_cons.mp raw
    cases listing with
    | nil =>
      obtain ⟨rfl, -⟩ := List.cons_prefix_cons.mp stands
      exact absurd here (by decide)
    | cons cell listing =>
      rw [List.flatMap_cons, List.append_assoc] at stands
      rcases cell_cases cell with ⟨-, isRaw⟩ | escaped
      · rw [isRaw, List.singleton_append] at stands
        obtain ⟨rfl, behind⟩ := List.cons_prefix_cons.mp stands
        exact List.cons_prefix_cons.mpr ⟨rfl, inductionHypothesis later listing behind⟩
      · obtain ⟨first, others, isWritten⟩ := List.exists_cons_of_ne_nil (Json.cell_nonempty cell)
        rw [isWritten] at stands escaped
        obtain ⟨rfl, -⟩ := List.cons_prefix_cons.mp stands
        simp [here] at escaped

section Absent

variable {tokens : List Text} {token : Text} {first : Char} {more : Text}

theorem skip_escaped (isToken : token = first :: more) (raw : isEscapeLetter first = false)
    (written rest : Text) (escaped : written.all isEscapeLetter = true) (absent : ¬ token <:+: rest) :
    ¬ token <:+: written ++ rest := by
  induction written with
  | nil => exact absent
  | cons letter written inductionHypothesis =>
    rw [List.all_cons, Bool.and_eq_true] at escaped
    rw [List.cons_append, List.infix_cons_iff]
    rintro (front | behind)
    · rw [isToken] at front
      obtain ⟨rfl, -⟩ := List.cons_prefix_cons.mp front
      rw [raw] at escaped
      exact absurd escaped.1 (by decide)
    · exact inductionHypothesis escaped.2 behind

/-- A token is not in a text whose marks cover its occurrences. -/
theorem absent_in_cells (isToken : token = first :: more)
    (raw : ∀ letter ∈ token, isEscapeLetter letter = false) (listing : List (Char × Bool))
    (marked : ∀ front back, listing = front ++ back → token <+: back.map Prod.fst →
      ∃ letter rest, back = (letter, true) :: rest)
    (rest : Text) (absent : ¬ token <:+: rest) :
    ¬ token <:+: listing.flatMap Json.writeCell ++ '"' :: rest := by
  have rawFirst : isEscapeLetter first = false := raw first (by simp [isToken])
  induction listing with
  | nil => exact skip_escaped isToken rawFirst ['"'] rest (by decide) absent
  | cons cell listing inductionHypothesis =>
    have later := inductionHypothesis (fun front back split stands =>
      marked (cell :: front) back (by rw [split, List.cons_append]) stands)
    rw [List.flatMap_cons, List.append_assoc]
    rcases cell_cases cell with ⟨unmarked, isRaw⟩ | escaped
    · rw [isRaw, List.singleton_append, List.infix_cons_iff]
      rintro (front | behind)
      · have stands := raw_prefix token raw (cell :: listing) rest
          (by rwa [List.flatMap_cons, List.append_assoc, isRaw, List.singleton_append])
        obtain ⟨letter, others, isCell⟩ := marked [] (cell :: listing) rfl stands
        simp [(List.cons.inj isCell).1] at unmarked
      · exact later behind
    · exact skip_escaped isToken rawFirst _ _ escaped later

/-- Chunks start with a quote or a bare letter. -/
def opens (letter : Char) : Prop := letter = '"' ∨ Json.isBare letter = true

/-- A token whose second letter cannot follow its first outside a text. -/
theorem absent_in_bare (isToken : token = first :: more)
    (apart : Json.isBare first = true → ∃ second others, more = second :: others ∧ ¬ opens second)
    (text rest : Text) (bare : text.all Json.isBare = true) (absent : ¬ token <:+: rest)
    (opened : ∀ letter ∈ rest.head?, opens letter) :
    ¬ token <:+: text ++ rest ∧ ∀ letter ∈ (text ++ rest).head?, opens letter := by
  induction text with
  | nil => exact ⟨absent, opened⟩
  | cons letter text inductionHypothesis =>
    rw [List.all_cons, Bool.and_eq_true] at bare
    obtain ⟨absentBehind, openedBehind⟩ := inductionHypothesis bare.2
    refine ⟨?_, fun other isHead => ?_⟩
    · rw [List.cons_append, List.infix_cons_iff]
      rintro (front | behind)
      · rw [isToken] at front
        obtain ⟨rfl, follows⟩ := List.cons_prefix_cons.mp front
        obtain ⟨second, others, rfl, closed⟩ := apart bare.1
        obtain ⟨last, isBehind⟩ := follows
        exact closed (openedBehind second (by rw [← isBehind]; rfl))
      · exact absentBehind behind
    · obtain rfl : letter = other := by simpa using isHead
      exact .inr bare.1

theorem absent_in_chunks (nonempty : ∀ token ∈ tokens, token ≠ []) (listed : token ∈ tokens)
    (isToken : token = first :: more) (raw : ∀ letter ∈ token, isEscapeLetter letter = false)
    (apart : Json.isBare first = true → ∃ second others, more = second :: others ∧ ¬ opens second)
    (chunks : List Json.Chunk) (bare : ∀ chunk ∈ chunks, chunk.Bare) :
    ¬ token <:+: Json.writeChunks (escapeString tokens) chunks ∧
      ∀ letter ∈ (Json.writeChunks (escapeString tokens) chunks).head?, opens letter := by
  induction chunks with
  | nil => exact ⟨by simp [Json.writeChunks, isToken], by simp [Json.writeChunks]⟩
  | cons chunk chunks inductionHypothesis =>
    obtain ⟨here, later⟩ := List.forall_mem_cons.mp bare
    obtain ⟨absent, opened⟩ := inductionHypothesis later
    rw [Json.writeChunks, List.flatMap_cons, ← Json.writeChunks]
    cases chunk with
    | bare text => exact absent_in_bare isToken apart text _ here absent opened
    | quoted text =>
      have literal : Json.Chunk.write (escapeString tokens) (.quoted text) ++
          Json.writeChunks (escapeString tokens) chunks =
          ['"'] ++ ((cells tokens text).flatMap Json.writeCell ++
            '"' :: Json.writeChunks (escapeString tokens) chunks) := by
        rw [Json.Chunk.write, escape_string_cells nonempty]
        simp
      rw [literal]
      refine ⟨skip_escaped isToken (raw first (by simp [isToken])) ['"'] _ (by decide) ?_, ?_⟩
      · exact absent_in_cells isToken raw _ (fun front back split stands =>
          cells_marked split listed (nonempty token listed) stands) _ absent
      · intro letter isHead
        exact .inl (by simpa using isHead.symm)

end Absent

/-- In the escaped JSON of a value only the writing of its texts is changed, so it reads as
    the JSON before does. Each literal reads as the text it had, no angle bracket and no
    marker of the payload is left, and an occurrence of a special token in a text starts with
    a letter written by its units. -/
theorem escaped_payload (specialTokens : List Text) (value : Json.Value) :
    ∃ text, escapeJsonSpecialTokens (Json.canonical value) specialTokens = .ok text ∧
      Json.canonical value = Json.writeChunks Json.quote (Json.chunks value) ∧
      text = Json.writeChunks (escapeString (controlTokens specialTokens)) (Json.chunks value) ∧
      Json.loads (Json.canonical value) = some (Json.normal value) ∧
      Json.loads text = some (Json.normal value) ∧
      (∀ token ∈ [['<'], ['>'], privilegedDataBegin, privilegedDataEnd], ¬ token <:+: text) ∧
      ∀ content, ∃ listing, listing.map Prod.fst = content ∧
        escapeString (controlTokens specialTokens) content =
          '"' :: listing.flatMap Json.writeCell ++ ['"'] ∧
        Json.readString content.length (listing.flatMap Json.writeCell ++ ['"']) =
          some (content, []) ∧
        ∀ token ∈ specialTokens, token ≠ [] → ∀ front back, listing = front ++ back →
          token <+: back.map Prod.fst → ∃ letter rest, back = (letter, true) :: rest := by
  have nonempty := control_tokens_nonempty specialTokens
  have bare := Json.chunks_bare value
  refine ⟨_, ?_, Json.canonical_chunks value, rfl, ?_, ?_, ?_, ?_⟩
  · rw [escapeJsonSpecialTokens, Json.canonical_chunks]
    exact escape_chunks _ _ bare
  · rw [Json.canonical_chunks]
    exact Json.loads_chunks Json.quote_faithful value
  · exact Json.loads_chunks (escape_faithful nonempty) value
  · intro token fixed
    have listed := (mem_control_tokens specialTokens token).mpr (.inl fixed)
    have shape : ∃ first more, token = first :: more ∧
        token.all (fun letter => !isEscapeLetter letter) = true ∧
        (Json.isBare first = true → ∃ second others, more = second :: others ∧ ¬ opens second) := by
      simp only [List.mem_cons, List.not_mem_nil, or_false] at fixed
      rcases fixed with rfl | rfl | rfl | rfl
      · exact ⟨'<', [], rfl, by decide, fun isBare => absurd isBare (by decide)⟩
      · exact ⟨'>', [], rfl, by decide, fun isBare => absurd isBare (by decide)⟩
      · exact ⟨'B', _, rfl, by decide, fun isBare => absurd isBare (by decide)⟩
      · refine ⟨'E', _, rfl, by decide, fun _ => ⟨'N', _, rfl, ?_⟩⟩
        rintro (isQuote | isBare)
        · exact absurd isQuote (by decide)
        · exact absurd isBare (by decide)
    obtain ⟨first, more, isToken, plain, apart⟩ := shape
    have raw : ∀ letter ∈ token, isEscapeLetter letter = false := by simpa using plain
    exact (absent_in_chunks nonempty listed isToken raw apart _ bare).1
  · intro content
    have letters := cells_letters (controlTokens specialTokens) content
    have length : (cells (controlTokens specialTokens) content).length = content.length := by
      rw [← List.length_map (f := Prod.fst), letters]
    refine ⟨cells (controlTokens specialTokens) content, letters,
      escape_string_cells nonempty content, ?_, ?_⟩
    · have read := Json.readString_cells (cells (controlTokens specialTokens) content) []
        content.length (Nat.le_of_eq length)
      rwa [letters] at read
    · intro token special filled front back split stands
      exact cells_marked split ((mem_control_tokens _ _).mpr (.inr ⟨special, filled⟩)) filled stands

end PrimeRl.Orchestrator.GroupContext
