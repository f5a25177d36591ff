import Mathlib.Data.List.Induction
import Mathlib.Data.Nat.Digits.Defs
import Waggle.Token.Lexer

/-!
# Maximal munch

What the pieces of a text are, without saying how they are found. A piece of a text is a blank, or
the longest beginning of the text that is a number, a word or a symbol, or a character that no
such beginning has. A text has exactly one list of pieces (`Munched.unique`), and the lexemes of
the text are these pieces (`munched_lexemes`).
-/

namespace Waggle

/-- The characters that only separate tokens. -/
def blanks : List Char := [' ', '\t', '\r', '\n']

/-- A decimal digit. -/
def IsDigit (character : Char) : Prop := '0' ≤ character ∧ character ≤ '9'

/-- A letter of the Latin alphabet, or an underscore. -/
def IsLetter (character : Char) : Prop :=
  ('A' ≤ character ∧ character ≤ 'Z') ∨ ('a' ≤ character ∧ character ≤ 'z') ∨ character = '_'

/-- The digits are the characters that are tested for in a number. -/
theorem isDigit_iff {character : Char} : character.isDigit = true ↔ IsDigit character := by
  simp [Char.isDigit, IsDigit, Char.le_def]

/-- The letters are the characters that are tested for at the beginning of a word. -/
theorem isNameStart_iff {character : Char} :
    isNameStart character = true ↔ IsLetter character := by
  delta isNameStart Char.isAlpha Char.isUpper Char.isLower IsLetter
  simp [Char.le_def, or_assoc]

/-- The letters and digits are the characters that are tested for inside a word. -/
theorem isNamePart_iff {character : Char} :
    isNamePart character = true ↔ IsLetter character ∨ IsDigit character := by
  rw [← isNameStart_iff, ← isDigit_iff]
  simp [isNamePart, isNameStart, Char.isAlphanum, or_right_comm]

instance : DecidablePred IsDigit := fun _ => decidable_of_iff _ isDigit_iff

instance : DecidablePred IsLetter := fun _ => decidable_of_iff _ isNameStart_iff

/-- One or more digits. -/
def IsNumeral (text : List Char) : Prop := text ≠ [] ∧ ∀ character ∈ text, IsDigit character

/-- A letter, and letters and digits after it. -/
def IsWord (text : List Char) : Prop :=
  ∃ first rest, text = first :: rest ∧ IsLetter first ∧
    ∀ character ∈ rest, IsLetter character ∨ IsDigit character

/-- The texts of tokens. -/
def IsTokenText (text : List Char) : Prop :=
  IsNumeral text ∨ IsWord text ∨ ∃ sign : Symbol, sign.spelling.toList = text

/-- The number that digits denote, of which the last one counts ones. -/
def decimal (text : List Char) : Nat :=
  Nat.ofDigits 10 (text.reverse.map fun character => character.toNat - '0'.toNat)

/-- A piece of a text. -/
inductive Piece where
  /-- A character that separates tokens. -/
  | blank (character : Char)
  /-- A token. -/
  | token (kind : TokenKind) (text : List Char)
  /-- A number that is no script integer. -/
  | oversized (text : List Char)
  /-- A character outside the language. -/
  | stray (character : Char)

/-- The characters of a piece. -/
def Piece.text : Piece → List Char
  | .blank character | .stray character => [character]
  | .token _ text | .oversized text => text

/-- What the text of a token is read as. -/
inductive ReadAs (text : List Char) : Piece → Prop
  | number {value : Int64} (digits : IsNumeral text) (same : value.toInt = decimal text) :
    ReadAs text (.token (.number value) text)
  | oversized (digits : IsNumeral text) (large : Integer.greatest < decimal text) :
    ReadAs text (.oversized text)
  | keyword {word : Keyword} (spelled : word.spelling.toList = text) :
    ReadAs text (.token (.keyword word) text)
  | name (word : IsWord text) (free : ∀ keyword : Keyword, keyword.spelling.toList ≠ text) :
    ReadAs text (.token (.identifier (String.ofList text)) text)
  | symbol {sign : Symbol} (spelled : sign.spelling.toList = text) :
    ReadAs text (.token (.symbol sign) text)

/-- No longer text of a token begins where a text does. -/
def Longest (text rest : List Char) : Prop :=
  ∀ more, more <+: rest → IsTokenText (text ++ more) → more = []

/-- A source begins with a piece before the rest of it. -/
inductive Cut (source rest : List Char) : Piece → Prop
  | blank {character : Char} (begins : source = character :: rest)
    (separates : character ∈ blanks) : Cut source rest (.blank character)
  | token {text : List Char} {piece : Piece} (begins : source = text ++ rest)
    (read : ReadAs text piece) (longest : Longest text rest) : Cut source rest piece
  | stray {character : Char} (begins : source = character :: rest)
    (visible : character ∉ blanks)
    (outside : ∀ text, text <+: source → ¬IsTokenText text) : Cut source rest (.stray character)

/-- The pieces of a text, from left to right. -/
inductive Munched : List Char → List Piece → Prop
  | done : Munched [] []
  | next {source rest : List Char} {piece : Piece} {pieces : List Piece}
    (cut : Cut source rest piece) (others : Munched rest pieces) :
    Munched source (piece :: pieces)

/-- A digit is no letter. -/
theorem IsDigit.not_letter {character : Char} (digit : IsDigit character) :
    ¬IsLetter character := by
  rintro (⟨low, _⟩ | ⟨low, _⟩ | rfl)
  · exact absurd (Char.le_trans low digit.2) (by decide)
  · exact absurd (Char.le_trans low digit.2) (by decide)
  · exact absurd digit (by decide)

/-- What begins the text of a symbol is neither a digit nor a letter nor a blank. -/
theorem Symbol.spelling_first (sign : Symbol) :
    ∃ first rest, sign.spelling.toList = first :: rest ∧ ¬IsDigit first ∧ ¬IsLetter first ∧
      first ∉ blanks := by
  cases sign <;> exact ⟨_, _, rfl, by decide, by decide, by decide⟩

/-- Every symbol is listed. -/
theorem Symbol.mem_all (sign : Symbol) : sign ∈ all := by
  cases sign <;> decide

/-- Symbols are told apart by their spelling. -/
theorem Symbol.spelling_injective {one two : Symbol} (same : one.spelling = two.spelling) :
    one = two := by
  have distinct : ∀ one ∈ all, ∀ two ∈ all, one.spelling = two.spelling → one = two := by decide
  exact distinct one one.mem_all two two.mem_all same

/-- Every reserved word is listed. -/
theorem Keyword.mem_all (word : Keyword) : word ∈ all := by
  rcases word with _ | _ | _ | _ | ⟨_ | _⟩ | _ | _ | _ | ⟨_ | _ | _ | _⟩ <;> decide

/-- Reserved words are told apart by their spelling. -/
theorem Keyword.spelling_injective {one two : Keyword} (same : one.spelling = two.spelling) :
    one = two := by
  have distinct : ∀ one ∈ all, ∀ two ∈ all, one.spelling = two.spelling → one = two := by decide
  exact distinct one one.mem_all two two.mem_all same

/-- Every reserved word is a word. -/
theorem Keyword.isWord_spelling (word : Keyword) : IsWord word.spelling.toList := by
  rcases word with _ | _ | _ | _ | ⟨_ | _⟩ | _ | _ | _ | ⟨_ | _ | _ | _⟩ <;>
    exact ⟨_, _, rfl, by decide, fun _ found =>
      isNamePart_iff.mp (List.all_eq_true.mp (by decide) _ found)⟩

/-- A number begins with a digit. -/
theorem IsNumeral.first {first : Char} {rest : List Char} (digits : IsNumeral (first :: rest)) :
    IsDigit first :=
  digits.2 first List.mem_cons_self

/-- A word begins with a letter. -/
theorem IsWord.first {first : Char} {rest : List Char} (word : IsWord (first :: rest)) :
    IsLetter first := by
  obtain ⟨_, _, same, letter, _⟩ := word
  cases same
  exact letter

/-- A number is no word. -/
theorem IsNumeral.not_word {text : List Char} (digits : IsNumeral text) : ¬IsWord text := by
  rintro ⟨first, rest, rfl, letter, _⟩
  exact digits.first.not_letter letter

/-- A number is no symbol. -/
theorem IsNumeral.not_symbol {text : List Char} (digits : IsNumeral text) (sign : Symbol) :
    sign.spelling.toList ≠ text := by
  rintro rfl
  obtain ⟨first, rest, spelled, other, _⟩ := sign.spelling_first
  rw [spelled] at digits
  exact other digits.first

/-- A word is no symbol. -/
theorem IsWord.not_symbol {text : List Char} (word : IsWord text) (sign : Symbol) :
    sign.spelling.toList ≠ text := by
  rintro rfl
  obtain ⟨first, rest, spelled, _, other, _⟩ := sign.spelling_first
  rw [spelled] at word
  exact other word.first

/-- What is read as a token is the text of one. -/
theorem ReadAs.tokenText {text : List Char} {piece : Piece} (read : ReadAs text piece) :
    IsTokenText text := by
  cases read with
  | number digits _ | oversized digits _ => exact .inl digits
  | @keyword word spelled => exact .inr (.inl (spelled ▸ word.isWord_spelling))
  | name word _ => exact .inr (.inl word)
  | @symbol sign spelled => exact .inr (.inr ⟨sign, spelled⟩)

/-- A text is read as one token only. -/
theorem ReadAs.unique {text : List Char} {one two : Piece} (first : ReadAs text one)
    (second : ReadAs text two) : one = two := by
  have fits {value : Int64} (same : value.toInt = decimal text) :
      ¬Integer.greatest < decimal text := by
    have range := Integer.inRange value
    omega
  cases first with
  | number digits same =>
    cases second with
    | number _ other => rw [Int64.toInt_inj.mp (same.trans other.symm)]
    | oversized _ large => exact absurd large (fits same)
    | @keyword word spelled => exact absurd (spelled ▸ word.isWord_spelling) digits.not_word
    | name word _ => exact absurd word digits.not_word
    | symbol spelled => exact absurd spelled (digits.not_symbol _)
  | oversized digits large =>
    cases second with
    | number _ same => exact absurd large (fits same)
    | oversized _ _ => rfl
    | @keyword word spelled => exact absurd (spelled ▸ word.isWord_spelling) digits.not_word
    | name word _ => exact absurd word digits.not_word
    | symbol spelled => exact absurd spelled (digits.not_symbol _)
  | @keyword word spelled =>
    cases second with
    | number digits _ | oversized digits _ =>
      exact absurd (spelled ▸ word.isWord_spelling) digits.not_word
    | keyword other =>
      rw [Keyword.spelling_injective (String.toList_inj.mp (spelled.trans other.symm))]
    | name _ free => exact absurd spelled (free word)
    | symbol sign => exact absurd sign (IsWord.not_symbol (spelled ▸ word.isWord_spelling) _)
  | name word free =>
    cases second with
    | number digits _ | oversized digits _ => exact absurd word digits.not_word
    | keyword spelled => exact absurd spelled (free _)
    | name _ _ => rfl
    | symbol sign => exact absurd sign (word.not_symbol _)
  | @symbol sign spelled =>
    cases second with
    | number digits _ | oversized digits _ => exact absurd spelled (digits.not_symbol _)
    | @keyword word other =>
      exact absurd spelled (IsWord.not_symbol (other ▸ word.isWord_spelling) _)
    | name word _ => exact absurd spelled (word.not_symbol _)
    | symbol other =>
      rw [Symbol.spelling_injective (String.toList_inj.mp (spelled.trans other.symm))]

/-- No blank is in the text of a token. -/
theorem IsTokenText.visible {text : List Char} (token : IsTokenText text) :
    ∀ character ∈ text, character ∉ blanks := by
  have apart {character : Char} (blank : character ∈ blanks) :
      ¬IsDigit character ∧ ¬IsLetter character := by
    simp only [blanks, List.mem_cons, List.not_mem_nil, or_false] at blank
    rcases blank with rfl | rfl | rfl | rfl <;> decide
  intro character member blank
  rcases token with digits | ⟨first, rest, rfl, letter, parts⟩ | ⟨sign, rfl⟩
  · exact (apart blank).1 (digits.2 character member)
  · rcases List.mem_cons.mp member with rfl | later
    · exact (apart blank).2 letter
    · exact not_or.mpr (apart blank).symm (parts character later)
  · revert character
    cases sign <;> simp [Symbol.spelling, blanks]

/-- The text of a token begins with a character that is no blank. -/
theorem IsTokenText.first {text : List Char} (token : IsTokenText text) :
    ∃ first rest, text = first :: rest ∧ first ∉ blanks := by
  have some : text ≠ [] := by
    rcases token with digits | ⟨first, rest, rfl, _⟩ | ⟨sign, rfl⟩
    · exact digits.1
    · exact List.cons_ne_nil _ _
    · obtain ⟨first, rest, spelled, _⟩ := sign.spelling_first
      exact spelled ▸ List.cons_ne_nil _ _
  obtain ⟨first, rest, rfl⟩ := List.exists_cons_of_ne_nil some
  exact ⟨first, rest, rfl, token.visible first List.mem_cons_self⟩

/-- Two longest texts of tokens at the beginning of a source are the same. -/
theorem Longest.unique {one two left right : List Char} (first : Longest one left)
    (second : Longest two right) (tokenOne : IsTokenText one) (tokenTwo : IsTokenText two)
    (same : one ++ left = two ++ right) : one = two ∧ left = right := by
  rcases List.append_eq_append_iff.mp same with ⟨more, rfl, rfl⟩ | ⟨more, rfl, rfl⟩
  · have none := first more (List.prefix_append _ _) tokenTwo
    subst none
    simp
  · have none := second more (List.prefix_append _ _) tokenOne
    subst none
    simp

/-- A source begins with one piece only. -/
theorem Cut.unique {source left right : List Char} {one two : Piece} (first : Cut source left one)
    (second : Cut source right two) : one = two ∧ left = right := by
  cases first with
  | blank begins separates =>
    cases second with
    | blank other _ =>
      rw [begins] at other
      cases other
      exact ⟨rfl, rfl⟩
    | token other read _ =>
      obtain ⟨_, _, rfl, visible⟩ := read.tokenText.first
      rw [begins] at other
      cases other
      exact absurd separates visible
    | stray other visible _ =>
      rw [begins] at other
      cases other
      exact absurd separates visible
  | token begins read longest =>
    cases second with
    | blank other separates =>
      obtain ⟨_, _, rfl, visible⟩ := read.tokenText.first
      rw [begins] at other
      cases other
      exact absurd separates visible
    | token other reads more =>
      obtain ⟨rfl, rfl⟩ := longest.unique more read.tokenText reads.tokenText
        (begins.symm.trans other)
      exact ⟨read.unique reads, rfl⟩
    | stray _ _ outside =>
      exact absurd read.tokenText (outside _ (begins ▸ List.prefix_append _ _))
  | stray begins visible outside =>
    cases second with
    | blank other separates =>
      rw [begins] at other
      cases other
      exact absurd separates visible
    | token other read _ =>
      exact absurd read.tokenText (outside _ (other ▸ List.prefix_append _ _))
    | stray other _ _ =>
      rw [begins] at other
      cases other
      exact ⟨rfl, rfl⟩

/-- A piece has the characters that were cut off. -/
theorem Cut.text_append {source rest : List Char} {piece : Piece} (cut : Cut source rest piece) :
    piece.text ++ rest = source := by
  cases cut with
  | blank begins _ | stray begins _ _ => exact begins.symm
  | token begins read _ => cases read <;> exact begins.symm

/-- A source without characters begins with no piece. -/
theorem Cut.ne_nil {source rest : List Char} {piece : Piece} (cut : Cut source rest piece) :
    source ≠ [] := by
  cases cut with
  | blank begins _ | stray begins _ _ => simp [begins]
  | token begins read _ =>
    obtain ⟨_, _, rfl, _⟩ := read.tokenText.first
    simp [begins]

/-- A text has one list of pieces. -/
theorem Munched.unique {source : List Char} {one two : List Piece} (first : Munched source one)
    (second : Munched source two) : one = two := by
  induction first generalizing two with
  | done =>
    cases second with
    | done => rfl
    | next cut _ => exact absurd rfl cut.ne_nil
  | next cut _ ih =>
    cases second with
    | done => exact absurd rfl cut.ne_nil
    | next other others =>
      obtain ⟨rfl, rfl⟩ := cut.unique other
      rw [ih others]

/-- The pieces of a text together are the text. -/
theorem Munched.text {source : List Char} {pieces : List Piece} (munched : Munched source pieces) :
    pieces.flatMap Piece.text = source := by
  induction munched with
  | done => rfl
  | next cut _ ih => rw [List.flatMap_cons, ih, cut.text_append]

/-- The piece that a lexeme is. -/
def Lexeme.piece : Lexeme → Piece
  | .blank character => .blank character
  | .numeral value digits => .token (.number value) digits
  | .oversized digits => .oversized digits
  | .word characters =>
    match Keyword.ofSpelling? (String.ofList characters) with
    | some keyword => .token (.keyword keyword) characters
    | none => .token (.identifier (String.ofList characters)) characters
  | .symbol sign => .token (.symbol sign) sign.spelling.toList
  | .stray character => .stray character

/-- The blanks are the characters that are tested for. -/
theorem isBlank_iff {character : Char} : isBlank character = true ↔ character ∈ blanks := by
  simp [isBlank, blanks, or_assoc]

/-- Reading digits from left to right gives the number that they denote. -/
theorem value_eq_decimal (text : List Char) : Numeral.value text = decimal text := by
  induction text using List.reverseRecOn with
  | nil => rfl
  | append_singleton text character ih =>
    rw [Numeral.value_append_digit, ih]
    simp only [decimal, List.reverse_append, List.reverse_singleton, List.singleton_append,
      List.map_cons, Nat.ofDigits_cons]
    exact Nat.add_comm _ _

/-- A run of digits is read as the number that it denotes, or as one that is too large. -/
theorem Lexeme.readAs_ofDigits {digits : List Char} (numeral : IsNumeral digits) :
    ReadAs digits (ofDigits digits).piece := by
  unfold ofDigits
  split
  · rename_i value fits
    rw [value_eq_decimal] at fits
    exact .number numeral (Integer.fit?_eq_some_iff.mp fits)
  · rename_i large
    rw [value_eq_decimal, Integer.fit?, ite_eq_right_iff] at large
    refine .oversized numeral (not_le.mp fun small => ?_)
    exact absurd (large ⟨by unfold Integer.least; omega, small⟩) (by simp)

/-- A word is read as the reserved word that it spells, or as a name. -/
theorem Lexeme.readAs_word {characters : List Char} (word : IsWord characters) :
    ReadAs characters (Lexeme.word characters).piece := by
  unfold piece
  dsimp only
  split
  · rename_i keyword found
    have spelled := List.find?_some found
    rw [decide_eq_true_eq] at spelled
    exact .keyword (by rw [spelled, String.toList_ofList])
  · rename_i missing
    refine .name word fun keyword spelled => ?_
    have other := List.find?_eq_none.mp missing keyword keyword.mem_all
    exact other (by rw [← spelled, String.ofList_toList, decide_eq_true_eq])

/-- A text of a token that begins with a digit is a number. -/
theorem IsTokenText.of_digit {first : Char} {rest : List Char}
    (token : IsTokenText (first :: rest)) (digit : IsDigit first) : IsNumeral (first :: rest) := by
  rcases token with digits | word | ⟨sign, spelled⟩
  · exact digits
  · exact absurd word.first digit.not_letter
  · obtain ⟨_, _, same, other, _⟩ := sign.spelling_first
    rw [spelled] at same
    cases same
    exact absurd digit other

/-- A text of a token that begins with a letter is a word. -/
theorem IsTokenText.of_letter {first : Char} {rest : List Char}
    (token : IsTokenText (first :: rest)) (letter : IsLetter first) : IsWord (first :: rest) := by
  rcases token with digits | word | ⟨sign, spelled⟩
  · exact absurd letter digits.first.not_letter
  · exact word
  · obtain ⟨_, _, same, _, other, _⟩ := sign.spelling_first
    rw [spelled] at same
    cases same
    exact absurd letter other

/-- A symbol other than the double equals sign is the symbol of its one character. -/
theorem Symbol.spelling_cases (sign : Symbol) :
    sign.spelling.toList = ['=', '='] ∨
      ∃ character, sign.spelling.toList = [character] ∧ ofCharacter? character = some sign := by
  cases sign with
  | equal => exact .inl rfl
  | _ => exact .inr ⟨_, rfl, by decide⟩

/-- A text of a token that begins with neither a digit nor a letter is a double equals sign or one
character with a symbol of its own. -/
theorem IsTokenText.of_other {first : Char} {rest : List Char}
    (token : IsTokenText (first :: rest)) (noDigit : ¬IsDigit first) (noLetter : ¬IsLetter first) :
    (first = '=' ∧ rest = ['=']) ∨
      rest = [] ∧ ∃ sign, Symbol.ofCharacter? first = some sign := by
  rcases token with digits | word | ⟨sign, spelled⟩
  · exact absurd digits.first noDigit
  · exact absurd word.first noLetter
  · rcases sign.spelling_cases with double | ⟨character, single, found⟩
    · rw [spelled] at double
      cases double
      exact .inl ⟨rfl, rfl⟩
    · rw [spelled] at single
      cases single
      exact .inr ⟨rfl, sign, found⟩

/-- A run of characters of a class is longest if every longer text of a token continues it with
characters of the class. -/
theorem longest_takeWhile {first : Char} {rest : List Char} {part : Char → Bool}
    (continues : ∀ more, IsTokenText (first :: rest.takeWhile part ++ more) →
      ∀ character ∈ more, part character = true) :
    Longest (first :: rest.takeWhile part) (rest.dropWhile part) := by
  intro more begins token
  cases more with
  | nil => rfl
  | cons next others =>
    obtain ⟨after, same⟩ := begins
    have inside := continues _ token next List.mem_cons_self
    have outside := List.head?_dropWhile_not part rest
    rw [← same] at outside
    simp [inside] at outside

/-- A run of digits is the longest number where it begins. -/
theorem Lexeme.longest_digits {first : Char} (digit : IsDigit first) (rest : List Char) :
    Longest (first :: rest.takeWhile Char.isDigit) (rest.dropWhile Char.isDigit) := by
  refine longest_takeWhile fun more token character found => ?_
  have numeral := IsTokenText.of_digit token digit
  exact isDigit_iff.mpr (numeral.2 character (by simp [found]))

/-- A run of letters and digits is the longest word where it begins. -/
theorem Lexeme.longest_word {first : Char} (letter : IsLetter first) (rest : List Char) :
    Longest (first :: rest.takeWhile isNamePart) (rest.dropWhile isNamePart) := by
  refine longest_takeWhile fun more token character found => ?_
  obtain ⟨_, _, same, _, parts⟩ := IsTokenText.of_letter token letter
  cases same
  exact isNamePart_iff.mpr (parts character (by simp [found]))

/-- A symbol is a piece where its spelling is the longest text of a token. -/
theorem Lexeme.cut_symbol {sign : Symbol} {text rest : List Char}
    (spelled : sign.spelling.toList = text) (longest : Longest text rest) :
    Cut (text ++ rest) rest (Lexeme.symbol sign).piece := by
  subst spelled
  exact .token rfl (.symbol rfl) longest

/-- The lexeme that begins a text is the piece that begins it. -/
theorem Lexeme.cut_next (character : Char) (rest : List Char) :
    Cut (character :: rest) (next character rest).2 (next character rest).1.piece := by
  unfold next
  split
  · rename_i blank
    exact .blank rfl (isBlank_iff.mp blank)
  rename_i visible
  rw [isBlank_iff] at visible
  split
  · rename_i digit
    rw [isDigit_iff] at digit
    have numeral : IsNumeral (character :: rest.takeWhile Char.isDigit) := by
      refine ⟨by simp, List.forall_mem_cons.mpr ⟨digit, fun other found => ?_⟩⟩
      exact isDigit_iff.mp (List.all_eq_true.mp List.all_takeWhile other found)
    refine .token ?_ (readAs_ofDigits numeral) (longest_digits digit rest)
    simp
  rename_i noDigit
  rw [isDigit_iff] at noDigit
  split
  · rename_i letter
    rw [isNameStart_iff] at letter
    have word : IsWord (character :: rest.takeWhile isNamePart) :=
      ⟨_, _, rfl, letter, fun other found =>
        isNamePart_iff.mp (List.all_eq_true.mp List.all_takeWhile other found)⟩
    refine .token ?_ (readAs_word word) (longest_word letter rest)
    simp
  rename_i noLetter
  rw [isNameStart_iff] at noLetter
  split
  · rename_i equals
    subst equals
    split
    · rename_i rest
      have spelled : Symbol.equal.spelling.toList = ['=', '='] := rfl
      refine cut_symbol spelled fun more _ token => ?_
      rcases IsTokenText.of_other token noDigit noLetter with ⟨_, same⟩ | ⟨absurd, _⟩
      · exact (List.cons.inj same).2
      · cases absurd
    · rename_i single
      have spelled : Symbol.assign.spelling.toList = ['='] := rfl
      refine cut_symbol spelled fun more begins token => ?_
      rcases IsTokenText.of_other token noDigit noLetter with ⟨_, same⟩ | ⟨same, _⟩
      · obtain ⟨after, split⟩ := begins
        rw [show more = ['='] from same] at split
        exact absurd split.symm (single after)
      · exact same
  · rename_i different
    split
    · rename_i sign found
      refine cut_symbol (Symbol.spelling_of_ofCharacter? found) fun more _ token => ?_
      rcases IsTokenText.of_other token noDigit noLetter with ⟨absurd, _⟩ | ⟨same, _⟩
      · exact (different absurd).elim
      · exact same
    · rename_i missing
      refine .stray rfl visible fun text begins token => ?_
      obtain ⟨first, others, rfl, _⟩ := token.first
      obtain ⟨after, same⟩ := begins
      cases same
      rcases token.of_other noDigit noLetter with ⟨absurd, _⟩ | ⟨_, sign, found⟩
      · exact different absurd
      · rw [missing] at found
        cases found

/-- The lexemes of a text are its pieces. -/
theorem munched_lexemes (text : List Char) : Munched text ((lexemes text).map Lexeme.piece) := by
  fun_induction lexemes text with
  | case1 => exact .done
  | case2 character rest ih => exact .next (Lexeme.cut_next character rest) ih

end Waggle
