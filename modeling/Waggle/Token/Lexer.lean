import Waggle.Diagnostic
import Waggle.Text.Escape
import Waggle.Token.Basic

/-!
# Reading a script as tokens

A text is cut into lexemes from left to right, each one the longest that can begin where it
does. Blanks, literals out of range and characters outside the language are lexemes as well,
so the lexemes of a text together are the text (`text_lexemes`). The tokens of a script are
then those of its lexemes, with their places; reading stops after the twentieth error.
-/

namespace Waggle

/-- The characters between tokens. -/
def isBlank (character : Char) : Bool :=
  character = ' ' || character = '\t' || character = '\r' || character = '\n'

/-- The characters that can begin a name. -/
def isNameStart (character : Char) : Bool := character.isAlpha || character = '_'

/-- The characters that can continue a name. -/
def isNamePart (character : Char) : Bool := character.isAlphanum || character = '_'

/-- The symbol of one character; an equals sign is one of its own here. -/
def Symbol.ofCharacter? (character : Char) : Option Symbol :=
  Symbol.all.find? fun symbol => symbol.spelling = String.singleton character

/-- A piece of a script. -/
inductive Lexeme where
  /-- A character between tokens. -/
  | blank (character : Char)
  /-- The digits of a number that is in range. -/
  | numeral (value : Int64) (digits : List Char)
  /-- The digits of a number that is not. -/
  | oversized (digits : List Char)
  /-- A name or a reserved word. -/
  | word (characters : List Char)
  /-- An operator or a piece of punctuation. -/
  | symbol (symbol : Symbol)
  /-- A character outside the language. -/
  | stray (character : Char)

/-- What can be wrong with a lexeme. -/
inductive LexicalError where
  | unexpectedCharacter (character : Char)
  | outOfRange (digits : List Char)

namespace LexicalError

/-- The number of a lexical error. -/
def code : LexicalError → ErrorCode
  | .unexpectedCharacter _ => .unexpectedCharacter
  | .outOfRange _ => .integerOutOfRange

/-- A lexical error for a reader. -/
def message : LexicalError → String
  | .unexpectedCharacter character =>
    "unexpected character '" ++ String.ofList (escapeCharacter character) ++ "'"
  | .outOfRange digits => "integer literal '" ++ String.ofList digits ++ "' is out of range"

end LexicalError

namespace Lexeme

/-- The characters of a lexeme. -/
def text : Lexeme → List Char
  | .blank character | .stray character => [character]
  | .numeral _ digits | .oversized digits => digits
  | .word characters => characters
  | .symbol sign => sign.spelling.toList

/-- The token that a lexeme stands for; a number out of range is read as zero. -/
def kind? : Lexeme → Option TokenKind
  | .blank _ | .stray _ => none
  | .numeral value _ => some (.number value)
  | .oversized _ => some (.number 0)
  | .word characters =>
    match Keyword.ofSpelling? (String.ofList characters) with
    | some keyword => some (.keyword keyword)
    | none => some (.identifier (String.ofList characters))
  | .symbol sign => some (.symbol sign)

/-- What is wrong with a lexeme. -/
def error? : Lexeme → Option LexicalError
  | .stray character => some (.unexpectedCharacter character)
  | .oversized digits => some (.outOfRange digits)
  | _ => none

/-- The lexeme of a run of digits. -/
def ofDigits (digits : List Char) : Lexeme :=
  match Integer.fit? (Numeral.value digits) with
  | some value => .numeral value digits
  | none => .oversized digits

/-- The lexeme that begins with a character, and the text after it. -/
def next (character : Char) (rest : List Char) : Lexeme × List Char :=
  if isBlank character then (.blank character, rest)
  else if character.isDigit then
    (ofDigits (character :: rest.takeWhile Char.isDigit), rest.dropWhile Char.isDigit)
  else if isNameStart character then
    (.word (character :: rest.takeWhile isNamePart), rest.dropWhile isNamePart)
  else if character = '=' then
    match rest with
    | '=' :: rest => (.symbol .equal, rest)
    | _ => (.symbol .assign, rest)
  else
    match Symbol.ofCharacter? character with
    | some sign => (.symbol sign, rest)
    | none => (.stray character, rest)

end Lexeme

/-- What is left after a lexeme is no longer than what followed its first character. -/
theorem Lexeme.length_next_le (character : Char) (rest : List Char) :
    (next character rest).2.length ≤ rest.length := by
  unfold next
  split
  · exact Nat.le_refl _
  · split
    · exact (List.dropWhile_suffix _).length_le
    · split
      · exact (List.dropWhile_suffix _).length_le
      · split
        · split
          · exact Nat.le_succ _
          · exact Nat.le_refl _
        · split <;> exact Nat.le_refl _

/-- The lexemes of a text. -/
def lexemes : List Char → List Lexeme
  | [] => []
  | character :: rest =>
    (Lexeme.next character rest).1 :: lexemes (Lexeme.next character rest).2
termination_by text => text.length
decreasing_by
  have shorter := Lexeme.length_next_le character rest
  simp only [List.length_cons]
  omega

/-- The characters of a run of digits are the digits. -/
theorem Lexeme.text_ofDigits (digits : List Char) : (ofDigits digits).text = digits := by
  unfold ofDigits
  split <;> rfl

/-- The symbol of a character is spelled by it. -/
theorem Symbol.spelling_of_ofCharacter? {character : Char} {symbol : Symbol}
    (found : ofCharacter? character = some symbol) : symbol.spelling.toList = [character] := by
  have spelled := List.find?_some found
  simp only [decide_eq_true_eq] at spelled
  simp [spelled]

/-- A lexeme and the text after it are the text it was cut from. -/
theorem Lexeme.text_next (character : Char) (rest : List Char) :
    (next character rest).1.text ++ (next character rest).2 = character :: rest := by
  unfold next
  split
  · rfl
  · split
    · simp [text_ofDigits, List.takeWhile_append_dropWhile]
    · split
      · simp [text, List.takeWhile_append_dropWhile]
      · split
        · rename_i equals
          subst equals
          split <;> rfl
        · split
          · rename_i found
            simp [text, Symbol.spelling_of_ofCharacter? found]
          · rfl

/-- The lexemes of a text together are the text. -/
theorem text_lexemes (text : List Char) : (lexemes text).flatMap Lexeme.text = text := by
  fun_induction lexemes text with
  | case1 => rfl
  | case2 character rest ih => rw [List.flatMap_cons, ih, Lexeme.text_next]

/-- The tokens of a script and what is wrong with its lexemes. -/
structure Lexing where
  /-- The tokens, the end of the input last. -/
  tokens : List Token
  /-- The lexical errors. -/
  diagnostics : Diagnostics
deriving DecidableEq, Inhabited

/-- The end of the input, at a position. -/
def Token.endOfInput (position : Position) : Token := ⟨.endOfInput, "", .point position⟩

/-- Reads lexemes from a position on, until there are as many errors as are kept. -/
def SourceFile.readLexemes (file : SourceFile) :
    Position → Diagnostics → List Lexeme → Lexing
  | position, diagnostics, [] => ⟨[.endOfInput position], diagnostics⟩
  | position, diagnostics, lexeme :: rest =>
    if diagnostics.isFull then ⟨[.endOfInput position], diagnostics⟩
    else
      let span := Span.covering position lexeme.text
      let found :=
        match lexeme.error? with
        | some error => diagnostics.push (file.diagnose error.code error.message span)
        | none => diagnostics
      let lexing := file.readLexemes (lexeme.text.foldl Position.after position) found rest
      match lexeme.kind? with
      | some kind =>
        { lexing with tokens := ⟨kind, String.ofList lexeme.text, span⟩ :: lexing.tokens }
      | none => lexing

/-- The tokens of a script. -/
def SourceFile.lex (file : SourceFile) : Lexing :=
  file.readLexemes .first .empty (lexemes file.text.toList)

end Waggle
