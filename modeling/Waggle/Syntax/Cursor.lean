import Waggle.Diagnostic
import Waggle.Token.Basic

/-!
# Reading tokens

A parser walks over a list of tokens from left to right and stops at the first error. The end
of the list counts as the end of the input, so a list needs no last token of its own. The
cursor also counts how many levels of expressions and blocks are open: `enter` refuses to open
more than `maxNesting`.
-/

namespace Waggle

/-- How many expressions and blocks may be open at once. -/
def maxNesting : Nat := 64

/-- Where a symbol is expected. -/
inductive Place where
  | afterKeyword (keyword : Keyword)
  | beforeBody (keyword : Keyword)
  | afterArguments (keyword : Keyword)
  | afterStatement (keyword : Keyword)
  | afterCondition
  | afterCount
  | afterCallArguments
  | afterExpression
  | afterAssignment
  | closingBlock
  | closingParentheses
deriving DecidableEq, Inhabited

/-- A place as messages name it. -/
def Place.phrase : Place → String
  | .afterKeyword keyword => "after '" ++ keyword.spelling ++ "'"
  | .beforeBody keyword => "before '" ++ keyword.spelling ++ "' body"
  | .afterArguments keyword => "after '" ++ keyword.spelling ++ "' arguments"
  | .afterStatement keyword => "after '" ++ keyword.spelling ++ "' statement"
  | .afterCondition => "after condition"
  | .afterCount => "after repeat count"
  | .afterCallArguments => "after arguments"
  | .afterExpression => "after expression"
  | .afterAssignment => "after assignment"
  | .closingBlock => "to close block"
  | .closingParentheses => "to close parenthesised expression"

/-- Why a list of tokens is no program. -/
inductive SyntaxFault where
  /-- A symbol is missing where it has to stand. -/
  | expectedSymbol (symbol : Symbol) (place : Place) (found : TokenKind)
  /-- No expression begins with the token found. -/
  | expectedExpression (found : TokenKind)
  /-- A move with one argument that is not a direction. -/
  | expectedDirection (found : TokenKind)
  /-- An attack with more than an attacker and a target. -/
  | tooManyArguments
  /-- More coordinates than space has. -/
  | tooManyCoordinates (keyword : Keyword)
  /-- Expressions and blocks nested beyond the limit. -/
  | nestingTooDeep
deriving DecidableEq, Inhabited

namespace SyntaxFault

/-- The number of a fault. -/
def code : SyntaxFault → ErrorCode
  | .expectedSymbol .. | .expectedExpression _ => .unexpectedToken
  | .expectedDirection _ => .expectedDirection
  | .tooManyArguments | .tooManyCoordinates _ => .tooManyArguments
  | .nestingTooDeep => .nestingTooDeep

/-- A fault for a reader. -/
def message : SyntaxFault → String
  | .expectedSymbol symbol place found =>
    "expected '" ++ symbol.spelling ++ "' " ++ place.phrase ++ ", got '" ++ found.text ++ "'"
  | .expectedExpression found => "expected expression, got '" ++ found.text ++ "'"
  | .expectedDirection found =>
    "expected a direction, or a target followed by coordinates, in 'move', got '"
      ++ found.text ++ "'"
  | .tooManyArguments => "too many arguments to 'attack': expected at most 2"
  | .tooManyCoordinates keyword =>
    "too many coordinates in '" ++ keyword.spelling ++ "': expected at most 3"
  | .nestingTooDeep => "nesting too deep: maximum depth is " ++ Numeral.ofNat maxNesting

end SyntaxFault

/-- A fault with the span it is about. -/
structure SyntaxError where
  /-- What is wrong. -/
  fault : SyntaxFault
  /-- Where it is wrong. -/
  span : Span
deriving DecidableEq, Inhabited

/-- A place between two tokens. -/
structure Cursor where
  /-- The span of the token before the cursor. -/
  previous : Span
  /-- The tokens after the cursor. -/
  rest : List Token
  /-- How many levels are open. -/
  depth : Nat
deriving DecidableEq, Inhabited

namespace Cursor

/-- The cursor before a list of tokens. -/
def start (tokens : List Token) : Cursor := ⟨.point .first, tokens, 0⟩

/-- The kind of the next token. -/
def kind (cursor : Cursor) : TokenKind :=
  match cursor.rest with
  | token :: _ => token.kind
  | [] => .endOfInput

/-- The kind of the token after the next one. -/
def secondKind (cursor : Cursor) : TokenKind :=
  match cursor.rest with
  | _ :: token :: _ => token.kind
  | _ => .endOfInput

/-- The span of the next token, or of the last one where there is none. -/
def span (cursor : Cursor) : Span :=
  match cursor.rest with
  | token :: _ => token.span
  | [] => cursor.previous

/-- The cursor after the next token. -/
def advance (cursor : Cursor) : Cursor :=
  match cursor.rest with
  | token :: rest => { cursor with previous := token.span, rest }
  | [] => cursor

end Cursor

/-- A reader of tokens that stops at the first error. -/
abbrev Parser (α : Type) := StateT Cursor (Except SyntaxError) α

namespace Parser

/-- The kind of the next token. -/
def peek : Parser TokenKind := return (← get).kind

/-- The kind of the token after the next one. -/
def peekSecond : Parser TokenKind := return (← get).secondKind

/-- The span of the next token. -/
def nextSpan : Parser Span := return (← get).span

/-- The span of the token before the cursor. -/
def previousSpan : Parser Span := return (← get).previous

/-- How many tokens are left. -/
def remaining : Parser Nat := return (← get).rest.length

/-- Steps over the next token. -/
def skip : Parser Unit := modify Cursor.advance

/-- Stops with a fault at a span. -/
def failAt {α : Type} (fault : SyntaxFault) (span : Span) : Parser α := throw ⟨fault, span⟩

/-- Stops with a fault at the next token. -/
def fail {α : Type} (fault : SyntaxFault) : Parser α := do failAt fault (← nextSpan)

/-- Steps over a token if it is the next one, and tells whether it was. -/
def accept (kind : TokenKind) : Parser Bool := do
  if (← peek) = kind then
    skip
    return true
  else
    return false

/-- Steps over a symbol that has to be the next token. -/
def expect (symbol : Symbol) (place : Place) : Parser Unit := do
  let found ← peek
  if found = .symbol symbol then skip else fail (.expectedSymbol symbol place found)

/-- Opens a level, if one is left. -/
def enter : Parser Unit := do
  if maxNesting ≤ (← get).depth then fail .nestingTooDeep
  else modify fun cursor => { cursor with depth := cursor.depth + 1 }

/-- Closes a level. -/
def leave : Parser Unit :=
  modify fun cursor => { cursor with depth := cursor.depth - 1 }

/-- Reads within a level of its own. -/
def nested {α : Type} (parser : Parser α) : Parser α := do
  enter
  let result ← parser
  leave
  return result

end Parser

end Waggle
