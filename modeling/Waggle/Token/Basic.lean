import Waggle.Source.Span
import Waggle.Value

/-!
# Tokens

A script is read as numbers, names, reserved words and symbols, and the end of the input. Each
token carries the text it was read from and its span, but its kind alone decides what it means.
-/

namespace Waggle

/-- The reserved words. -/
inductive Keyword where
  | ifWord
  | elseWord
  | whileWord
  | repeatWord
  | truth (value : Bool)
  | move
  | moveTo
  | attack
  | direction (direction : Direction)
deriving DecidableEq, Inhabited

namespace Keyword

/-- Every reserved word. -/
def all : List Keyword :=
  [.ifWord, .elseWord, .whileWord, .repeatWord, .truth true, .truth false, .move, .moveTo,
    .attack] ++ Direction.all.map .direction

/-- How a reserved word is spelled. -/
def spelling : Keyword → String
  | .ifWord => "if"
  | .elseWord => "else"
  | .whileWord => "while"
  | .repeatWord => "repeat"
  | .truth true => "true"
  | .truth false => "false"
  | .move => "move"
  | .moveTo => "moveto"
  | .attack => "attack"
  | .direction heading => heading.word

/-- The reserved word of a spelling, which is exact in case. -/
def ofSpelling? (word : String) : Option Keyword :=
  all.find? fun keyword => keyword.spelling = word

/-- The spellings that a script cannot use as names. -/
def reserved : List String := all.map spelling

end Keyword

/-- The operators and the punctuation. -/
inductive Symbol where
  | plus
  | minus
  | star
  | slash
  | assign
  | equal
  | leftParen
  | rightParen
  | leftBrace
  | rightBrace
  | semicolon
  | comma
deriving DecidableEq, Inhabited

namespace Symbol

/-- Every symbol. -/
def all : List Symbol :=
  [.plus, .minus, .star, .slash, .assign, .equal, .leftParen, .rightParen, .leftBrace,
    .rightBrace, .semicolon, .comma]

/-- How a symbol is spelled. -/
def spelling : Symbol → String
  | .plus => "+"
  | .minus => "-"
  | .star => "*"
  | .slash => "/"
  | .assign => "="
  | .equal => "=="
  | .leftParen => "("
  | .rightParen => ")"
  | .leftBrace => "\x7b"
  | .rightBrace => "\x7d"
  | .semicolon => ";"
  | .comma => ","

end Symbol

/-- What a token is. -/
inductive TokenKind where
  | number (value : Int64)
  | identifier (name : String)
  | keyword (keyword : Keyword)
  | symbol (symbol : Symbol)
  | endOfInput
deriving DecidableEq, Inhabited

namespace TokenKind

/-- How messages show a token. -/
def text : TokenKind → String
  | .number value => Numeral.ofInt value.toInt
  | .identifier name => name
  | .keyword word => word.spelling
  | .symbol sign => sign.spelling
  | .endOfInput => "end of input"

/-- Whether a token is a reserved word. -/
def isKeyword : TokenKind → Bool
  | .keyword _ => true
  | _ => false

/-- The direction that a token names. -/
def direction? : TokenKind → Option Direction
  | .keyword (.direction heading) => some heading
  | _ => none

end TokenKind

/-- A token with where it was read. -/
structure Token where
  /-- What the token is. -/
  kind : TokenKind
  /-- The characters it was read from. -/
  text : String
  /-- Where they stand. -/
  span : Span
deriving DecidableEq, Inhabited

end Waggle
