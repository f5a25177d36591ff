import Waggle.Text.Numeral

/-!
# Strings in JSON

Between its quotes a string is written with an escape for the quote, the backslash and the
control characters, and all else as it is. Reading takes every escape of JSON. An escape by
four hexadecimal digits stands for a character, or is one half of a surrogate pair, of which
only a high one followed by a low one has a meaning.
-/

namespace Waggle.JsonText

/-- A character as it is written between quotes. -/
def escapeCharacter (character : Char) : List Char :=
  match character with
  | '"' => ['\\', '"']
  | '\\' => ['\\', '\\']
  | '\x08' => ['\\', 'b']
  | '\t' => ['\\', 't']
  | '\n' => ['\\', 'n']
  | '\x0c' => ['\\', 'f']
  | '\r' => ['\\', 'r']
  | _ =>
    if character.toNat < 0x20 then
      ['\\', 'u', '0', '0', Numeral.digit (character.toNat / 16),
        Numeral.digit (character.toNat % 16)]
    else
      [character]

/-- A text as it is written between quotes. -/
def escape (text : List Char) : List Char := text.flatMap escapeCharacter

/-- The value of a hexadecimal digit. -/
def hexValue? (character : Char) : Option Nat :=
  if '0' ≤ character ∧ character ≤ '9' then some (character.toNat - 48)
  else if 'a' ≤ character ∧ character ≤ 'f' then some (character.toNat - 87)
  else if 'A' ≤ character ∧ character ≤ 'F' then some (character.toNat - 55)
  else none

/-- The number of four hexadecimal digits. -/
def unit? (a b c d : Char) : Option Nat := do
  return (((← hexValue? a) * 16 + (← hexValue? b)) * 16 + (← hexValue? c)) * 16 + (← hexValue? d)

/-- Whether a number is the first half of a surrogate pair. -/
def isHighSurrogate (unit : Nat) : Bool := 0xd800 ≤ unit && unit < 0xdc00

/-- Whether a number is the second half of a surrogate pair. -/
def isLowSurrogate (unit : Nat) : Bool := 0xdc00 ≤ unit && unit < 0xe000

/-- The character of a surrogate pair. -/
def joinSurrogates (high low : Nat) : Char :=
  Char.ofNat (0x10000 + (high - 0xd800) * 0x400 + (low - 0xdc00))

/-- The character of an escape by one letter. -/
def shortEscape? : Char → Option Char
  | '"' => some '"'
  | '\\' => some '\\'
  | '/' => some '/'
  | 'b' => some '\x08'
  | 'f' => some '\x0c'
  | 'n' => some '\n'
  | 'r' => some '\r'
  | 't' => some '\t'
  | _ => none

/-- The text that is written between quotes, if it denotes one. -/
def unescape : List Char → Option (List Char)
  | [] => some []
  | '\\' :: 'u' :: a :: b :: c :: d :: rest => do
    let unit ← unit? a b c d
    if isHighSurrogate unit then
      match rest with
      | '\\' :: 'u' :: a :: b :: c :: d :: rest =>
        let low ← unit? a b c d
        if isLowSurrogate low then
          return joinSurrogates unit low :: (← unescape rest)
        else
          none
      | _ => none
    else if isLowSurrogate unit then
      none
    else
      return Char.ofNat unit :: (← unescape rest)
  | '\\' :: letter :: rest => return (← shortEscape? letter) :: (← unescape rest)
  | character :: rest => return character :: (← unescape rest)

end Waggle.JsonText
