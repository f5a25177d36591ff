import Waggle.Text.Numeral

/-!
# Escaped characters

A character of a script is quoted in a message so that the message stays on one line of
printable ASCII: tab, carriage return, line feed, both quotes and the backslash have a short
escape, printable ASCII stands for itself, and every other character is written as its code
point in hexadecimal braces.
-/

namespace Waggle

/-- A code point in lower-case hexadecimal between braces, as in `\u{1f41d}`. -/
def codePointEscape (character : Char) : List Char :=
  '\\' :: 'u' :: '\x7b' :: (Numeral.digits 16 character.toNat ++ ['\x7d'])

/-- A character as it is quoted in a message, in printable ASCII only. -/
def escapeCharacter (character : Char) : List Char :=
  match character with
  | '\t' => ['\\', 't']
  | '\r' => ['\\', 'r']
  | '\n' => ['\\', 'n']
  | '\'' => ['\\', '\'']
  | '"' => ['\\', '"']
  | '\\' => ['\\', '\\']
  | _ =>
    if 0x20 ≤ character.toNat ∧ character.toNat ≤ 0x7e then [character]
    else codePointEscape character

end Waggle
