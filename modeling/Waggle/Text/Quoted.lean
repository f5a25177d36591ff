import Waggle.Text.Escape
import Waggle.Text.Unseen

/-!
# Quoted text

A text in double quotes as an inspection shows it: quotes, backslashes and the usual control
characters have a short escape, and a character that would not be seen by itself is written as
its code point.
-/

namespace Waggle

/-- A character as it stands between double quotes. -/
def quoteCharacter (character : Char) : List Char :=
  match character with
  | '\x00' => ['\\', '0']
  | '\t' => ['\\', 't']
  | '\r' => ['\\', 'r']
  | '\n' => ['\\', 'n']
  | '"' => ['\\', '"']
  | '\\' => ['\\', '\\']
  | _ => if isUnseen character then codePointEscape character else [character]

/-- A text in double quotes. -/
def quote (text : String) : String :=
  "\"" ++ String.ofList (text.toList.flatMap quoteCharacter) ++ "\""

end Waggle
