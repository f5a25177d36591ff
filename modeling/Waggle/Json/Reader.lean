import Waggle.Integer
import Waggle.Json.Basic
import Waggle.Json.Text

/-!
# Reading JSON

A strict reader: blanks may stand around every token, and nothing else is forgiven. Each function
reads from the front of a text and returns what is left. Recursion follows a number that the
length of the text bounds.
-/

namespace Waggle.JsonReader

/-- The characters between tokens. -/
def isBlank (character : Char) : Bool :=
  character = ' ' || character = '\n' || character = '\t' || character = '\r'

/-- The text without the blanks in front. -/
def skipBlanks (text : List Char) : List Char := text.dropWhile isBlank

/-- A run of digits, of which there has to be one. -/
def digits (text : List Char) : Option (List Char × List Char) :=
  match text.takeWhile Char.isDigit with
  | [] => none
  | run => some (run, text.dropWhile Char.isDigit)

/-- The whole part of a number, which has no needless zero in front. -/
def wholePart (text : List Char) : Option (List Char × List Char) := do
  let (run, rest) ← digits text
  match run with
  | '0' :: _ :: _ => none
  | _ => some (run, rest)

/-- The digits after a point, if there is one. -/
def fractionPart : List Char → Option (Option (List Char) × List Char)
  | '.' :: text => do
    let (run, rest) ← digits text
    some (some run, rest)
  | text => some (none, text)

/-- The digits of an exponent, with a sign or without. -/
def exponentDigits : List Char → Option (Int × List Char)
  | '-' :: text => do
    let (run, rest) ← digits text
    some (-(Numeral.value run : Int), rest)
  | '+' :: text => do
    let (run, rest) ← digits text
    some (Numeral.value run, rest)
  | text => do
    let (run, rest) ← digits text
    some (Numeral.value run, rest)

/-- The exponent, if there is one. -/
def exponentPart : List Char → Option (Option Int × List Char)
  | 'e' :: text => (exponentDigits text).map fun (exponent, rest) => (some exponent, rest)
  | 'E' :: text => (exponentDigits text).map fun (exponent, rest) => (some exponent, rest)
  | text => some (none, text)

/-- A significand with as many digits appended as 64 bits hold, and how many are left out. -/
def appendDigits (significand : Nat) : List Char → Nat × Nat
  | [] => (significand, 0)
  | character :: rest =>
    let longer := 10 * significand + Numeral.digitValue character
    if longer < UInt64.size then appendDigits longer rest else (significand, rest.length + 1)

/-- The integer of a sign and a size, if a word holds it. -/
def wordInteger? (negative : Bool) (size : Nat) : Option Int :=
  if negative then if 0 < size ∧ Integer.least ≤ -size then some (-size) else none
  else some size

/-- The number of its parts; a digit of the whole part that is left out is a power of ten. -/
def assembleNumber (negative : Bool) (whole : List Char) (fraction : Option (List Char))
    (exponent : Option Int) : JsonNumber :=
  let places := fraction.getD []
  let (wholeSize, wholeLeft) := appendDigits 0 whole
  let (size, placesLeft) := appendDigits wholeSize places
  let scaled : JsonNumber :=
    .decimal (if negative then -size else size)
      (exponent.getD 0 + wholeLeft - (places.length - placesLeft))
  if fraction.isNone && exponent.isNone && wholeLeft = 0 then
    ((wordInteger? negative size).map .integer).getD scaled
  else scaled

/-- A number after its sign. -/
def unsignedNumber (negative : Bool) (text : List Char) : Option (Json × List Char) := do
  let (whole, text) ← wholePart text
  let (fraction, text) ← fractionPart text
  let (exponent, text) ← exponentPart text
  some (.number (assembleNumber negative whole fraction exponent), text)

/-- A number. -/
def number : List Char → Option (Json × List Char)
  | '-' :: text => unsignedNumber true text
  | text => unsignedNumber false text

/-- What is written up to a closing quote. -/
def quoted : List Char → Option (List Char × List Char)
  | [] => none
  | '"' :: rest => some ([], rest)
  | '\\' :: 'u' :: a :: b :: c :: d :: rest => do
    let _ ← JsonText.unit? a b c d
    let (written, rest) ← quoted rest
    some ('\\' :: 'u' :: a :: b :: c :: d :: written, rest)
  | '\\' :: letter :: rest => do
    let _ ← JsonText.shortEscape? letter
    let (written, rest) ← quoted rest
    some ('\\' :: letter :: written, rest)
  | character :: rest =>
    if character.toNat < 0x20 then none
    else do
      let (written, rest) ← quoted rest
      some (character :: written, rest)

/-- Items with commas between them, up to a closing bracket. -/
def listed {α : Type} (item : List Char → Option (α × List Char)) (closing : Char) :
    (count : Nat) → List Char → Option (List α × List Char)
  | 0, _ => none
  | count + 1, text => do
    let (head, rest) ← item text
    match skipBlanks rest with
    | [] => none
    | character :: rest =>
      if character = closing then some ([head], rest)
      else if character = ',' then do
        let (tail, rest) ← listed item closing count rest
        some (head :: tail, rest)
      else none

/-- Any number of items up to a closing bracket. -/
def listedOrNone {α : Type} (item : List Char → Option (α × List Char)) (closing : Char)
    (text : List Char) : Option (List α × List Char) :=
  match skipBlanks text with
  | [] => none
  | character :: rest =>
    if character = closing then some ([], rest) else listed item closing text.length text

/-- A member of an object, whose value is read by `value`. -/
def member (value : List Char → Option (Json × List Char)) (text : List Char) :
    Option ((List Char × Json) × List Char) :=
  match skipBlanks text with
  | '"' :: rest => do
    let (name, rest) ← quoted rest
    match skipBlanks rest with
    | ':' :: rest =>
      let (content, rest) ← value rest
      some ((name, content), rest)
    | _ => none
  | _ => none

/-- A JSON text within a number of levels. -/
def value : (levels : Nat) → List Char → Option (Json × List Char)
  | 0, _ => none
  | levels + 1, text =>
    match skipBlanks text with
    | 'n' :: 'u' :: 'l' :: 'l' :: rest => some (.null, rest)
    | 't' :: 'r' :: 'u' :: 'e' :: rest => some (.bool true, rest)
    | 'f' :: 'a' :: 'l' :: 's' :: 'e' :: rest => some (.bool false, rest)
    | '"' :: rest => (quoted rest).map fun (written, rest) => (.string written, rest)
    | '[' :: rest =>
      (listedOrNone (value levels) ']' rest).map fun (items, rest) => (.array items, rest)
    | '\x7b' :: rest =>
      (listedOrNone (member (value levels)) '\x7d' rest).map fun (members, rest) =>
        (.object members, rest)
    | rest => number rest

end Waggle.JsonReader

namespace Waggle

/-- The tree of a text that is JSON and nothing else. -/
def Json.parse (text : List Char) : Option Json := do
  let (json, rest) ← JsonReader.value (text.length + 1) text
  if JsonReader.skipBlanks rest = [] then some json else none

end Waggle
