import Waggle.Source.Span

/-!
# Scripts and their lines

A script is a text with the name that its host knows it by. Its lines are the pieces between
line feeds, so there is always at least one, and a line is shown without the carriage returns
at its end. To show a line, its bytes are cut from the script: it begins where a table of the
line starts says and ends before the line feed that the next one begins after.
-/

namespace Waggle

/-- The pieces of a text between its line feeds. -/
def splitLines : List Char → List (List Char)
  | [] => [[]]
  | character :: rest =>
    if character = '\n' then [] :: splitLines rest
    else
      match splitLines rest with
      | [] => [[character]]
      | line :: lines => (character :: line) :: lines

/-- A line without the carriage returns at its end. -/
def trimReturns (line : List Char) : List Char :=
  (line.reverse.dropWhile (· == '\r')).reverse

/-- A script together with its name. -/
structure SourceFile where
  /-- The name that the host knows the script by. -/
  name : String
  /-- The script itself. -/
  text : String
deriving DecidableEq, Inhabited

/-- The byte offsets just after the line feeds of a text that begins at an offset. -/
def startsAfterFeeds (offset : Nat) : List Char → List Nat
  | [] => []
  | character :: rest =>
    let next := offset + character.utf8Size
    if character = '\n' then next :: startsAfterFeeds next rest else startsAfterFeeds next rest

namespace SourceFile

/-- The lines of a script, as they are shown. -/
def lines (file : SourceFile) : List String :=
  (splitLines file.text.toList).map fun line => String.ofList (trimReturns line)

/-- The byte offsets at which the lines of a script begin. -/
def lineStarts (file : SourceFile) : List Nat := 0 :: startsAfterFeeds 0 file.text.toList

/-- How many lines a script has. -/
def lineCount (file : SourceFile) : Nat := file.lineStarts.length

/-- The byte offsets at which the line of a number, counted from one, begins and ends, if the
script has it. -/
def lineRange? (file : SourceFile) (number : UInt32) : Option (Nat × Nat) :=
  if number = 0 then none
  else
    match file.lineStarts[number.toNat - 1]?, file.lineStarts[number.toNat]? with
    | some start, some next => some (start, next - 1)
    | some start, none => some (start, file.text.utf8ByteSize)
    | none, _ => none

/-- The line of a number counted from one, if the script has it. -/
def line? (file : SourceFile) (number : UInt32) : Option String :=
  (file.lineRange? number).map fun (start, stop) =>
    String.ofList (trimReturns (String.Pos.Raw.extract file.text ⟨start⟩ ⟨stop⟩).toList)

end SourceFile

end Waggle
