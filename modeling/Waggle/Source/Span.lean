import Waggle.Text.Numeral

/-!
# Places in a script

A position is a line and a column, both counted from one, and columns count characters. A
span runs from the position of a first character to the position of a last one. Positions
are ordered as they are read, and the merge of two spans is the smallest span over both.
-/

namespace Waggle

/-- The place of one character. -/
structure Position where
  /-- The line, counted from one. -/
  line : UInt32
  /-- The column, counted from one in characters. -/
  column : UInt32
deriving DecidableEq, Inhabited

namespace Position

/-- The first character of a script. -/
def first : Position := ⟨1, 1⟩

/-- The place after a character: a line feed starts the next line. -/
def after (position : Position) (character : Char) : Position :=
  if character = '\n' then ⟨position.line + 1, 1⟩ else ⟨position.line, position.column + 1⟩

/-- Reading order, by line and then by column. -/
instance : LE Position where
  le left right :=
    left.line < right.line ∨ (left.line = right.line ∧ left.column ≤ right.column)

instance (left right : Position) : Decidable (left ≤ right) :=
  inferInstanceAs (Decidable (_ ∨ _))

/-- The earlier of two positions. -/
instance : Min Position := minOfLe

/-- The later of two positions. -/
instance : Max Position := maxOfLe

end Position

/-- A stretch of a script, from its first character to its last. -/
structure Span where
  /-- The place of the first character. -/
  start : Position
  /-- The place of the last character. -/
  stop : Position
deriving DecidableEq, Inhabited

namespace Span

/-- The span of one place. -/
def point (position : Position) : Span := ⟨position, position⟩

/-- The span of a nonempty text that begins at a position. -/
def covering (start : Position) (text : List Char) : Span :=
  ⟨start, text.dropLast.foldl Position.after start⟩

/-- The smallest span that covers two. -/
def merge (left right : Span) : Span :=
  ⟨min left.start right.start, max left.stop right.stop⟩

/-- A span is shown by where it starts. -/
def text (span : Span) : String :=
  Numeral.ofNat span.start.line.toNat ++ ":" ++ Numeral.ofNat span.start.column.toNat

end Span

end Waggle
