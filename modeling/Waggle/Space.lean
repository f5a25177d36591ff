import Waggle.Integer
import Waggle.Text.Numeral

/-!
# Space

The world is a grid of cells with three integer coordinates, the second one pointing up. Its
four directions lie in the plane of the first and the third. Positions and offsets are the
same vectors, and a sum stops at the ends of the integer range instead of leaving it.
-/

namespace Waggle

/-- A compass direction. -/
inductive Direction where
  | north
  | south
  | east
  | west
deriving DecidableEq, Inhabited

/-- A position in the world, or an offset between two. -/
structure Vec3 where
  /-- East, counted from the origin. -/
  x : Int64
  /-- Up, counted from the origin. -/
  y : Int64
  /-- North, counted from the origin. -/
  z : Int64
deriving DecidableEq, Inhabited

namespace Vec3

/-- The origin. -/
def zero : Vec3 := ⟨0, 0, 0⟩

/-- The vector of a list of coordinates: a missing one is zero, one after the third is unused. -/
def ofCoordinates (coordinates : List Int64) : Vec3 :=
  ⟨coordinates[0]?.getD 0, coordinates[1]?.getD 0, coordinates[2]?.getD 0⟩

/-- The sum of two vectors, each coordinate kept within the range. -/
def offset (position delta : Vec3) : Vec3 where
  x := Integer.clamp (position.x.toInt + delta.x.toInt)
  y := Integer.clamp (position.y.toInt + delta.y.toInt)
  z := Integer.clamp (position.z.toInt + delta.z.toInt)

/-- A vector as its three coordinates in parentheses. -/
def text (vector : Vec3) : String :=
  "(" ++ Numeral.ofInt vector.x.toInt ++ ", " ++ Numeral.ofInt vector.y.toInt ++ ", "
    ++ Numeral.ofInt vector.z.toInt ++ ")"

end Vec3

namespace Direction

/-- Every direction. -/
def all : List Direction := [.north, .south, .east, .west]

/-- The word for a direction. -/
def word : Direction → String
  | .north => "north"
  | .south => "south"
  | .east => "east"
  | .west => "west"

/-- One step in a direction. -/
def unit : Direction → Vec3
  | .north => ⟨0, 0, 1⟩
  | .south => ⟨0, 0, -1⟩
  | .east => ⟨1, 0, 0⟩
  | .west => ⟨-1, 0, 0⟩

end Direction

end Waggle
