import Waggle.Double
import Waggle.Text.Numeral

/-!
# JSON

A JSON text as a tree. Strings and the names of members are kept as they are written between
their quotes: whether one denotes a text is decided when it is read as one, since an escaped
half of a surrogate pair that stands alone denotes none. Members keep their order and may
repeat a name; what that means is for the reader of a record to say.
-/

namespace Waggle

/-- A number of a JSON text. -/
inductive JsonNumber where
  /-- One written with digits alone that a word holds; a negative zero is no integer. -/
  | integer (value : Int)
  /-- Any other, as the significand that was read of it and a power of ten. -/
  | decimal (significand exponent : Int)
deriving DecidableEq, Inhabited

/-- A JSON text. -/
inductive Json where
  | null
  | bool (value : Bool)
  | number (value : JsonNumber)
  /-- A string as it is written between its quotes. -/
  | string (written : List Char)
  | array (items : List Json)
  /-- Members with their names as they are written between their quotes. -/
  | object (members : List (List Char × Json))
deriving Inhabited

/-- The greatest power of ten that a double holds. -/
def maxPowerOfTen : Int := 308

/-- Whether a number, computed as a double, is finite. -/
def JsonNumber.isFinite : JsonNumber → Bool
  | .integer _ => true
  | .decimal significand exponent =>
    significand = 0 ||
      exponent ≤ maxPowerOfTen &&
        Double.scale significand.natAbs exponent.toNat < Double.limit

end Waggle
