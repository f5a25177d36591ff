import Waggle.Space

/-!
# Values

Scripts compute with integers, truth values, directions and entities of the world. A null
value is never computed by a script, but a host may bind one.
-/

namespace Waggle

/-- A handle to an entity of the world. -/
structure EntityRef where
  /-- The number by which the world knows the entity. -/
  id : UInt64
deriving DecidableEq, Inhabited

/-- An entity as its number behind a mark. -/
def EntityRef.text (entity : EntityRef) : String :=
  "entity#" ++ Numeral.ofNat entity.id.toNat

/-- A value of a script. -/
inductive Value where
  | int (number : Int64)
  | bool (truth : Bool)
  | direction (direction : Direction)
  | entity (entity : EntityRef)
  | null
deriving DecidableEq, Inhabited

namespace Value

/-- The name of a value's type, as messages give it. -/
def typeName : Value → String
  | .int _ => "int"
  | .bool _ => "bool"
  | .direction _ => "direction"
  | .entity _ => "entity"
  | .null => "null"

/-- What a condition makes of a value: null, false and zero do not hold. -/
def truthy : Value → Bool
  | .null => false
  | .bool truth => truth
  | .int number => number != 0
  | .direction _ | .entity _ => true

/-- The integer that a value is. -/
def asInt? : Value → Option Int64
  | .int number => some number
  | _ => none

/-- The entity that a value is. -/
def asEntity? : Value → Option EntityRef
  | .entity handle => some handle
  | _ => none

/-- A value as a script would show it. -/
def text : Value → String
  | .int number => Numeral.ofInt number.toInt
  | .bool true => "true"
  | .bool false => "false"
  | .direction heading => heading.word
  | .entity handle => handle.text
  | .null => "null"

end Value

end Waggle
