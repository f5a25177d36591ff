import Waggle.Json.Basic

/-!
# Writing JSON

A tree is written without blanks, its members in their order.
-/

namespace Waggle

/-- A number as it is written. -/
def JsonNumber.render : JsonNumber → List Char
  | .integer value => Numeral.signed value
  | .decimal significand exponent => Numeral.signed significand ++ 'e' :: Numeral.signed exponent

mutual

/-- A tree as it is written. -/
def Json.render : Json → List Char
  | .null => ['n', 'u', 'l', 'l']
  | .bool true => ['t', 'r', 'u', 'e']
  | .bool false => ['f', 'a', 'l', 's', 'e']
  | .number value => value.render
  | .string written => '"' :: written ++ ['"']
  | .array items => '[' :: renderItems items ++ [']']
  | .object members => '\x7b' :: renderMembers members ++ ['\x7d']

/-- Items with commas between them. -/
def renderItems : List Json → List Char
  | [] => []
  | [item] => item.render
  | item :: rest => item.render ++ ',' :: renderItems rest

/-- Members with commas between them. -/
def renderMembers : List (List Char × Json) → List Char
  | [] => []
  | [(name, value)] => '"' :: name ++ '"' :: ':' :: value.render
  | (name, value) :: rest =>
    '"' :: name ++ '"' :: ':' :: value.render ++ ',' :: renderMembers rest

end

end Waggle
