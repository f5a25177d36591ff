import Waggle.Integer
import Waggle.Json.Printer
import Waggle.Json.Reader

/-!
# Reading values from JSON

A codec writes a value as JSON and reads it back. A record is an object with its members in any
order, members of other names being passed over, or else an array of its values in order; a name
that it needs stands exactly once. One of a few words may also be written as an object with that
word as its only name and null as its value.

Some values cannot be read before all of their members are at hand. Such members are kept, and a
member can be kept only if its strings denote texts, its numbers are finite and it opens no more
levels than the limit leaves. `room` counts those levels. In a kept member an empty object may
stand for null.
-/

namespace Waggle

/-- How many levels a text may open where its members have to be kept. -/
def maxJsonLevels : Nat := 127

/-- The text that is written between quotes. -/
def writtenText? (written : List Char) : Option String :=
  (JsonText.unescape written).map String.ofList

/-- A text as it is written between quotes. -/
def writeText (text : String) : List Char := JsonText.escape text.toList

mutual

/-- Whether a tree can be kept within a number of levels. -/
def Json.canKeep (room : Nat) : Json → Bool
  | .null | .bool _ => true
  | .number value => value.isFinite
  | .string written => (writtenText? written).isSome
  | .array items => 0 < room && canKeepItems (room - 1) items
  | .object members => 0 < room && canKeepMembers (room - 1) members

/-- Whether all items can be kept. -/
def canKeepItems (room : Nat) : List Json → Bool
  | [] => true
  | item :: rest => item.canKeep room && canKeepItems room rest

/-- Whether all members can be kept. -/
def canKeepMembers (room : Nat) : List (List Char × Json) → Bool
  | [] => true
  | (name, value) :: rest =>
    (writtenText? name).isSome && value.canKeep room && canKeepMembers room rest

end

namespace Json

/-- A text. -/
def ofText (text : String) : Json := .string (writeText text)

/-- An object of members. -/
def ofMembers (members : List (String × Json)) : Json :=
  .object (members.map fun (name, value) => (writeText name, value))

/-- The text that a tree is. -/
def text? : Json → Option String
  | .string written => writtenText? written
  | _ => none

/-- The integer that a tree is. -/
def int? : Json → Option Int
  | .number (.integer value) => some value
  | _ => none

/-- The word that a tree is, alone or as the only name of an object. -/
def word? : Json → Option String
  | .string written => writtenText? written
  | .object [(name, .null)] => writtenText? name
  | _ => none

/-- The word that a kept tree is. -/
def keptWord? : Json → Option String
  | .object [(name, .object [])] => writtenText? name
  | json => json.word?

end Json

/-- The members of an object whose names denote texts. -/
def namedMembers : List (List Char × Json) → Option (List (String × Json))
  | [] => some []
  | (name, value) :: rest => return (← writtenText? name, value) :: (← namedMembers rest)

/-- The member of a name that stands at most once. -/
def optionalMember (name : String) (members : List (String × Json)) : Option (Option Json) :=
  match members.filter fun member => member.1 = name with
  | [] => some none
  | [member] => some (some member.2)
  | _ => none

/-- The member of a name that stands exactly once. -/
def requiredMember (name : String) (members : List (String × Json)) : Option Json := do
  (← optionalMember name members)

/-- The members of names that stand exactly once each, in the order of the names. -/
def requiredMembers (names : List String) (members : List (String × Json)) :
    Option (List Json) :=
  names.mapM fun name => requiredMember name members

/-- The values of a record of some names. -/
def Json.record? (names : List String) : Json → Option (List Json)
  | .object members => do requiredMembers names (← namedMembers members)
  | .array items => if items.length = names.length then some items else none
  | _ => none

/-- A writer and a reader of one type. -/
structure Codec (α : Type) where
  /-- A value as a tree. -/
  write : α → Json
  /-- The value of a tree that may open a number of levels. -/
  read : (room : Nat) → Json → Option α

namespace Codec

variable {α : Type}

/-- A value as text. -/
def encode (codec : Codec α) (value : α) : String := String.ofList (codec.write value).render

/-- The value of a text. -/
def decode (codec : Codec α) (text : String) : Option α := do
  codec.read maxJsonLevels (← Json.parse text.toList)

/-- Texts. -/
def text : Codec String where
  write := .ofText
  read _ json := json.text?

/-- Truth values. -/
def bool : Codec Bool where
  write := .bool
  read _
    | .bool value => some value
    | _ => none

/-- Script integers. -/
def int64 : Codec Int64 where
  write number := .number (.integer number.toInt)
  read _ json := do Integer.fit? (← json.int?)

/-- Natural numbers below a bound. -/
def readNat (bound : Nat) (json : Json) : Option Nat :=
  match json.int? with
  | some (.ofNat number) => if number < bound then some number else none
  | _ => none

/-- Unsigned words of 16 bits. -/
def uint16 : Codec UInt16 where
  write number := .number (.integer number.toNat)
  read _ json := (readNat UInt16.size json).map UInt16.ofNat

/-- Unsigned words of 32 bits. -/
def uint32 : Codec UInt32 where
  write number := .number (.integer number.toNat)
  read _ json := (readNat UInt32.size json).map UInt32.ofNat

/-- Unsigned words of 64 bits. -/
def uint64 : Codec UInt64 where
  write number := .number (.integer number.toNat)
  read _ json := (readNat UInt64.size json).map UInt64.ofNat

/-- One of a few values that are told by a word. -/
def ofWords (values : List α) (word : α → String) : Codec α where
  write value := .ofText (word value)
  read _ json := do
    let found ← json.word?
    values.find? fun value => word value = found

/-- One of a few values that are told by a word, in a member that was kept. -/
def ofKeptWords (values : List α) (word : α → String) : Codec α where
  write value := .ofText (word value)
  read _ json := do
    let found ← json.keptWord?
    values.find? fun value => word value = found

/-- Arrays of values. -/
def list (codec : Codec α) : Codec (List α) where
  write values := .array (values.map codec.write)
  read room
    | .array items => items.mapM (codec.read (room - 1))
    | _ => none

/-- Values of another type. -/
def map {β : Type} (codec : Codec α) (wrap : α → β) (unwrap : β → α) : Codec β where
  write value := codec.write (unwrap value)
  read room json := (codec.read room json).map wrap

end Codec

end Waggle
