import Waggle.Json.Record
import Waggle.Report
import Waggle.World.Grid

/-!
# The JSON of this library

How each value that a host may store or send is written and read.
-/

namespace Waggle

/-- Directions by their words. -/
def Direction.codec : Codec Direction := .ofWords Direction.all Direction.word

/-- Directions by their words, in a member that was kept. -/
def Direction.keptCodec : Codec Direction := .ofKeptWords Direction.all Direction.word

/-- Kinds of failure by their words. -/
def FailureKind.codec : Codec FailureKind := .ofWords FailureKind.all FailureKind.word

/-- Kinds of failure by their words, in a member that was kept. -/
def FailureKind.keptCodec : Codec FailureKind := .ofKeptWords FailureKind.all FailureKind.word

/-- Stages by their words. -/
def Stage.codec : Codec Stage := .ofWords [.lex, .parse] Stage.word

/-- Entities by their numbers. -/
def EntityRef.codec : Codec EntityRef := Codec.uint64.map EntityRef.mk EntityRef.id

/-- Error codes by their numbers. -/
def ErrorCode.codec : Codec ErrorCode := Codec.uint16.map ErrorCode.mk ErrorCode.number

/-- Consoles by their lines. -/
def Console.codec : Codec Console := Codec.text.list.map Console.mk Console.lines

/-- Vectors by their coordinates. -/
def Vec3.codec : Codec Vec3 where
  write vector :=
    .ofMembers [("x", Codec.int64.write vector.x), ("y", Codec.int64.write vector.y),
      ("z", Codec.int64.write vector.z)]
  read room json := do
    match ← json.record? ["x", "y", "z"] with
    | [x, y, z] =>
      return ⟨← Codec.int64.read room x, ← Codec.int64.read room y, ← Codec.int64.read room z⟩
    | _ => none

namespace Span

/-- The names of the parts of a span. -/
def memberNames : List String := ["line", "column", "end_line", "end_column"]

/-- The parts of a span as members. -/
def members (span : Span) : List (String × Json) :=
  [("line", Codec.uint32.write span.start.line), ("column", Codec.uint32.write span.start.column),
    ("end_line", Codec.uint32.write span.stop.line),
    ("end_column", Codec.uint32.write span.stop.column)]

/-- The span of its parts in order. -/
def ofParts (room : Nat) : List Json → Option Span
  | [line, column, endLine, endColumn] => do
    return ⟨⟨← Codec.uint32.read room line, ← Codec.uint32.read room column⟩,
      ⟨← Codec.uint32.read room endLine, ← Codec.uint32.read room endColumn⟩⟩
  | _ => none

/-- Spans by their four parts. -/
def codec : Codec Span where
  write span := .ofMembers span.members
  read room json := do ofParts room (← json.record? memberNames)

end Span

namespace Value

/-- What a value is besides its type. -/
def content? : Value → Option Json
  | .int number => some (Codec.int64.write number)
  | .bool truth => some (Codec.bool.write truth)
  | .direction heading => some (Direction.codec.write heading)
  | .entity handle => some (EntityRef.codec.write handle)
  | .null => none

/-- The value of a type and of what else it is, with a codec for directions. -/
def ofContent (directions : Codec Direction) (room : Nat) (typeName : String)
    (content : Option Json) : Option Value :=
  match typeName, content with
  | "int", some json => (Codec.int64.read room json).map .int
  | "bool", some json => (Codec.bool.read room json).map .bool
  | "direction", some json => (directions.read room json).map .direction
  | "entity", some json => (EntityRef.codec.read room json).map .entity
  | "null", none => some .null
  | "null", some .null => some .null
  | _, _ => none

/-- Whether what a value is comes before its type, so that it has to be kept. -/
def contentFirst (members : List (String × Json)) : Bool :=
  (members.takeWhile fun member => member.1 ≠ "type").any fun member => member.1 = "value"

/-- Values by their type and what else they are; an array has to name the type as a text. -/
def codec : Codec Value where
  write value :=
    let content := value.content?.toList.map fun json => ("value", json)
    .ofMembers (("type", .ofText value.typeName) :: content)
  read room
    | .object members => do
      let members ← namedMembers members
      let typeName ← (← requiredMember "type" members).word?
      let directions := if contentFirst members then Direction.keptCodec else Direction.codec
      ofContent directions room typeName (← optionalMember "value" members)
    | .array [typeName, content] => do
      ofContent Direction.codec room (← typeName.text?) (some content)
    | _ => none

end Value

/-- A value of several cases: the word of its case, and the members of the case, which have to
be kept until the word is known. -/
def Json.tagged? (room : Nat) (tag : String) : Json → Option (String × Json)
  | .object members => do
    let word ← (← requiredMember tag (← namedMembers members)).text?
    let others := members.filter fun member => writtenText? member.1 ≠ some tag
    if canKeepMembers (room - 1) others then some (word, .object others) else none
  | .array (word :: rest) => do
    let word ← word.text?
    if canKeepItems (room - 1) rest then some (word, .array rest) else none
  | _ => none

/-- A case without members of its own; an object may hold others. -/
def Json.isBare : Json → Bool
  | .object _ => true
  | .array items => items.isEmpty
  | _ => false

/-- Outcomes by their status. -/
def RunOutcome.codec : Codec RunOutcome where
  write
    | .completed => .ofMembers [("status", .ofText "completed")]
    | .aborted kind message =>
      .ofMembers [("status", .ofText "aborted"), ("kind", FailureKind.codec.write kind),
        ("message", .ofText message)]
  read room json := do
    let (word, content) ← json.tagged? room "status"
    match word with
    | "completed" => if content.isBare then some .completed else none
    | "aborted" =>
      match ← content.record? ["kind", "message"] with
      | [kind, message] =>
        return .aborted (← FailureKind.keptCodec.read room kind) (← message.text?)
      | _ => none
    | _ => none

/-- Events by what happened. -/
def GridEvent.codec : Codec GridEvent where
  write
    | .translated entity delta destination =>
      .ofMembers [("event", .ofText "translated"), ("entity", EntityRef.codec.write entity),
        ("delta", Vec3.codec.write delta), ("to", Vec3.codec.write destination)]
    | .placed entity destination =>
      .ofMembers [("event", .ofText "placed"), ("entity", EntityRef.codec.write entity),
        ("to", Vec3.codec.write destination)]
    | .attacked attacker target =>
      .ofMembers [("event", .ofText "attacked"), ("attacker", EntityRef.codec.write attacker),
        ("target", EntityRef.codec.write target)]
  read room json := do
    let (word, content) ← json.tagged? room "event"
    match word with
    | "translated" =>
      match ← content.record? ["entity", "delta", "to"] with
      | [entity, delta, destination] =>
        return .translated (← EntityRef.codec.read room entity) (← Vec3.codec.read room delta)
          (← Vec3.codec.read room destination)
      | _ => none
    | "placed" =>
      match ← content.record? ["entity", "to"] with
      | [entity, destination] =>
        return .placed (← EntityRef.codec.read room entity) (← Vec3.codec.read room destination)
      | _ => none
    | "attacked" =>
      match ← content.record? ["attacker", "target"] with
      | [attacker, target] =>
        return .attacked (← EntityRef.codec.read room attacker) (← EntityRef.codec.read room target)
      | _ => none
    | _ => none

namespace Diagnostic

/-- The names of the members of a diagnostic that are not its span's. -/
def ownNames : List String := ["file", "code", "category", "message", "source_line"]

/-- Whether a member is none of a diagnostic's own. -/
def isForeign (member : List Char × Json) : Bool :=
  match writtenText? member.1 with
  | some name => !ownNames.contains name
  | none => true

/-- The diagnostic of its own members in order, and of its span. -/
def ofParts (room : Nat) (span : Span) : List Json → Option Diagnostic
  | [file, code, stage, message, sourceLine] => do
    return {
      file := ← file.text?
      code := ← ErrorCode.codec.read room code
      stage := ← Stage.codec.read room stage
      message := ← message.text?
      span
      sourceLine := ← sourceLine.text? }
  | _ => none

/-- Diagnostics by their members, those of the span among them; all but their own are kept. -/
def codec : Codec Diagnostic where
  write diagnostic :=
    .ofMembers ([("file", .ofText diagnostic.file), ("code", ErrorCode.codec.write diagnostic.code),
      ("category", Stage.codec.write diagnostic.stage), ("message", .ofText diagnostic.message)]
      ++ diagnostic.span.members ++ [("source_line", .ofText diagnostic.sourceLine)])
  read room
    | .object members => do
      let named ← namedMembers members
      let span ← Span.ofParts room (← requiredMembers Span.memberNames named)
      if canKeepMembers (room - 1) (members.filter isForeign) then
        ofParts room span (← requiredMembers ownNames named)
      else
        none
    | _ => none

end Diagnostic

/-- Collections of diagnostics. -/
def Diagnostics.codec : Codec Diagnostics where
  write diagnostics :=
    .ofMembers [("errors", Diagnostic.codec.list.write diagnostics.stored),
      ("total_errors", Codec.uint64.write diagnostics.total)]
  read room json := do
    match ← json.record? ["errors", "total_errors"] with
    | [stored, total] =>
      return ⟨← Diagnostic.codec.list.read (room - 1) stored, ← Codec.uint64.read room total⟩
    | _ => none

/-- Bindings as an object; the last of several members of one name holds. -/
def Environment.codec : Codec Environment where
  write environment :=
    .ofMembers (environment.entries.map fun (name, value) => (name, Value.codec.write value))
  read room
    | .object members => do
      let members ← namedMembers members
      let bindings ← members.mapM fun (name, json) =>
        (Value.codec.read (room - 1) json).map fun value => (name, value)
      return .ofList bindings
    | _ => none

/-- Reports. -/
def RunReport.codec : Codec RunReport where
  write report :=
    .ofMembers [("success", Codec.bool.write report.success),
      ("outcome", RunOutcome.codec.write report.outcome),
      ("console", Console.codec.write report.console),
      ("bindings", Environment.codec.write report.bindings),
      ("errors", Diagnostics.codec.write report.errors)]
  read room json := do
    match ← json.record? ["success", "outcome", "console", "bindings", "errors"] with
    | [success, outcome, console, bindings, errors] =>
      return {
        success := ← Codec.bool.read (room - 1) success
        outcome := ← RunOutcome.codec.read (room - 1) outcome
        console := ← Console.codec.read (room - 1) console
        bindings := ← Environment.codec.read (room - 1) bindings
        errors := ← Diagnostics.codec.read (room - 1) errors }
    | _ => none

namespace Config

/-- A setting that may be left out. -/
def setting {α : Type} (codec : Codec α) (usual : α) : Option Json → Option α
  | none => some usual
  | some json => codec.read maxJsonLevels json

/-- The settings of their two parts, either of which may be left out. -/
def ofParts (actor delay : Option Json) : Option Config := do
  let usual : Config := {}
  return ⟨← setting .text usual.actorBinding actor, ← setting .uint64 usual.pacingDelayMs delay⟩

/-- The settings of a tree, those left out being the usual ones. -/
def ofJson : Json → Option Config
  | .object members => do
    let members ← namedMembers members
    ofParts (← optionalMember "actor_binding" members)
      (← optionalMember "pacing_delay_ms" members)
  | .array [] => ofParts none none
  | .array [actor] => ofParts (some actor) none
  | .array [actor, delay] => ofParts (some actor) (some delay)
  | _ => none

/-- The settings of a text, if an interpreter can use them. -/
def ofText (text : String) : Except ConfigError Config :=
  match (Json.parse text.toList).bind ofJson with
  | some config => config.validate
  | none => .error .malformed

end Config

end Waggle
