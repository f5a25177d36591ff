import Waggle.Source.File

/-!
# Diagnostics

What is wrong with a script is told in diagnostics: a numbered error with a message, the span
it is about and the line that the span starts on. A collection keeps the first twenty and
counts the rest. `FailureKind` names every way in which a run can fail, whether the script
could not be read or could not be carried out.
-/

namespace Waggle

/-- The stage of reading that found an error. -/
inductive Stage where
  | lex
  | parse
deriving DecidableEq, Inhabited

/-- The word for a stage. -/
def Stage.word : Stage → String
  | .lex => "lex"
  | .parse => "parse"

/-- The number of an error. -/
structure ErrorCode where
  /-- The number itself. -/
  number : UInt16
deriving DecidableEq, Inhabited

namespace ErrorCode

/-- A character that no token can hold. -/
def unexpectedCharacter : ErrorCode := ⟨100⟩

/-- A literal beyond the greatest integer. -/
def integerOutOfRange : ErrorCode := ⟨101⟩

/-- A token that cannot stand where it does. -/
def unexpectedToken : ErrorCode := ⟨200⟩

/-- A move that names neither a direction nor a target with coordinates. -/
def expectedDirection : ErrorCode := ⟨201⟩

/-- More arguments or coordinates than a statement takes. -/
def tooManyArguments : ErrorCode := ⟨202⟩

/-- Expressions and blocks nested beyond the limit. -/
def nestingTooDeep : ErrorCode := ⟨203⟩

/-- The hundreds are for the lexical errors, all other numbers for errors of syntax. -/
def stage (code : ErrorCode) : Stage :=
  if 100 ≤ code.number ∧ code.number ≤ 199 then .lex else .parse

/-- A code as it is shown. -/
def text (code : ErrorCode) : String := "E" ++ Numeral.ofNat code.number.toNat

end ErrorCode

/-- The ways in which a run can fail. -/
inductive FailureKind where
  | lex
  | parse
  | undefinedVariable
  | typeMismatch
  | divisionByZero
  | arithmeticOverflow
  | unknownFunction
  | invalidArgumentCount
  | invalidTarget
  | negativeRepeatCount
  | infiniteLoopGuardTripped
  | cancelled
deriving DecidableEq, Inhabited

namespace FailureKind

/-- Every kind of failure. -/
def all : List FailureKind :=
  [.lex, .parse, .undefinedVariable, .typeMismatch, .divisionByZero, .arithmeticOverflow,
    .unknownFunction, .invalidArgumentCount, .invalidTarget, .negativeRepeatCount,
    .infiniteLoopGuardTripped, .cancelled]

/-- The word for a kind of failure. -/
def word : FailureKind → String
  | .lex => "lex"
  | .parse => "parse"
  | .undefinedVariable => "undefined_variable"
  | .typeMismatch => "type_mismatch"
  | .divisionByZero => "division_by_zero"
  | .arithmeticOverflow => "arithmetic_overflow"
  | .unknownFunction => "unknown_function"
  | .invalidArgumentCount => "invalid_argument_count"
  | .invalidTarget => "invalid_target"
  | .negativeRepeatCount => "negative_repeat_count"
  | .infiniteLoopGuardTripped => "infinite_loop_guard_tripped"
  | .cancelled => "cancelled"

/-- Whether a failure arises before any statement is carried out. -/
def isCompileTime : FailureKind → Bool
  | .lex | .parse => true
  | _ => false

end FailureKind

/-- The kind of failure that a stage of reading raises. -/
def Stage.failureKind : Stage → FailureKind
  | .lex => .lex
  | .parse => .parse

/-- One thing that is wrong with a script. -/
structure Diagnostic where
  /-- The name of the script. -/
  file : String
  /-- The number of the error. -/
  code : ErrorCode
  /-- The stage that found it. -/
  stage : Stage
  /-- What is wrong, for a reader. -/
  message : String
  /-- What the error is about. -/
  span : Span
  /-- The line on which the span starts. -/
  sourceLine : String
deriving DecidableEq, Inhabited

namespace Diagnostic

/-- A diagnostic of the stage that its code belongs to. -/
def ofCode (file : String) (code : ErrorCode) (message : String) (span : Span)
    (sourceLine : String) : Diagnostic :=
  { file, code, stage := code.stage, message, span, sourceLine }

/-- The kind of failure that a diagnostic is. -/
def kind (diagnostic : Diagnostic) : FailureKind := diagnostic.stage.failureKind

/-- A diagnostic on one line, without its end. -/
def text (diagnostic : Diagnostic) : String :=
  diagnostic.span.text ++ ": " ++ diagnostic.code.text ++ " [" ++ diagnostic.stage.word ++ "] "
    ++ diagnostic.message

end Diagnostic

/-- A diagnostic about a span of a script; a line that the script does not have is empty. -/
def SourceFile.diagnose (file : SourceFile) (code : ErrorCode) (message : String)
    (span : Span) : Diagnostic :=
  .ofCode file.name code message span ((file.line? span.start.line).getD "")

/-- The diagnostics of one reading of a script. -/
structure Diagnostics where
  /-- The diagnostics that are kept, oldest first. -/
  stored : List Diagnostic
  /-- How many there were. -/
  total : UInt64
deriving DecidableEq, Inhabited

namespace Diagnostics

/-- How many diagnostics are kept. -/
def limit : Nat := 20

/-- No diagnostics. -/
def empty : Diagnostics := ⟨[], 0⟩

/-- A collection of one. -/
def single (diagnostic : Diagnostic) : Diagnostics := ⟨[diagnostic], 1⟩

/-- Adds a diagnostic, which is kept as long as there is room and always counted. -/
def push (diagnostics : Diagnostics) (diagnostic : Diagnostic) : Diagnostics where
  stored :=
    if diagnostics.stored.length < limit then diagnostics.stored ++ [diagnostic]
    else diagnostics.stored
  total := diagnostics.total + 1

/-- Whether anything is wrong. -/
def isPresent (diagnostics : Diagnostics) : Bool := diagnostics.total != 0

/-- Whether as many diagnostics were found as are kept. -/
def isFull (diagnostics : Diagnostics) : Bool := limit ≤ diagnostics.total.toNat

/-- The diagnostic that was found first. -/
def first? (diagnostics : Diagnostics) : Option Diagnostic := diagnostics.stored.head?

/-- One line for each diagnostic that is kept, and one for the number of the others. -/
def text (diagnostics : Diagnostics) : String :=
  let lines := diagnostics.stored.map fun diagnostic => diagnostic.text ++ "\n"
  let others := diagnostics.total.toNat - diagnostics.stored.length
  let rest := if others = 0 then "" else "... and " ++ Numeral.ofNat others ++ " more\n"
  String.join lines ++ rest

end Diagnostics

end Waggle
