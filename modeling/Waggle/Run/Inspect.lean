import Waggle.Run.Interpreter
import Waggle.Text.Quoted

/-!
# Inspecting an interpreter

A text that shows the bindings, the settings and the state of an interpreter on one line, for
logs and failing tests. The world, the console and the cues are left out.
-/

namespace Waggle

/-- A direction as an inspection shows it. -/
def Direction.inspect : Direction → String
  | .north => "North"
  | .south => "South"
  | .east => "East"
  | .west => "West"

/-- A value as an inspection shows it. -/
def Value.inspect : Value → String
  | .int number => "Int(" ++ Numeral.ofInt number.toInt ++ ")"
  | .bool true => "Bool(true)"
  | .bool false => "Bool(false)"
  | .direction heading => "Direction(" ++ heading.inspect ++ ")"
  | .entity handle => "Entity(EntityRef(" ++ Numeral.ofNat handle.id.toNat ++ "))"
  | .null => "Null"

/-- A kind of failure as an inspection shows it. -/
def FailureKind.inspect : FailureKind → String
  | .lex => "Lex"
  | .parse => "Parse"
  | .undefinedVariable => "UndefinedVariable"
  | .typeMismatch => "TypeMismatch"
  | .divisionByZero => "DivisionByZero"
  | .arithmeticOverflow => "ArithmeticOverflow"
  | .unknownFunction => "UnknownFunction"
  | .invalidArgumentCount => "InvalidArgumentCount"
  | .invalidTarget => "InvalidTarget"
  | .negativeRepeatCount => "NegativeRepeatCount"
  | .infiniteLoopGuardTripped => "InfiniteLoopGuardTripped"
  | .cancelled => "Cancelled"

/-- Named parts between braces, with blanks inside them. -/
def inspectParts (name : String) (parts : List String) : String :=
  name ++ " \x7b " ++ ", ".intercalate parts ++ " \x7d"

/-- Bindings as an inspection shows them. -/
def Environment.inspect (environment : Environment) : String :=
  let bindings := environment.entries.map fun (name, value) => quote name ++ ": " ++ value.inspect
  inspectParts "Environment" ["bindings: \x7b" ++ ", ".intercalate bindings ++ "\x7d"]

/-- Settings as an inspection shows them. -/
def Config.inspect (config : Config) : String :=
  inspectParts "InterpreterConfig"
    ["actor_binding: " ++ quote config.actorBinding,
      "pacing_delay_ms: " ++ Numeral.ofNat config.pacingDelayMs.toNat]

/-- A state as an inspection shows it. -/
def RunState.inspect : RunState → String
  | .idle => "Idle"
  | .running => "Running"
  | .concluded .completed => "Completed"
  | .concluded (.aborted kind message) =>
    inspectParts "Aborted" ["kind: " ++ kind.inspect, "message: " ++ quote message]

/-- An interpreter as an inspection shows it. -/
def Interpreter.inspect {ω : Type} (host : Interpreter ω) : String :=
  inspectParts "Interpreter"
    ["env: " ++ host.environment.inspect, "config: " ++ host.config.inspect,
      "state: " ++ host.state.inspect, ".."]

end Waggle
