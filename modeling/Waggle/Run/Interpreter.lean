import Waggle.Config
import Waggle.Host
import Waggle.Run.Frame
import Waggle.Run.Outcome

/-!
# Interpreters

An interpreter holds a world, the bindings that persist from run to run, and what its host
sees: the console, the cues and the state. Every run is concluded once, and `conclude` is the
one place that gives feedback about it.
-/

namespace Waggle

/-- An interpreter over a world. -/
structure Interpreter (ω : Type) where
  /-- The world. -/
  world : ω
  /-- The bindings. -/
  environment : Environment := .empty
  /-- The settings. -/
  config : Config := {}
  /-- The lines shown to the user. -/
  console : Console := .empty
  /-- Where cues are played. -/
  audio : AudioSink := .silent
  /-- Where the interpreter is in the course of its runs. -/
  state : RunState := .idle
  /-- Whether the current run is to be ended. -/
  cancelRequested : Bool := false

namespace Interpreter

variable {ω : Type}

/-- What names mean now. -/
def scope (host : Interpreter ω) : Scope := ⟨host.environment, host.config.actorBinding⟩

/-- Binds a name. -/
def setGlobal (host : Interpreter ω) (name : String) (value : Value) : Interpreter ω :=
  { host with environment := host.environment.insert name value }

/-- What a name is bound to; the world is not asked. -/
def global? (host : Interpreter ω) (name : String) : Option Value :=
  host.environment.get? name

/-- Asks for the current run to be ended at its next step. -/
def cancel (host : Interpreter ω) : Interpreter ω := { host with cancelRequested := true }

/-- Adds a line to the console. -/
def log (host : Interpreter ω) (line : String) : Interpreter ω :=
  { host with console := host.console.log line }

/-- Removes the lines of the console. -/
def clearConsole (host : Interpreter ω) : Interpreter ω := { host with console := .empty }

/-- Gives the feedback about a run that has ended. -/
def conclude (host : Interpreter ω) (outcome : RunOutcome) : Interpreter ω :=
  match outcome with
  | .completed =>
    { host with audio := host.audio.play .success, state := .concluded outcome }
  | .aborted _ message =>
    { host with
      console := host.console.log message
      audio := host.audio.play .failure
      state := .concluded outcome }

/-- Concludes a run that failed before its first statement. -/
def reject (host : Interpreter ω) (kind : FailureKind) (message : String) :
    RunOutcome × Interpreter ω :=
  let outcome := .aborted kind message
  (outcome, host.conclude outcome)

end Interpreter

end Waggle
