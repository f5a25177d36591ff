import Waggle.Compile
import Waggle.Run.Complete

/-!
# From a script to a report

A script is read and run on an interpreter. One that cannot be read is rejected with its first
diagnostic, and then nothing but the feedback about it has happened. A report gathers what a
host shows after a run.
-/

namespace Waggle

/-- What a host shows after a run. -/
structure RunReport where
  /-- Whether the run was completed. -/
  success : Bool
  /-- How the run ended. -/
  outcome : RunOutcome
  /-- The lines of the console after the run. -/
  console : Console
  /-- The bindings after the run. -/
  bindings : Environment
  /-- What was wrong with the script. -/
  errors : Diagnostics
deriving DecidableEq

namespace Interpreter

variable {ω : Type}

/-- Rejects a script with its first diagnostic. -/
def rejectAll (host : Interpreter ω) (errors : Diagnostics) : RunOutcome × Interpreter ω :=
  match errors.first? with
  | some first => host.reject first.kind first.message
  | none => host.reject .parse "script did not compile"

variable [World ω]

/-- Reads a script and runs it to its end. -/
def run (host : Interpreter ω) (file : SourceFile) : RunOutcome × Interpreter ω :=
  match file.compile with
  | .ok program => host.interpret program
  | .error errors => host.rejectAll errors

/-- Reads a script and runs it with pauses, and tells the milliseconds paused. -/
def runPaced (host : Interpreter ω) (file : SourceFile) : Nat × RunOutcome × Interpreter ω :=
  match file.compile with
  | .ok program => host.interpretPaced program
  | .error errors => (0, host.rejectAll errors)

/-- Reads a script, runs it and reports. -/
def runReport (host : Interpreter ω) (file : SourceFile) : RunReport × Interpreter ω :=
  let (errors, outcome, host) :=
    match file.compile with
    | .ok program => (Diagnostics.empty, host.interpret program)
    | .error errors => (errors, host.rejectAll errors)
  let report : RunReport :=
    { success := outcome.isCompleted
      outcome
      console := host.console
      bindings := host.environment
      errors }
  (report, host)

end Interpreter

end Waggle
