import Waggle.Proofs.Stepping
import Waggle.Report

/-!
# Sessions

A host has one interpreter over a session. The interpreter is at its disposal, or is lent to an
execution until that is let go of. What the host can do then is to take a step, to run on to the
end, or to let go; to ask for the run to be cancelled is possible at any time.

An operation that the session does not offer as it stands has no effect and no answer.
-/

namespace Waggle

/-- An interpreter in the hands of its host. -/
inductive Session (ω : Type) where
  /-- The interpreter is at the disposal of the host. -/
  | free (host : Interpreter ω)
  /-- The interpreter is lent to an execution. -/
  | live (run : Execution ω)

/-- What a host can do with an execution. -/
inductive Control where
  /-- Take a step. -/
  | step
  /-- Ask for the run to be ended. -/
  | cancel
  /-- Let go of the execution. -/
  | drop
deriving DecidableEq

/-- What a host can do over a session. -/
inductive Operation (ω : Type) where
  /-- Read a script and run it. -/
  | run (file : SourceFile)
  /-- Read a script and run it with pauses. -/
  | runPaced (file : SourceFile)
  /-- Read a script, run it and report. -/
  | runReport (file : SourceFile)
  /-- Run a program. -/
  | interpret (program : Program)
  /-- Run a program with pauses. -/
  | interpretPaced (program : Program)
  /-- Conclude a run that failed before its first statement. -/
  | reject (kind : FailureKind) (message : String)
  /-- Begin a run. -/
  | start (program : Program)
  /-- Handle the execution. -/
  | control (control : Control)
  /-- Run the execution to its end. -/
  | runToEnd
  /-- Bind a name. -/
  | setGlobal (name : String) (value : Value)
  /-- Change the bindings. -/
  | editEnvironment (change : Environment → Environment)
  /-- Change the world. -/
  | editWorld (change : ω → ω)
  /-- Add a line to the console. -/
  | log (line : String)
  /-- Remove the lines of the console. -/
  | clearConsole

/-- What a host notes down about a session. -/
inductive Note where
  /-- A run was begun. -/
  | began
  /-- A run was ended. -/
  | ended (outcome : RunOutcome)
  /-- The host has added a line to the console. -/
  | wrote (line : String)
  /-- The host has cleared the console. -/
  | cleared
deriving DecidableEq

/-- How a run ends that is cut short. -/
def cutShort : RunOutcome := .aborted .cancelled "run cancelled"

variable {ω : Type}

namespace Execution

/-- Letting go of a finished run leaves its interpreter as it is. -/
theorem abandon_of_finished {run : Execution ω} {outcome : RunOutcome}
    (finished : run.outcome = some outcome) : run.abandon = run.host := by
  simp only [abandon, finished]

/-- Letting go of an unfinished run cuts it short. -/
theorem abandon_of_unfinished {run : Execution ω} (unfinished : run.outcome = none) :
    run.abandon = run.host.conclude cutShort := by
  simp only [abandon, unfinished]
  rfl

end Execution

namespace Session

/-- The interpreter of a session. -/
def host : Session ω → Interpreter ω
  | .free host => host
  | .live run => run.host

/-- Whether an execution is live that has not finished. -/
def isRunning : Session ω → Bool
  | .free _ => false
  | .live run => !run.isFinished

/-- A live execution is in progress as long as it has no outcome. -/
@[simp] theorem isRunning_live (run : Execution ω) : (live run).isRunning = run.outcome.isNone := by
  simp [isRunning, Execution.isFinished]

/-- What is noted about a run that was begun and has ended. -/
def ran : RunOutcome × Interpreter ω → List Note × Session ω
  | (outcome, host) => ([.began, .ended outcome], .free host)

variable [World ω]

/-- Does what a control says, and answers what a step came to. -/
def control : Session ω → Control → Option Step × Session ω
  | .live run, .step => (some run.step.1, .live run.step.2)
  | .live run, .cancel => (none, .live run.cancel)
  | .live run, .drop => (none, .free run.abandon)
  | .free host, .cancel => (none, .free host.cancel)
  | .free host, .step | .free host, .drop => (none, .free host)

/-- Follows a schedule of controls, and answers what the steps came to. -/
def follow : Session ω → List Control → List Step × Session ω
  | session, [] => ([], session)
  | session, control :: rest =>
    let (answer, next) := session.control control
    let (answers, last) := next.follow rest
    (answer.toList ++ answers, last)

/-- How a control has ended the run, going by the answer to it. -/
def ending? : Control → Option Step → Option RunOutcome
  | .drop, _ => some cutShort
  | _, some (.finished outcome) => some outcome
  | _, _ => none

/-- Does what an operation says, and notes down what has happened: how a run has ended is told by
the outcome that the operation returns. -/
def perform : Session ω → Operation ω → List Note × Session ω
  | .free host, .run file => ran (host.run file)
  | .free host, .runPaced file => ran (host.runPaced file).2
  | .free host, .runReport file =>
    let (report, host) := host.runReport file
    ran (report.outcome, host)
  | .free host, .interpret program => ran (host.interpret program)
  | .free host, .interpretPaced program => ran (host.interpretPaced program).2
  | .free host, .reject kind message => ran (host.reject kind message)
  | .free host, .start program => ([.began], .live (host.start program))
  | .free host, .setGlobal name value => ([], .free (host.setGlobal name value))
  | .free host, .editEnvironment change =>
    ([], .free { host with environment := change host.environment })
  | .free host, .editWorld change => ([], .free { host with world := change host.world })
  | .free host, .log line => ([.wrote line], .free (host.log line))
  | .free host, .clearConsole => ([.cleared], .free host.clearConsole)
  | .live run, .runToEnd =>
    let (outcome, host) := run.runToEnd
    (if run.isFinished then [] else [.ended outcome], .free host)
  | session, .control control =>
    let (answer, next) := session.control control
    (if session.isRunning then ((ending? control answer).map .ended).toList else [], next)
  | session, _ => ([], session)

/-- To handle the execution is an operation at any time. -/
theorem perform_control (session : Session ω) (control : Control) :
    session.perform (.control control) =
      (if session.isRunning then ((ending? control (session.control control).1).map .ended).toList
        else [], (session.control control).2) := by
  cases session <;> rfl

/-- Performs operations one after the other, and notes down what has happened. -/
def performAll : Session ω → List (Operation ω) → List Note × Session ω
  | session, [] => ([], session)
  | session, operation :: rest =>
    let (notes, next) := session.perform operation
    let (later, last) := next.performAll rest
    (notes ++ later, last)

end Session

end Waggle
