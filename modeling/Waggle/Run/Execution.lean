import Waggle.Run.Interpreter

/-!
# Stepping through a run

An execution is a run in progress that its host advances step by step, and may cancel or abandon
between two steps. Once finished it stays so: every further step tells the same outcome. A run
that is abandoned before it has finished ends as a cancelled one.
-/

namespace Waggle

/-- What a step comes to. -/
inductive Step where
  /-- The run pauses. -/
  | suspended (point : SuspendPoint)
  /-- The run has ended. -/
  | finished (outcome : RunOutcome)
deriving DecidableEq, Inhabited

/-- A run in progress. -/
structure Execution (ω : Type) where
  /-- The interpreter that runs. -/
  host : Interpreter ω
  /-- What is left of the run. -/
  frames : List Frame
  /-- How the run ended, if it has. -/
  outcome : Option RunOutcome

/-- Begins a run; a request to cancel an earlier one is forgotten. -/
def Interpreter.start {ω : Type} (host : Interpreter ω) (program : Program) : Execution ω where
  host := { host with cancelRequested := false, state := .running }
  frames := [.block program.stmts]
  outcome := none

namespace Execution

variable {ω : Type}

/-- Whether the run has ended. -/
def isFinished (run : Execution ω) : Bool := run.outcome.isSome

/-- Asks for the run to be ended at its next step. -/
def cancel (run : Execution ω) : Execution ω := { run with host := run.host.cancel }

/-- Ends the run of an interpreter. -/
def finish (host : Interpreter ω) (outcome : RunOutcome) : Step × Execution ω :=
  (.finished outcome, ⟨host.conclude outcome, [], some outcome⟩)

/-- Takes one step of a run. -/
def step [World ω] (run : Execution ω) : Step × Execution ω :=
  match run.outcome with
  | some outcome => (.finished outcome, run)
  | none =>
    if run.host.cancelRequested then finish run.host (.ofError .cancelled)
    else
      match advance run.host.scope run.frames run.host.world with
      | (.ok (some progress), world) =>
        let host := { run.host with world, environment := progress.environment }
        (.suspended progress.point, ⟨host, progress.frames, none⟩)
      | (.ok none, world) => finish { run.host with world } .completed
      | (.error error, world) => finish { run.host with world } (.ofError error)

/-- Lets go of a run and returns its interpreter; an unfinished run is cancelled. -/
def abandon (run : Execution ω) : Interpreter ω :=
  match run.outcome with
  | some _ => run.host
  | none => (finish run.host (.ofError .cancelled)).2.host

end Execution

end Waggle
