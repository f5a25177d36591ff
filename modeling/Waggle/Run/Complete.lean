import Waggle.Run.Budget

/-!
# Whole runs

A run is taken to its end at once, or paced with a pause at each point where it could be
stopped. Neither sees more than the steps do: both are folds over the points where the run
pauses.
-/

namespace Waggle

variable {ω : Type} [World ω]

namespace Execution

/-- Steps until the run has finished. -/
def runToEnd (run : Execution ω) : RunOutcome × Interpreter ω :=
  let (_, outcome, last) := run.drive (fun _ _ => ()) ()
  (outcome, last.host)

/-- Steps until the run has finished, and counts the steps that paused. -/
def countToEnd (run : Execution ω) : Nat × RunOutcome × Execution ω :=
  run.drive (fun count _ => count + 1) 0

/-- Takes a number of steps. -/
def steps : Nat → Execution ω → List Step × Execution ω
  | 0, run => ([], run)
  | count + 1, run =>
    let (result, next) := run.step
    let (results, last) := steps count next
    (result :: results, last)

/-- Takes a number of steps and returns the last one. -/
def skip : Nat → Execution ω → Option Step × Execution ω
  | 0, run => (none, run)
  | 1, run =>
    let (result, next) := run.step
    (some result, next)
  | count + 2, run => skip (count + 1) run.step.2

end Execution

namespace Interpreter

/-- Runs a program to its end. -/
def interpret (host : Interpreter ω) (program : Program) : RunOutcome × Interpreter ω :=
  (host.start program).runToEnd

/-- Runs a program to its end with a pause at every step, and tells the milliseconds paused. -/
def interpretPaced (host : Interpreter ω) (program : Program) :
    Nat × RunOutcome × Interpreter ω :=
  let delay := host.config.pacingDelayMs.toNat
  let (paused, outcome, last) := (host.start program).drive (fun total _ => total + delay) 0
  (paused, outcome, last.host)

end Interpreter

end Waggle
