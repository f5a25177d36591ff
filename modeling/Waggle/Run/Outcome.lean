import Waggle.Eval.Error

/-!
# How a run ends

A run is completed or aborted, and an aborted one tells its kind of failure with a message. The
state of an interpreter follows its runs: idle before the first, running during one, and
afterwards the outcome of the last.
-/

namespace Waggle

/-- How a run ended. -/
inductive RunOutcome where
  | completed
  | aborted (kind : FailureKind) (message : String)
deriving DecidableEq, Inhabited

namespace RunOutcome

/-- The outcome of a run that failed. -/
def ofError (error : RuntimeError) : RunOutcome := .aborted error.kind error.message

/-- Whether a run was carried out to its end. -/
def isCompleted : RunOutcome → Bool
  | .completed => true
  | .aborted .. => false

/-- The kind of failure of a run. -/
def failureKind? : RunOutcome → Option FailureKind
  | .completed => none
  | .aborted kind _ => some kind

end RunOutcome

/-- Where an interpreter is in the course of its runs. -/
inductive RunState where
  | idle
  | running
  | concluded (outcome : RunOutcome)
deriving DecidableEq, Inhabited

end Waggle
