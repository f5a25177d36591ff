/-!
# Feedback

A host shows its user a console of lines and plays a cue at the end of each run. The console
gets the message of every aborted run; the host may log lines of its own and clear it.
-/

namespace Waggle

/-- The lines shown to the user. -/
structure Console where
  /-- The lines, oldest first. -/
  lines : List String
deriving DecidableEq, Inhabited

namespace Console

/-- A console without lines. -/
def empty : Console := ⟨[]⟩

/-- Adds a line. -/
def log (console : Console) (line : String) : Console := ⟨console.lines ++ [line]⟩

/-- The line added last. -/
def last? (console : Console) : Option String := console.lines.getLast?

/-- Whether there are no lines. -/
def isEmpty (console : Console) : Bool := console.lines.isEmpty

end Console

/-- The sound at the end of a run. -/
inductive Cue where
  | success
  | failure
deriving DecidableEq, Inhabited

/-- Where cues are played. -/
inductive AudioSink where
  /-- Nowhere. -/
  | silent
  /-- Onto a tape, oldest first. -/
  | tape (cues : List Cue)
deriving DecidableEq, Inhabited

namespace AudioSink

/-- Plays a cue. -/
def play (sink : AudioSink) (cue : Cue) : AudioSink :=
  match sink with
  | .silent => .silent
  | .tape cues => .tape (cues ++ [cue])

/-- The cues that were played and can still be heard. -/
def cues : AudioSink → List Cue
  | .silent => []
  | .tape played => played

end AudioSink

end Waggle
