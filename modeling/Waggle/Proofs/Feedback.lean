import Mathlib.Data.List.DropRight
import Waggle.Proofs.Session

/-!
# Feedback over a session

What the user sees and hears is told by what has happened in the session, whatever the host does
with its interpreter: every run is concluded once, with one cue; the console holds what the host
has written and why runs were aborted; and the state is that of the run in progress or of the last
one (`performAll_told`).

The feedback about a run is given where it ends and nowhere else, so each operation either leaves
the feedback alone or changes it as `Interpreter.conclude` does.
-/

namespace Waggle

variable {ω : Type}

/-- What the user of an interpreter sees and hears. -/
structure Feedback where
  /-- The lines shown. -/
  console : Console
  /-- Where cues are played. -/
  audio : AudioSink
  /-- Where the interpreter is in the course of its runs. -/
  state : RunState

/-- The feedback that an interpreter has given. -/
def Interpreter.feedback (host : Interpreter ω) : Feedback := ⟨host.console, host.audio, host.state⟩

/-- The cue for an outcome. -/
def RunOutcome.cue : RunOutcome → Cue
  | .completed => .success
  | .aborted .. => .failure

/-- A sink after further cues. -/
def AudioSink.after : AudioSink → List Cue → AudioSink
  | .silent, _ => .silent
  | .tape played, cues => .tape (played ++ cues)

/-- Playing a cue puts it last. -/
theorem AudioSink.after_concat (sink : AudioSink) (cues : List Cue) (cue : Cue) :
    sink.after (cues ++ [cue]) = (sink.after cues).play cue := by
  cases sink with
  | silent => rfl
  | tape played => simp [after, play]

/-! ### What notes tell -/

/-- The outcome in a note. -/
def Note.outcome? : Note → Option RunOutcome
  | .ended outcome => some outcome
  | _ => none

/-- The line that the user is shown for a note. -/
def Note.line? : Note → Option String
  | .wrote line => some line
  | .ended (.aborted _ message) => some message
  | _ => none

/-- The outcomes of the runs that have ended, in order. -/
def outcomes (notes : List Note) : List RunOutcome := notes.filterMap Note.outcome?

/-- The lines for the notes since the console was last cleared. -/
def linesShown (notes : List Note) : List String :=
  (notes.rtakeWhile (· ≠ .cleared)).filterMap Note.line?

/-- A note adds its outcome. -/
@[simp] theorem outcomes_concat (notes : List Note) (note : Note) :
    outcomes (notes ++ [note]) = outcomes notes ++ note.outcome?.toList := by
  rcases told : note.outcome? <;> simp [outcomes, told]

/-- A note adds its line, or clears the console. -/
@[simp] theorem linesShown_concat (notes : List Note) (note : Note) :
    linesShown (notes ++ [note]) =
      if note = .cleared then [] else linesShown notes ++ note.line?.toList := by
  unfold linesShown
  by_cases cleared : note = .cleared
  · simp [cleared]
  · rcases told : note.line? <;> simp [cleared, told]

/-- The state after runs with some outcomes. -/
def RunState.afterRuns (outcomes : List RunOutcome) : RunState :=
  match outcomes.getLast? with
  | none => .idle
  | some outcome => .concluded outcome

/-- The feedback and whether a run is in progress are those that notes about a session tell. -/
structure Told (audio : AudioSink) (notes : List Note) (feedback : Feedback) (running : Bool) :
    Prop where
  /-- One cue was played for each run that has ended, in order. -/
  cues : feedback.audio = audio.after ((outcomes notes).map RunOutcome.cue)
  /-- The console shows the lines since it was last cleared. -/
  console : feedback.console.lines = linesShown notes
  /-- The state is that of the run in progress, or else of the last one. -/
  state : feedback.state = if running then .running else .afterRuns (outcomes notes)
  /-- Each run that was begun has ended once, but for the one in progress. -/
  once : notes.count .began = (outcomes notes).length + running.toNat

/-- Feedback with that about a run that has ended. -/
def Feedback.conclude (feedback : Feedback) (outcome : RunOutcome) : Feedback where
  console := ⟨feedback.console.lines ++ (Note.ended outcome).line?.toList⟩
  audio := feedback.audio.play outcome.cue
  state := .concluded outcome

namespace Told

variable {audio : AudioSink} {notes : List Note} {feedback : Feedback}

/-- Nothing has happened to a new interpreter. -/
theorem nothing (world : ω) (environment : Environment) (config : Config) (audio : AudioSink) :
    Told audio [] (Interpreter.feedback { world, environment, config, audio }) false where
  cues := by cases audio <;> simp [Interpreter.feedback, outcomes, AudioSink.after]
  console := rfl
  state := rfl
  once := rfl

/-- A run that begins changes the state. -/
theorem begin (told : Told audio notes feedback false) :
    Told audio (notes ++ [.began]) { feedback with state := .running } true where
  cues := by simpa [Note.outcome?] using told.cues
  console := by simpa [Note.line?] using told.console
  state := rfl
  once := by simpa [Note.outcome?] using told.once

/-- A run that ends is concluded. -/
theorem conclude (told : Told audio notes feedback true) (outcome : RunOutcome) :
    Told audio (notes ++ [.ended outcome]) (feedback.conclude outcome) false where
  cues := by simp [Feedback.conclude, Note.outcome?, AudioSink.after_concat, told.cues]
  console := by simp [Feedback.conclude, told.console]
  state := by simp [Feedback.conclude, Note.outcome?, RunState.afterRuns]
  once := by simpa [Note.outcome?] using told.once

/-- A run that begins and ends is concluded. -/
theorem whole (told : Told audio notes feedback false) (outcome : RunOutcome) :
    Told audio (notes ++ [.began, .ended outcome]) (feedback.conclude outcome) false := by
  have concluded := told.begin.conclude outcome
  rw [List.append_assoc] at concluded
  exact concluded

/-- A line that the host writes is shown. -/
theorem log (told : Told audio notes feedback false) (line : String) :
    Told audio (notes ++ [.wrote line]) { feedback with console := feedback.console.log line }
      false where
  cues := by simpa [Note.outcome?] using told.cues
  console := by simp [Console.log, Note.line?, told.console]
  state := by simpa [Note.outcome?] using told.state
  once := by simpa [Note.outcome?] using told.once

/-- A console that the host clears shows nothing. -/
theorem clear (told : Told audio notes feedback false) :
    Told audio (notes ++ [.cleared]) { feedback with console := .empty } false where
  cues := by simpa [Note.outcome?] using told.cues
  console := by simp [Console.empty]
  state := by simpa [Note.outcome?] using told.state
  once := by simpa [Note.outcome?] using told.once

end Told

/-! ### What runs tell -/

/-- The conclusion of a run is the feedback about its outcome. -/
theorem Interpreter.feedback_conclude (host : Interpreter ω) (outcome : RunOutcome) :
    (host.conclude outcome).feedback = host.feedback.conclude outcome := by
  cases outcome with
  | completed => simp [conclude, feedback, Feedback.conclude, Note.line?, RunOutcome.cue]
  | aborted kind message => rfl

namespace Interpreter

/-- A whole run has given the feedback about the outcome that it returns. -/
def Concludes (host : Interpreter ω) (result : RunOutcome × Interpreter ω) : Prop :=
  result.2.feedback = host.feedback.conclude result.1

/-- To reject is a whole run. -/
theorem reject_concludes (host : Interpreter ω) (kind : FailureKind) (message : String) :
    host.Concludes (host.reject kind message) :=
  host.feedback_conclude _

/-- A script that cannot be read is a whole run. -/
theorem rejectAll_concludes (host : Interpreter ω) (errors : Diagnostics) :
    host.Concludes (host.rejectAll errors) := by
  unfold rejectAll
  split
  · exact host.reject_concludes _ _
  · exact host.reject_concludes _ _

end Interpreter

section Runs

variable [World ω]

/-- A run that is driven to its end is concluded once. -/
theorem Execution.drive_feedback {α : Type} (visit : α → SuspendPoint → α) (seen : α)
    {run : Execution ω} (unfinished : run.outcome = none) :
    (run.drive visit seen).2.2.host.feedback =
      run.host.feedback.conclude (run.drive visit seen).2.1 := by
  -- A step that pauses leaves the feedback alone, so the rest of the run is concluded as all of it.
  induction measure : run.budget using Nat.strongRecOn generalizing run seen with
  | ind budget ih =>
    subst measure
    obtain ⟨point, world, environment, frames, paused⟩ | ⟨world, outcome, finished⟩ :=
      step_cases unfinished
    · have smaller : run.step.2.budget < run.budget := budget_step_lt (congrArg Prod.fst paused)
      rw [paused] at smaller
      rw [drive_of_suspended visit seen paused]
      exact ih _ smaller (visit seen point) rfl rfl
    · rw [drive_of_finished visit seen finished]
      exact Interpreter.feedback_conclude { run.host with world } outcome

namespace Interpreter

/-- To run a program is a whole run. -/
theorem interpret_concludes (host : Interpreter ω) (program : Program) :
    host.Concludes (host.interpret program) :=
  Execution.drive_feedback _ _ rfl

/-- Pauses change nothing about that. -/
theorem interpretPaced_concludes (host : Interpreter ω) (program : Program) :
    host.Concludes (host.interpretPaced program).2 :=
  Execution.drive_feedback _ _ rfl

/-- To run a script is a whole run, whether it can be read or not. -/
theorem run_concludes (host : Interpreter ω) (file : SourceFile) :
    host.Concludes (host.run file) := by
  unfold run
  split
  · exact host.interpret_concludes _
  · exact host.rejectAll_concludes _

/-- Pauses change nothing about that either. -/
theorem runPaced_concludes (host : Interpreter ω) (file : SourceFile) :
    host.Concludes (host.runPaced file).2 := by
  unfold runPaced
  split
  · exact host.interpretPaced_concludes _
  · exact host.rejectAll_concludes _

/-- A report is about the run of the script. -/
theorem runReport_eq_run (host : Interpreter ω) (file : SourceFile) :
    ((host.runReport file).1.outcome, (host.runReport file).2) = host.run file := by
  unfold runReport run
  rcases file.compile with errors | program
  · rfl
  · rfl

end Interpreter

end Runs

/-! ### What a session tells -/

namespace Session

/-- A session is as the notes about it tell. -/
def ToldBy (audio : AudioSink) (notes : List Note) (session : Session ω) : Prop :=
  Told audio notes session.host.feedback session.isRunning

variable {audio : AudioSink} {notes : List Note} {session next : Session ω}

/-- Nothing is to be noted where the feedback stays and no run begins or ends. -/
theorem ToldBy.same (told : ToldBy audio notes session)
    (feedback : next.host.feedback = session.host.feedback)
    (running : next.isRunning = session.isRunning) : ToldBy audio (notes ++ []) next := by
  rw [ToldBy, List.append_nil, feedback, running]
  exact told

/-- An outcome is to be noted where the run in progress ends. -/
theorem ToldBy.conclude (told : ToldBy audio notes session) (running : session.isRunning = true)
    {outcome : RunOutcome} (feedback : next.host.feedback = session.host.feedback.conclude outcome)
    (stopped : next.isRunning = false) : ToldBy audio (notes ++ [.ended outcome]) next := by
  rw [ToldBy, running] at told
  rw [ToldBy, feedback, stopped]
  exact told.conclude outcome

/-- A beginning and an outcome are to be noted for a whole run. -/
theorem ToldBy.whole {host : Interpreter ω} (told : ToldBy audio notes (free host))
    {result : RunOutcome × Interpreter ω} (concludes : host.Concludes result) :
    ToldBy audio (notes ++ (ran result).1) (ran result).2 := by
  have whole : Told audio (notes ++ [.began, .ended result.1])
      (host.feedback.conclude result.1) false := Told.whole told result.1
  rw [← concludes] at whole
  exact whole

variable [World ω]

/-- An operation on a free interpreter does what it notes. -/
theorem perform_free {host : Interpreter ω} (told : ToldBy audio notes (free host))
    (operation : Operation ω) :
    ToldBy audio (notes ++ ((free host).perform operation).1)
      ((free host).perform operation).2 := by
  cases operation with
  | run file => exact told.whole (host.run_concludes file)
  | runPaced file => exact told.whole (host.runPaced_concludes file)
  | runReport file =>
    have concludes := host.run_concludes file
    rw [← host.runReport_eq_run] at concludes
    exact told.whole concludes
  | interpret program => exact told.whole (host.interpret_concludes program)
  | interpretPaced program => exact told.whole (host.interpretPaced_concludes program)
  | reject kind message => exact told.whole (host.reject_concludes kind message)
  | start program => exact Told.begin told
  | log line => exact Told.log told line
  | clearConsole => exact Told.clear told
  | control control =>
    cases control with
    | step | cancel | drop => exact told.same rfl rfl
  | runToEnd | setGlobal | editEnvironment | editWorld => exact told.same rfl rfl

/-- An operation on a finished run notes nothing and leaves the feedback alone. -/
theorem perform_finished {run : Execution ω} {outcome : RunOutcome}
    (finished : run.outcome = some outcome) (operation : Operation ω) :
    ∃ next, (live run).perform operation = ([], next) ∧
      next.host.feedback = run.host.feedback ∧ next.isRunning = false := by
  have stopped : (live run).isRunning = false := by simp [finished]
  have stays := Execution.step_of_finished finished
  cases operation with
  | control control =>
    rw [perform_control, stopped]
    refine ⟨_, rfl, ?_⟩
    cases control with
    | step =>
      simp only [Session.control, stays]
      exact ⟨rfl, stopped⟩
    | cancel => exact ⟨rfl, stopped⟩
    | drop =>
      simp only [Session.control, Execution.abandon_of_finished finished]
      exact ⟨rfl, rfl⟩
  | runToEnd =>
    have ended := Execution.drive_of_finished (fun _ _ => ()) () stays
    refine ⟨free run.host, ?_, rfl, rfl⟩
    simp [perform, Execution.runToEnd, ended, Execution.isFinished, finished]
  | _ => exact ⟨live run, rfl, rfl, stopped⟩

/-- An operation on a run in progress notes nothing and leaves the feedback alone, or notes how the
run has ended and concludes it. -/
theorem perform_unfinished {run : Execution ω} (unfinished : run.outcome = none)
    (operation : Operation ω) :
    (∃ next, (live run).perform operation = ([], next) ∧
      next.host.feedback = run.host.feedback ∧ next.isRunning = true) ∨
    ∃ outcome next, (live run).perform operation = ([.ended outcome], next) ∧
      next.host.feedback = run.host.feedback.conclude outcome ∧ next.isRunning = false := by
  have running : (live run).isRunning = true := by simp [unfinished]
  cases operation with
  | control control =>
    rw [perform_control, running]
    cases control with
    | step =>
      obtain ⟨point, world, environment, frames, paused⟩ | ⟨world, outcome, finished⟩ :=
        Execution.step_cases unfinished
      · simp only [Session.control, paused]
        exact .inl ⟨_, rfl, rfl, rfl⟩
      · simp only [Session.control, finished]
        have concluded := Interpreter.feedback_conclude { run.host with world } outcome
        exact .inr ⟨outcome, _, rfl, concluded, rfl⟩
    | cancel => exact .inl ⟨_, rfl, rfl, running⟩
    | drop =>
      simp only [Session.control, Execution.abandon_of_unfinished unfinished]
      exact .inr ⟨cutShort, _, rfl, run.host.feedback_conclude cutShort, rfl⟩
  | runToEnd =>
    have concluded := Execution.drive_feedback (fun _ _ => ()) () unfinished
    refine .inr ⟨run.runToEnd.1, free run.runToEnd.2, ?_, concluded, rfl⟩
    simp [perform, Execution.isFinished, unfinished]
  | _ => exact .inl ⟨live run, rfl, rfl, running⟩

/-- An operation does what it notes. -/
theorem perform_toldBy (told : ToldBy audio notes session) (operation : Operation ω) :
    ToldBy audio (notes ++ (session.perform operation).1) (session.perform operation).2 := by
  cases session with
  | free host => exact perform_free told operation
  | live run =>
    rcases known : run.outcome with _ | outcome
    · have running : (live run).isRunning = true := by simp [known]
      obtain ⟨next, performed, feedback, still⟩ | ⟨outcome, next, performed, feedback, stopped⟩ :=
        perform_unfinished known operation
      · rw [performed]
        exact told.same feedback (still.trans running.symm)
      · rw [performed]
        exact told.conclude running feedback stopped
    · have stopped : (live run).isRunning = false := by simp [known]
      obtain ⟨next, performed, feedback, still⟩ := perform_finished known operation
      rw [performed]
      exact told.same feedback (still.trans stopped.symm)

/-- Operations one after the other do what they note. -/
theorem performAll_toldBy (told : ToldBy audio notes session) (operations : List (Operation ω)) :
    ToldBy audio (notes ++ (session.performAll operations).1)
      (session.performAll operations).2 := by
  induction operations generalizing session notes with
  | nil => exact told.same rfl rfl
  | cons operation rest ih =>
    have later := ih (perform_toldBy told operation)
    rw [List.append_assoc] at later
    exact later

/-- What the user sees and hears is what has happened, after any operations on a new interpreter:
one cue was played for each run that has ended, the console shows the lines of the host and the
reasons of aborted runs since it was last cleared, the state is that of the run in progress or else
of the last one, and each run that was begun has ended once but for the one in progress. -/
theorem performAll_told (world : ω) (environment : Environment) (config : Config)
    (audio : AudioSink) (operations : List (Operation ω)) :
    let performed := (free { world, environment, config, audio }).performAll operations
    Told audio performed.1 performed.2.host.feedback performed.2.isRunning := by
  have fresh : ToldBy audio [] (free { world, environment, config, audio }) :=
    Told.nothing world environment config audio
  exact performAll_toldBy fresh operations

end Session

end Waggle
