import Waggle.Proofs.Feedback
import Waggle.Proofs.Location
import Waggle.Proofs.Refinement
import Waggle.World.Grid

/-!
# From a script to its outcome

However a script is run, at once, with pauses or for a report, its run comes to the same. Whether
it could be read shows in the outcome: the failures of reading and those of runs are of different
kinds, and a script that cannot be read always has a first error, which is what its run is aborted
with (`run_pipeline`).
-/

namespace Waggle

/-! ### Failures of reading and of runs -/

/-- What fails in a run is not the reading of its script. -/
theorem RuntimeError.isCompileTime_kind (error : RuntimeError) :
    error.kind.isCompileTime = false := by
  cases error <;> rfl

/-- A diagnostic is about the reading of a script. -/
theorem Diagnostic.isCompileTime_kind (diagnostic : Diagnostic) :
    diagnostic.kind.isCompileTime = true := by
  unfold kind
  cases diagnostic.stage <;> rfl

/-- The kinds of failure of reading are two. -/
theorem FailureKind.isCompileTime_iff {kind : FailureKind} :
    kind.isCompileTime = true ↔ kind = .lex ∨ kind = .parse := by
  cases kind <;> decide

/-- A text begins as its beginning does. -/
theorem head?_toList_append {opening : String} {letter : Char}
    (begins : opening.toList.head? = some letter) (more : String) :
    (opening ++ more).toList.head? = some letter := by
  rw [String.toList_append, List.head?_append, begins, Option.some_or]

/-- No fault is told as a script without one would be. -/
theorem SyntaxFault.message_ne_fallback (fault : SyntaxFault) :
    fault.message ≠ "script did not compile" := by
  have letter : ∃ letter, letter ≠ 's' ∧ fault.message.toList.head? = some letter := by
    cases fault with
    | expectedSymbol symbol place found =>
      refine ⟨'e', by decide, ?_⟩
      iterate 6 refine head?_toList_append ?_ _
      decide
    | expectedExpression found =>
      refine ⟨'e', by decide, ?_⟩
      iterate 2 refine head?_toList_append ?_ _
      decide
    | expectedDirection found =>
      refine ⟨'e', by decide, ?_⟩
      iterate 2 refine head?_toList_append ?_ _
      decide
    | tooManyArguments => exact ⟨'t', by decide, by decide⟩
    | tooManyCoordinates keyword =>
      refine ⟨'t', by decide, ?_⟩
      iterate 2 refine head?_toList_append ?_ _
      decide
    | nestingTooDeep => exact ⟨'n', by decide, head?_toList_append (by decide) _⟩
  obtain ⟨letter, other, begins⟩ := letter
  intro same
  rw [same] at begins
  exact other (Option.some.inj begins).symm

/-- A script that cannot be read has a first error; if that is one of syntax, it is told as a
fault. -/
theorem SourceFile.first_of_compile_error {file : SourceFile} {errors : Diagnostics}
    (failed : file.compile = .error errors) :
    ∃ first, errors.first? = some first ∧
      (first.kind = .parse → ∃ fault : SyntaxFault, first.message = fault.message) := by
  rcases file.compile_cases with ⟨some, refused⟩ | ⟨-, parsed⟩
  · rw [refused] at failed
    cases failed
    obtain ⟨first, rest, stored⟩ := List.exists_cons_of_length_pos some
    refine ⟨first, by rw [Diagnostics.first?, stored, List.head?_cons], fun parse => ?_⟩
    have lex := (file.lex_kept.2 first (by rw [stored]; exact List.mem_cons_self)).1
    rw [Diagnostic.kind, lex] at parse
    cases parse
  · rw [parsed, parse] at failed
    split at failed
    · cases failed
    · rename_i error _
      cases failed
      exact ⟨_, rfl, fun _ => ⟨error.fault, rfl⟩⟩

namespace Interpreter

variable {ω : Type}

/-! ### Scripts that cannot be read -/

/-- A run was refused with the first of some errors, and nothing but feedback was left by it. -/
structure Refuses (host : Interpreter ω) (errors : Diagnostics)
    (result : RunOutcome × Interpreter ω) : Prop where
  /-- There is a first error, which the outcome tells. -/
  first : ∃ first, errors.first? = some first ∧ result.1 = .aborted first.kind first.message
  /-- The bindings are the same. -/
  environment : result.2.environment = host.environment
  /-- The world is the same. -/
  world : result.2.world = host.world
  /-- A request to cancel is still there or still not. -/
  cancelRequested : result.2.cancelRequested = host.cancelRequested

/-- The conclusion of a run leaves a request to cancel alone. -/
@[simp] theorem conclude_cancelRequested (host : Interpreter ω) (outcome : RunOutcome) :
    (host.conclude outcome).cancelRequested = host.cancelRequested := by
  cases outcome <;> rfl

/-- Errors with a first one are refused with it. -/
theorem rejectAll_refuses (host : Interpreter ω) {errors : Diagnostics} {first : Diagnostic}
    (found : errors.first? = some first) : host.Refuses errors (host.rejectAll errors) := by
  rw [rejectAll, found]
  exact {
    first := ⟨first, found, rfl⟩
    environment := host.conclude_environment _
    world := host.conclude_world _
    cancelRequested := host.conclude_cancelRequested _ }

/-- The last line of an aborted run is its message. -/
theorem Concludes.last? {host : Interpreter ω} {result : RunOutcome × Interpreter ω}
    (concluded : host.Concludes result) {kind : FailureKind} {message : String}
    (aborted : result.1 = .aborted kind message) : result.2.console.last? = some message := by
  have console := congrArg Feedback.console concluded
  rw [aborted] at console
  rw [show result.2.console = _ from console]
  exact List.getLast?_concat

variable [World ω]

/-! ### Scripts that can be read -/

/-- Pauses change nothing about a run. -/
theorem interpretPaced_eq_interpret (host : Interpreter ω) (program : Program) :
    (host.interpretPaced program).2 = host.interpret program := by
  unfold interpretPaced interpret Execution.runToEnd
  dsimp only
  rw [drive_start, drive_start]

/-- A program is completed or fails in its run. -/
theorem interpret_outcome (host : Interpreter ω) (program : Program) :
    (host.interpret program).1 = .completed ∨
      ∃ error, (host.interpret program).1 = .ofError error := by
  rw [interpret_eq, Program.meaning]
  dsimp only
  rcases carryOutAll host.config.actorBinding program.stmts
    (⟨host.environment, [], host.world⟩ : Situation ω) with ⟨error | _, final⟩
  · exact .inr ⟨error, rfl⟩
  · exact .inl rfl

/-- A run is that of a program, and a failure of it is none of reading. -/
structure Performs (host : Interpreter ω) (program : Program)
    (result : RunOutcome × Interpreter ω) : Prop where
  /-- The program was run. -/
  result_eq : result = host.interpret program
  /-- A failure is one of the run. -/
  runtime : ∀ kind ∈ result.1.failureKind?,
    kind.isCompileTime = false ∧ ∃ error : RuntimeError, kind = error.kind

/-- To run a program is a run of it. -/
theorem interpret_performs (host : Interpreter ω) (program : Program) :
    host.Performs program (host.interpret program) := by
  refine ⟨rfl, ?_⟩
  rcases host.interpret_outcome program with completed | ⟨error, failed⟩
  · rw [completed]
    exact fun _ none => nomatch none
  · rw [failed]
    rintro _ ⟨⟩
    exact ⟨error.isCompileTime_kind, error, rfl⟩

/-! ### Both -/

/-- A report tells how a script was run. -/
structure Tells (report : RunReport) (file : SourceFile) (result : RunOutcome × Interpreter ω) :
    Prop where
  /-- The outcome is that of the run. -/
  outcome : report.outcome = result.1
  /-- Success is to be completed. -/
  success : report.success = true ↔ report.outcome = .completed
  /-- The errors are those of reading the script, or none. -/
  errors : file.compile = .error report.errors ∨
    (∃ program, file.compile = .ok program) ∧ report.errors = .empty
  /-- The bindings are those of the interpreter after the run. -/
  bindings : report.bindings = result.2.environment
  /-- The console is that of the interpreter after the run. -/
  console : report.console = result.2.console
  /-- The last line of an aborted run is its message. -/
  last : ∀ kind message, report.outcome = .aborted kind message →
    report.console.last? = some message

/-- A report tells how its script was run. -/
theorem runReport_tells (host : Interpreter ω) (file : SourceFile) :
    Tells (host.runReport file).1 file (host.run file) := by
  have same := host.runReport_eq_run file
  have outcome : (host.runReport file).1.outcome = (host.run file).1 := congrArg Prod.fst same
  have host_eq : (host.runReport file).2 = (host.run file).2 := congrArg Prod.snd same
  refine ⟨outcome, ?_, ?_, congrArg environment host_eq, congrArg console host_eq, ?_⟩
  · change (host.runReport file).1.outcome.isCompleted = true ↔ _
    rcases (host.runReport file).1.outcome <;> simp [RunOutcome.isCompleted]
  · unfold runReport
    rcases file.compile with errors | program
    · exact .inl rfl
    · exact .inr ⟨⟨program, rfl⟩, rfl⟩
  · intro kind message aborted
    have shown := (host.run_concludes file).last? (outcome.symm.trans aborted)
    exact (congrArg (fun after => after.console.last?) host_eq).trans shown

/-- A script is refused with its errors or run as the program that it is. -/
theorem run_cases (host : Interpreter ω) (file : SourceFile) :
    (∃ errors, file.compile = .error errors ∧ host.Refuses errors (host.run file)) ∨
      ∃ program, file.compile = .ok program ∧ host.Performs program (host.run file) := by
  rcases read : file.compile with errors | program
  · obtain ⟨first, found, -⟩ := SourceFile.first_of_compile_error read
    rw [run, read]
    exact .inl ⟨errors, rfl, host.rejectAll_refuses found⟩
  · rw [run, read]
    exact .inr ⟨program, rfl, host.interpret_performs program⟩

/-- However a script is run, the outcome and the interpreter afterwards are the same, and a report
tells them. A script that cannot be read is refused with its first error and leaves nothing but
feedback; any other one is run as the program that it is. The kind of failure tells which of them
it was, and no script is refused without an error. -/
theorem run_pipeline (host : Interpreter ω) (file : SourceFile) :
    (host.runPaced file).2 = host.run file ∧
    (host.runReport file).2 = (host.run file).2 ∧
    Tells (host.runReport file).1 file (host.run file) ∧
    ((∃ errors, file.compile = .error errors) ↔
      ∃ kind ∈ (host.run file).1.failureKind?, kind = .lex ∨ kind = .parse) ∧
    (match file.compile with
      | .error errors => host.Refuses errors (host.run file)
      | .ok program => host.Performs program (host.run file)) ∧
    (host.run file).1 ≠ .aborted .parse "script did not compile" := by
  refine ⟨?_, congrArg Prod.snd (host.runReport_eq_run file), host.runReport_tells file, ?_⟩
  · unfold runPaced run
    rcases file.compile with errors | program
    · rfl
    · exact host.interpretPaced_eq_interpret program
  rcases host.run_cases file with ⟨errors, failed, refused⟩ | ⟨program, read, performed⟩
  · obtain ⟨first, found, outcome⟩ := refused.first
    obtain ⟨same, found', told⟩ := SourceFile.first_of_compile_error failed
    obtain rfl : first = same := Option.some.inj (found.symm.trans found')
    rw [failed]
    refine ⟨⟨fun _ => ⟨first.kind, ?_, ?_⟩, fun _ => ⟨errors, rfl⟩⟩, refused, ?_⟩
    · rw [outcome]
      rfl
    · exact FailureKind.isCompileTime_iff.mp first.isCompileTime_kind
    · rw [outcome]
      intro same
      rw [RunOutcome.aborted.injEq] at same
      obtain ⟨fault, message⟩ := told same.1
      exact fault.message_ne_fallback (message.symm.trans same.2)
  · rw [read]
    have none : ¬∃ kind ∈ (host.run file).1.failureKind?, kind = .lex ∨ kind = .parse := by
      rintro ⟨kind, failed, reading⟩
      have other := (performed.runtime kind failed).1
      rw [FailureKind.isCompileTime_iff.mpr reading] at other
      cases other
    refine ⟨⟨?_, fun failed => absurd failed none⟩, performed, ?_⟩
    · rintro ⟨errors, ⟨⟩⟩
    · intro fallback
      exact none ⟨.parse, by rw [fallback]; rfl, .inr rfl⟩

/-- An assignment without a value is refused, and one with a value is performed. -/
theorem run_pipeline_assignment :
    (∃ errors, Refuses { world := Grid.empty } errors (run { world := Grid.empty } ⟨"", "x = ;"⟩)) ∧
      ∃ program, Performs { world := Grid.empty } program
        (run { world := Grid.empty } ⟨"", "x = 1;"⟩) := by
  have unread : (SourceFile.compile ⟨"", "x = ;"⟩).isOk = false := by decide +kernel
  have read : (SourceFile.compile ⟨"", "x = 1;"⟩).isOk = true := by decide +kernel
  obtain ⟨-, -, -, -, refused, -⟩ := run_pipeline { world := Grid.empty } ⟨"", "x = ;"⟩
  obtain ⟨-, -, -, -, performed, -⟩ := run_pipeline { world := Grid.empty } ⟨"", "x = 1;"⟩
  constructor
  · split at refused
    · exact ⟨_, refused⟩
    · rename_i found
      rw [found] at unread
      cases unread
  · split at performed
    · rename_i found
      rw [found] at read
      cases read
    · exact ⟨_, performed⟩

end Interpreter

end Waggle
