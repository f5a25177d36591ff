import Waggle.Run.Complete

/-!
# What one step does

The three ways in which a step of an unfinished run can end, told by what `advance` comes to, and
how driving a run follows its steps.
-/

namespace Waggle

variable {ω : Type}

/-- A computation under a function fails where the computation does. -/
theorem Eval.map_apply {α β : Type} (f : α → β) (computation : Eval ω α) (world : ω) :
    (f <$> computation) world =
      match computation world with
      | (.ok result, after) => (.ok (f result), after)
      | (.error error, after) => (.error error, after) := by
  rw [← bind_pure_comp, Eval.bind_apply]
  rcases computation world with ⟨error | result, after⟩ <;> rfl

/-- A computation under a function leaves the world that the computation leaves. -/
theorem Eval.map_snd {α β : Type} (f : α → β) (computation : Eval ω α) (world : ω) :
    ((f <$> computation) world).2 = (computation world).2 := by
  rw [map_apply]
  rcases computation world with ⟨error | result, after⟩ <;> rfl

/-- The feedback about a run leaves the world as it is. -/
@[simp] theorem Interpreter.conclude_world (host : Interpreter ω) (outcome : RunOutcome) :
    (host.conclude outcome).world = host.world := by
  cases outcome <;> rfl

/-- The feedback about a run leaves the bindings as they are. -/
@[simp] theorem Interpreter.conclude_environment (host : Interpreter ω) (outcome : RunOutcome) :
    (host.conclude outcome).environment = host.environment := by
  cases outcome <;> rfl

/-- The feedback about a run leaves the settings as they are. -/
@[simp] theorem Interpreter.conclude_config (host : Interpreter ω) (outcome : RunOutcome) :
    (host.conclude outcome).config = host.config := by
  cases outcome <;> rfl

namespace Execution

variable [World ω]

/-- A step of a finished run tells its outcome again. -/
theorem step_of_finished {run : Execution ω} {outcome : RunOutcome}
    (finished : run.outcome = some outcome) : run.step = (.finished outcome, run) := by
  simp [step, finished]

/-- A step of a run that is to be cancelled ends it. -/
theorem step_of_cancelled {run : Execution ω} (unfinished : run.outcome = none)
    (cancelled : run.host.cancelRequested = true) :
    run.step = finish run.host (.ofError .cancelled) := by
  simp [step, unfinished, cancelled]

section Step

variable {run : Execution ω} {world : ω} (unfinished : run.outcome = none)
  (uncancelled : run.host.cancelRequested = false)

include unfinished uncancelled

/-- A step that makes progress pauses. -/
theorem step_of_some {progress : Progress}
    (advanced : advance run.host.scope run.frames run.host.world = (.ok (some progress), world)) :
    run.step = (.suspended progress.point,
      ⟨{ run.host with world, environment := progress.environment }, progress.frames, none⟩) := by
  simp [step, unfinished, uncancelled, advanced]

/-- A step with nothing left to do completes the run. -/
theorem step_of_none
    (advanced : advance run.host.scope run.frames run.host.world = (.ok none, world)) :
    run.step = finish { run.host with world } .completed := by
  simp [step, unfinished, uncancelled, advanced]

/-- A step that fails aborts the run. -/
theorem step_of_error {error : RuntimeError}
    (advanced : advance run.host.scope run.frames run.host.world = (.error error, world)) :
    run.step = finish { run.host with world } (.ofError error) := by
  simp [step, unfinished, uncancelled, advanced]

end Step

/-- All that a step of an unfinished run can do: it pauses and has changed nothing but the world and
the bindings, or it ends the run and has changed nothing but the world before the feedback. -/
theorem step_cases {run : Execution ω} (unfinished : run.outcome = none) :
    (∃ point world environment frames, run.step =
      (.suspended point, ⟨{ run.host with world, environment }, frames, none⟩)) ∨
    ∃ world outcome, run.step = finish { run.host with world } outcome := by
  rcases requested : run.host.cancelRequested with _ | _
  · rcases advanced : advance run.host.scope run.frames run.host.world with
      ⟨error | progress | progress, world⟩
    · exact .inr ⟨_, _, step_of_error unfinished requested advanced⟩
    · exact .inr ⟨_, _, step_of_none unfinished requested advanced⟩
    · exact .inl ⟨_, _, _, _, step_of_some unfinished requested advanced⟩
  · exact .inr ⟨_, _, step_of_cancelled unfinished requested⟩

/-- All that a step can do: it tells the outcome again, or it ends the run in the world as it is or
as looking for what is to be done leaves it, or it makes progress. -/
theorem step_inversion (run : Execution ω) :
    (∃ outcome, run.step = (.finished outcome, run)) ∨
    (∃ world outcome, run.step = finish { run.host with world } outcome ∧
      (world = run.host.world ∨
        world = (advance run.host.scope run.frames run.host.world).2)) ∨
    ∃ progress world,
      advance run.host.scope run.frames run.host.world = (.ok (some progress), world) ∧
      run.step = (.suspended progress.point,
        ⟨{ run.host with world, environment := progress.environment }, progress.frames, none⟩) := by
  rcases known : run.outcome with _ | outcome
  · rcases requested : run.host.cancelRequested with _ | _
    · rcases advanced : advance run.host.scope run.frames run.host.world with
        ⟨error | _ | progress, world⟩
      · exact .inr (.inl ⟨world, _, step_of_error known requested advanced, .inr rfl⟩)
      · exact .inr (.inl ⟨world, _, step_of_none known requested advanced, .inr rfl⟩)
      · exact .inr (.inr ⟨progress, world, rfl, step_of_some known requested advanced⟩)
    · exact .inr (.inl ⟨_, _, step_of_cancelled known requested, .inl rfl⟩)
  · exact .inl ⟨outcome, step_of_finished known⟩

/-- Driving a run that pauses goes on from where it paused. -/
theorem drive_of_suspended {α : Type} (visit : α → SuspendPoint → α) (seen : α)
    {run next : Execution ω} {point : SuspendPoint}
    (paused : run.step = (.suspended point, next)) :
    run.drive visit seen = next.drive visit (visit seen point) := by
  rw [drive]
  split
  · rename_i found
    rw [paused] at found
    cases found
    rfl
  · rename_i found
    rw [paused] at found
    cases found

/-- Driving a run that ends is over. -/
theorem drive_of_finished {α : Type} (visit : α → SuspendPoint → α) (seen : α)
    {run last : Execution ω} {outcome : RunOutcome}
    (ended : run.step = (.finished outcome, last)) :
    run.drive visit seen = (seen, outcome, last) := by
  rw [drive]
  split
  · rename_i found
    rw [ended] at found
    cases found
  · rename_i found
    rw [ended] at found
    cases found
    rfl

/-- Steps after steps are steps of the run that the first ones leave. -/
theorem steps_add (run : Execution ω) (first second : Nat) :
    (run.steps (first + second)).2 = ((run.steps first).2.steps second).2 := by
  induction first generalizing run with
  | zero => rw [Nat.zero_add]; rfl
  | succ first ih =>
    rw [Nat.succ_add]
    exact ih run.step.2

/-- Driving a run visits the points where its steps pause, until one of them ends it. -/
theorem drive_of_steps {α : Type} (visit : α → SuspendPoint → α) (seen : α) {run : Execution ω}
    {points : List SuspendPoint} {outcome : RunOutcome}
    (taken : (run.steps (points.length + 1)).1 =
      points.map Step.suspended ++ [Step.finished outcome]) :
    run.drive visit seen =
      (points.foldl visit seen, outcome, (run.steps (points.length + 1)).2) := by
  induction points generalizing run seen with
  | nil =>
    have ended : run.step.1 = .finished outcome := List.head_eq_of_cons_eq taken
    exact drive_of_finished visit seen (Prod.ext ended rfl)
  | cons point points ih =>
    have paused : run.step.1 = .suspended point := List.head_eq_of_cons_eq taken
    have later : (run.step.2.steps (points.length + 1)).1 =
        points.map Step.suspended ++ [Step.finished outcome] := List.tail_eq_of_cons_eq taken
    rw [drive_of_suspended visit seen (Prod.ext paused rfl)]
    exact ih (visit seen point) later

/-- The points where a run pauses on its way to the end, in order. -/
def points (run : Execution ω) : List SuspendPoint :=
  (run.drive (fun points point => points ++ [point]) []).1

end Execution

end Waggle
