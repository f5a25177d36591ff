import Waggle.Proofs.Session

/-!
# Cutting a run short

A run that is cancelled or let go of ends between two steps: the world and the bindings are those
that the steps before have left, and the feedback about the run is given once. A run that has
finished is not touched any more. Both hold for every schedule of steps, requests and letting go
(`start_follow`).
-/

namespace Waggle

variable {ω : Type}

namespace Interpreter

/-- An interpreter but for the request to end the current run. -/
def unasked (host : Interpreter ω) : Interpreter ω := { host with cancelRequested := false }

/-- An interpreter after a run from another one was cut short: there is one more line on the console
and one more cue. -/
def cutFrom (before after : Interpreter ω) : Interpreter ω :=
  { after with
    console := ⟨before.console.lines ++ ["run cancelled"]⟩
    audio := before.audio.play .failure
    state := .concluded cutShort
    cancelRequested := false }

end Interpreter

/-- The steps that a schedule takes before it lets go. -/
def stepsOf (schedule : List Control) : Nat := (schedule.takeWhile (· ≠ .drop)).count .step

/-- A step counts. -/
@[simp] theorem stepsOf_step (rest : List Control) :
    stepsOf (.step :: rest) = stepsOf rest + 1 := by
  simp [stepsOf]

/-- A request is no step. -/
@[simp] theorem stepsOf_cancel (rest : List Control) :
    stepsOf (.cancel :: rest) = stepsOf rest := by
  simp [stepsOf]

/-- Nothing counts that comes after letting go. -/
@[simp] theorem stepsOf_drop (rest : List Control) : stepsOf (.drop :: rest) = 0 := by
  simp [stepsOf]

/-- The steps that a schedule takes at first, before anything else. -/
def leadingSteps (schedule : List Control) : Nat := (schedule.takeWhile (· = .step)).length

/-- A schedule is any number of its leading steps and the rest. -/
theorem replicate_step_append_drop {schedule : List Control} {count : Nat}
    (within : count ≤ leadingSteps schedule) :
    List.replicate count .step ++ schedule.drop count = schedule := by
  induction schedule generalizing count with
  | nil => simp_all [leadingSteps]
  | cons control rest ih =>
    match count, control with
    | 0, _ => rfl
    | count + 1, .step =>
      have fewer : count ≤ leadingSteps rest := by simpa [leadingSteps] using within
      simp [List.replicate_succ, ih fewer]
    | count + 1, .cancel | count + 1, .drop => simp [leadingSteps] at within

/-- What comes after the leading steps interrupts them. -/
theorem head?_drop_leadingSteps (schedule : List Control) :
    (schedule.drop (leadingSteps schedule)).head? ≠ some .step := by
  induction schedule with
  | nil => simp
  | cons control rest ih => cases control <;> simp_all [leadingSteps]

variable [World ω]

namespace Execution

/-- A step that tells an outcome leaves a run that has it. -/
theorem outcome_of_finished {run : Execution ω} {outcome : RunOutcome}
    (ended : run.step.1 = .finished outcome) : run.step.2.outcome = some outcome := by
  rcases known : run.outcome with _ | earlier
  · obtain ⟨point, world, environment, frames, paused⟩ | ⟨world, found, finished⟩ :=
      step_cases known
    · rw [paused] at ended
      cases ended
    · rw [finished] at ended ⊢
      cases ended
      rfl
  · rw [step_of_finished known] at ended ⊢
    cases ended
    exact known

/-- A finished run is not changed by steps. -/
theorem steps_of_finished {run : Execution ω} {outcome : RunOutcome}
    (finished : run.outcome = some outcome) (count : Nat) : (run.steps count).2 = run := by
  induction count with
  | zero => rfl
  | succ count ih => simp only [steps, step_of_finished finished, ih]

/-- A run has the outcome that one of its steps has told. -/
theorem outcome_of_mem_steps {run : Execution ω} {outcome : RunOutcome} {count : Nat}
    (told : .finished outcome ∈ (run.steps count).1) :
    (run.steps count).2.outcome = some outcome := by
  induction count generalizing run with
  | zero => cases told
  | succ count ih =>
    rcases List.mem_cons.mp told with now | later
    · have ended := outcome_of_finished now.symm
      show (run.step.2.steps count).2.outcome = some outcome
      rw [steps_of_finished ended, ended]
    · exact ih later

/-- As long as no step tells an outcome, the run goes on, and nothing but the world and the bindings
has changed. -/
theorem steps_of_unfinished {run : Execution ω} (unfinished : run.outcome = none) {count : Nat}
    (untold : ∀ outcome, .finished outcome ∉ (run.steps count).1) :
    (run.steps count).2.outcome = none ∧
      ∃ world environment, (run.steps count).2.host = { run.host with world, environment } := by
  induction count generalizing run with
  | zero => exact ⟨unfinished, _, _, rfl⟩
  | succ count ih =>
    obtain ⟨point, world, environment, frames, paused⟩ | ⟨world, outcome, finished⟩ :=
      step_cases unfinished
    · simp only [steps, paused] at untold ⊢
      have later outcome : .finished outcome ∉ (steps count _).1 := fun told =>
        untold outcome (List.mem_cons_of_mem _ told)
      exact ih rfl later
    · exact absurd (by simp [steps, finished, finish]) (untold outcome)

end Execution

namespace Session

/-- A schedule that begins with steps goes on from where they lead. -/
theorem follow_steps (run : Execution ω) (count : Nat) (rest : List Control) :
    (live run).follow (List.replicate count .step ++ rest) =
      ((run.steps count).1 ++ ((live (run.steps count).2).follow rest).1,
        ((live (run.steps count).2).follow rest).2) := by
  induction count generalizing run with
  | zero => rfl
  | succ count ih =>
    simp only [List.replicate_succ, List.cons_append, follow, Session.control, ih]
    rfl

/-- Where no execution is live, a schedule has no answers and can only ask to cancel. -/
theorem follow_free (host : Interpreter ω) (schedule : List Control) :
    ((free host).follow schedule).1 = [] ∧
      ((free host).follow schedule).2.host.unasked = host.unasked := by
  induction schedule generalizing host with
  | nil => exact ⟨rfl, rfl⟩
  | cons control rest ih =>
    cases control with
    | step | drop => exact ih host
    | cancel => exact ih host.cancel

/-- A schedule for a finished run is told its outcome at every step and changes nothing. -/
theorem follow_finished {run : Execution ω} {outcome : RunOutcome}
    (finished : run.outcome = some outcome) (schedule : List Control) :
    ((live run).follow schedule).1 = List.replicate (stepsOf schedule) (.finished outcome) ∧
      ((live run).follow schedule).2.host.unasked = run.host.unasked := by
  induction schedule generalizing run with
  | nil => exact ⟨rfl, rfl⟩
  | cons control rest ih =>
    cases control with
    | step =>
      obtain ⟨answers, same⟩ := ih finished
      simp only [follow, Session.control, Execution.step_of_finished finished, answers,
        stepsOf_step]
      exact ⟨rfl, same⟩
    | cancel =>
      have still : run.cancel.outcome = some outcome := finished
      rw [stepsOf_cancel]
      exact ih still
    | drop =>
      rw [stepsOf_drop, ← Execution.abandon_of_finished finished]
      exact follow_free run.abandon rest

/-- A schedule for a run that is to be cancelled finds it cut short at its next step, or lets go of
it. -/
theorem follow_cancelled {run : Execution ω} (unfinished : run.outcome = none)
    (cancelled : run.host.cancelRequested = true) (schedule : List Control) :
    ((live run).follow schedule).1 = List.replicate (stepsOf schedule) (.finished cutShort) ∧
      ((live run).follow schedule).2.host.unasked =
        if schedule.all (· = .cancel) then run.host.unasked
        else (run.host.conclude cutShort).unasked := by
  induction schedule generalizing run with
  | nil => exact ⟨rfl, rfl⟩
  | cons control rest ih =>
    cases control with
    | step =>
      have finished : (Execution.finish run.host cutShort).2.outcome = some cutShort := rfl
      obtain ⟨answers, same⟩ := follow_finished finished rest
      simp only [follow, Session.control, Execution.step_of_cancelled unfinished cancelled,
        stepsOf_step]
      exact ⟨congrArg (_ :: ·) answers, same⟩
    | cancel =>
      have still : run.cancel.outcome = none := unfinished
      rw [stepsOf_cancel]
      exact ih still rfl
    | drop =>
      rw [stepsOf_drop, ← Execution.abandon_of_unfinished unfinished]
      exact follow_free run.abandon rest

/-- An unfinished run is cut short where its steps are interrupted. -/
theorem follow_interrupted {run : Execution ω} (unfinished : run.outcome = none)
    {schedule : List Control} (interrupted : schedule.head? ≠ some .step) :
    ((live run).follow schedule).1 = List.replicate (stepsOf schedule) (.finished cutShort) ∧
      ((live run).follow schedule).2.host.unasked =
        if schedule.all (· = .cancel) then run.host.unasked
        else (run.host.conclude cutShort).unasked := by
  match schedule with
  | [] => exact ⟨rfl, rfl⟩
  | .step :: rest => exact absurd rfl interrupted
  | .cancel :: rest =>
    have still : run.cancel.outcome = none := unfinished
    rw [stepsOf_cancel]
    exact follow_cancelled still rfl rest
  | .drop :: rest =>
    rw [stepsOf_drop, ← Execution.abandon_of_unfinished unfinished]
    exact follow_free run.abandon rest

/-- To let go of a run is to cancel it and to take a step. -/
theorem follow_drop (session : Session ω) :
    (session.follow [.drop]).2.host.unasked = (session.follow [.cancel, .step]).2.host.unasked := by
  cases session with
  | free host => rfl
  | live run =>
    show run.abandon.unasked = run.cancel.step.2.host.unasked
    rcases known : run.outcome with _ | outcome
    · have still : run.cancel.outcome = none := known
      rw [Execution.abandon_of_unfinished known, Execution.step_of_cancelled still rfl]
      rfl
    · have still : run.cancel.outcome = some outcome := known
      rw [Execution.abandon_of_finished known, Execution.step_of_finished still]
      rfl

end Session

namespace Interpreter

/-- A run of steps that tell no outcome is cut short after them by whatever interrupts it. -/
theorem start_follow_unfinished (host : Interpreter ω) (program : Program) {count : Nat}
    (untold : ∀ outcome, .finished outcome ∉ ((host.start program).steps count).1)
    {rest : List Control} (interrupted : rest.head? ≠ some .step) :
    let cut := (host.start program).steps count
    let whole := (Session.live (host.start program)).follow (List.replicate count .step ++ rest)
    whole.1 = cut.1 ++ List.replicate (stepsOf rest) (.finished cutShort) ∧
      whole.2.host.unasked =
        if rest.all (· = .cancel) then cut.2.host.unasked else host.cutFrom cut.2.host := by
  intro cut whole
  obtain ⟨unfinished, world, environment, kept⟩ := Execution.steps_of_unfinished rfl untold
  obtain ⟨answers, ended⟩ := Session.follow_interrupted unfinished interrupted
  have concluded : (cut.2.host.conclude cutShort).unasked = host.cutFrom cut.2.host := by
    rw [kept]
    rfl
  simp only [whole, Session.follow_steps, answers, ended, ← concluded]
  exact ⟨rfl, rfl⟩

/-- A run that has finished within some steps has the same outcome and the same effects whatever
comes after them. -/
theorem start_follow_finished (host : Interpreter ω) (program : Program) {count : Nat}
    {outcome : RunOutcome} (told : .finished outcome ∈ ((host.start program).steps count).1)
    (rest : List Control) :
    let done := (host.start program).steps count
    let whole := (Session.live (host.start program)).follow (List.replicate count .step ++ rest)
    whole.1 = done.1 ++ List.replicate (stepsOf rest) (.finished outcome) ∧
      whole.2.host.unasked = done.2.host.unasked := by
  intro done whole
  obtain ⟨answers, same⟩ := Session.follow_finished (Execution.outcome_of_mem_steps told) rest
  simp only [whole, Session.follow_steps, answers, same]
  exact ⟨rfl, rfl⟩

end Interpreter

/-- A run is cut at a step, whatever the schedule. If none of its leading steps tells an outcome,
every later step finds the run cut short, and once there is one, or the run is let go of, the
interpreter is as the leading steps have left it but for one line, one cue and the state. If the run
has finished within the leading steps, every later step tells the same outcome, and nothing changes
any more. To let go is to cancel and to take a step, and a request from before the run has no effect
on it. -/
theorem Interpreter.start_follow (host : Interpreter ω) (program : Program)
    (schedule : List Control) :
    let uncut := fun count => (host.start program).steps count
    let taken := leadingSteps schedule
    let rest := schedule.drop taken
    let whole := (Session.live (host.start program)).follow schedule
    ((∀ outcome, .finished outcome ∉ (uncut taken).1) →
      whole.1 = (uncut taken).1 ++ List.replicate (stepsOf rest) (.finished cutShort) ∧
      whole.2.host.unasked =
        if rest.all (· = .cancel) then (uncut taken).2.host.unasked
        else host.cutFrom (uncut taken).2.host) ∧
    (∀ count ≤ taken, ∀ outcome, .finished outcome ∈ (uncut count).1 →
      whole.1 = (uncut count).1 ++
        List.replicate (stepsOf (schedule.drop count)) (.finished outcome) ∧
      whole.2.host.unasked = (uncut count).2.host.unasked) ∧
    (whole.2.follow [.drop]).2.host.unasked =
      (whole.2.follow [.cancel, .step]).2.host.unasked ∧
    (Session.live (host.cancel.start program)).follow schedule = whole := by
  intro uncut taken rest whole
  refine ⟨fun untold => ?_, fun count within outcome told => ?_, Session.follow_drop _, rfl⟩
  · have cut := start_follow_unfinished host program untold (head?_drop_leadingSteps schedule)
    rwa [replicate_step_append_drop (Nat.le_refl taken)] at cut
  · have done := start_follow_finished host program told (schedule.drop count)
    rwa [replicate_step_append_drop within] at done

end Waggle
