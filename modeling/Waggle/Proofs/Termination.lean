import Waggle.Proofs.Stepping

/-!
# How long a run and a step can take

A run has a budget of steps that its program alone decides, and every step that pauses takes from
it, so a run is over after at most one step more than its budget (`steps_finish`). Within a step,
the machine looks at the innermost frame turn by turn: a turn that does not end the step takes one
frame away, so there is at most one turn more than there are frames (`turns_eq_advance`).
-/

namespace Waggle

/-- What one turn of looking for the next step comes to. -/
inductive Turn where
  /-- The innermost frame has ended, and the others are looked at in the next turn. -/
  | again (frames : List Frame)
  /-- There is a step to take, or nothing is left. -/
  | ended (result : Option Progress)

variable {ω : Type} [World ω]

/-- One turn, which looks at the innermost frame and no other. -/
def turn (scope : Scope) : List Frame → Eval ω Turn
  | [] => return .ended none
  | .block [] :: frames => return .again frames
  | .block (stmt :: rest) :: frames =>
    (fun progress => .ended (some progress)) <$> stmt.execute scope (.block rest :: frames)
  | .whileLoop condition body span begun :: frames => do
    let value ← condition.eval scope
    if value.truthy then
      if maxIterations ≤ begun then
        throw .infiniteLoopGuardTripped
      else
        return .ended (some ⟨.iteration span (begun + 1),
          .block body :: .whileLoop condition body span (begun + 1) :: frames,
          scope.environment⟩)
    else
      return .again frames
  | .repeatLoop _ _ 0 _ :: frames => return .again frames
  | .repeatLoop body span (remaining + 1) begun :: frames =>
    return .ended (some ⟨.iteration span (begun + 1),
      .block body :: .repeatLoop body span remaining (begun + 1) :: frames,
      scope.environment⟩)

/-- What at most `limit` turns come to, or nothing if they are not enough. -/
def turns (scope : Scope) :
    (limit : Nat) → List Frame → ω → Option (Except RuntimeError (Option Progress) × ω)
  | 0, _, _ => none
  | limit + 1, frames, world =>
    match turn scope frames world with
    | (.ok (.again rest), after) => turns scope limit rest after
    | (.ok (.ended result), after) => some (.ok result, after)
    | (.error error, after) => some (.error error, after)

/-- One turn more than there are frames is always enough, and then comes to what the step does. -/
theorem turns_eq_advance (scope : Scope) (frames : List Frame) (world : ω) :
    turns scope (frames.length + 1) frames world = some (advance scope frames world) := by
  induction frames generalizing world with
  | nil => rfl
  | cons frame frames ih =>
    rw [List.length_cons, turns]
    match frame with
    | .block [] => exact ih world
    | .block (stmt :: rest) =>
      simp only [turn, advance, ← bind_pure_comp, Eval.bind_apply]
      rcases stmt.execute scope (.block rest :: frames) world with ⟨result | result, after⟩ <;>
        rfl
    | .whileLoop condition body span begun =>
      simp only [turn, advance, Eval.bind_apply]
      rcases condition.eval scope world with ⟨error | value, after⟩
      · rfl
      · by_cases holds : value.truthy = true
        · by_cases spent : maxIterations ≤ begun
          · simp only [if_pos holds, if_pos spent]
            rfl
          · simp only [if_pos holds, if_neg spent]
            rfl
        · simp only [if_neg holds]
          exact ih after
    | .repeatLoop body span 0 begun => exact ih world
    | .repeatLoop body span (remaining + 1) begun => rfl

namespace Execution

/-- A run pauses at most as often as its budget allows, and its next step tells the outcome. -/
theorem steps_finish (run : Execution ω) :
    ∃ (points : List SuspendPoint) (outcome : RunOutcome), points.length ≤ run.budget ∧
      (run.steps (points.length + 1)).1 =
        points.map Step.suspended ++ [Step.finished outcome] := by
  induction measure : run.budget using Nat.strongRecOn generalizing run with
  | ind budget ih =>
    subst measure
    rcases stepped : run.step with ⟨point | outcome, next⟩
    · have smaller : next.budget < run.budget := by
        simpa only [stepped] using budget_step_lt (congrArg Prod.fst stepped)
      obtain ⟨points, outcome, few, taken⟩ := ih _ smaller next rfl
      refine ⟨point :: points, outcome, Nat.lt_of_le_of_lt few smaller, ?_⟩
      simp only [List.length_cons, steps, stepped, List.map_cons, List.cons_append]
      exact congrArg _ taken
    · refine ⟨[], outcome, Nat.zero_le _, ?_⟩
      simp only [List.length_nil, steps, stepped, List.map_nil, List.nil_append]

end Execution

/-- Every run ends within a bound that its program alone decides: whatever the interpreter starts
with and whatever the world answers, at most as many steps pause as the budget of the program
says, and the step after them tells how the run ended. No step of any run takes more turns than
one more than there are frames. -/
theorem Interpreter.start_finishes (host : Interpreter ω) (program : Program) :
    (∃ (points : List SuspendPoint) (outcome : RunOutcome), points.length ≤ budgetOf program.stmts ∧
      ((host.start program).steps (points.length + 1)).1 =
        points.map Step.suspended ++ [Step.finished outcome]) ∧
      ∀ run : Execution ω,
        turns run.host.scope (run.frames.length + 1) run.frames run.host.world =
          some (advance run.host.scope run.frames run.host.world) := by
  constructor
  · exact (host.start program).steps_finish
  · intro run
    exact turns_eq_advance run.host.scope run.frames run.host.world

end Waggle
