import Waggle.Run.Execution

/-!
# Every run ends

A program has a budget of steps that depends on nothing but the program: a `while` runs its body
at most `maxIterations` times, and a `repeat` at most as often as the greatest integer says. A
step that pauses leaves a smaller budget (`budget_step_lt`), whatever the world answers, so
running to the end is a well-founded recursion.
-/

namespace Waggle

/-- The greatest number of repetitions that a script can ask for. -/
def maxRepetitions : Nat := 9223372036854775807

mutual

/-- The steps that a statement can take. -/
def Stmt.budget : Stmt → Nat
  | .branch _ consequent none _ => 1 + budgetOf consequent.stmts
  | .branch _ consequent (some alternative) _ =>
    1 + max (budgetOf consequent.stmts) (budgetOf alternative.stmts)
  | .whileLoop _ body _ => 1 + maxIterations * (1 + budgetOf body.stmts)
  | .repeatLoop _ body _ => 1 + maxRepetitions * (1 + budgetOf body.stmts)
  | .assign .. | .evaluate .. | .move .. | .moveTo .. | .attack .. => 1

/-- The steps that statements can take one after the other. -/
def budgetOf : List Stmt → Nat
  | [] => 0
  | stmt :: rest => stmt.budget + budgetOf rest

end

/-- The steps that a frame can still take. -/
def Frame.budget : Frame → Nat
  | .block rest => budgetOf rest
  | .whileLoop _ body _ begun => (maxIterations - begun) * (1 + budgetOf body)
  | .repeatLoop body _ remaining _ => remaining * (1 + budgetOf body)

/-- The steps that a stack of frames can still take. -/
def stackBudget : List Frame → Nat
  | [] => 0
  | frame :: frames => frame.budget + stackBudget frames

/-- A number of repetitions is a script integer. -/
theorem Value.repeatCount_le {value : Value} {count : Nat}
    (counted : value.repeatCount = .ok count) : count ≤ maxRepetitions := by
  unfold repeatCount at counted
  split at counted
  · rename_i number
    split at counted
    · cases counted
    · cases counted
      have range := Integer.inRange number
      unfold Integer.greatest at range
      unfold maxRepetitions
      omega
  · cases counted

/-- The budget of a statement is positive. -/
theorem Stmt.budget_pos (stmt : Stmt) : 1 ≤ stmt.budget := by
  unfold Stmt.budget
  split <;> omega

variable {ω : Type} [World ω]

/-- Carrying out a statement takes a step from its budget. -/
theorem Stmt.execute_budget (scope : Scope) (stmt : Stmt) (frames : List Frame) :
    (stmt.execute scope frames : Eval ω Progress).Ensures fun progress =>
      stackBudget progress.frames < stmt.budget + stackBudget frames := by
  unfold Stmt.execute
  split
  · rename_i condition consequent alternative span
    refine .bind fun value => .pure ?_
    dsimp only
    split
    · cases alternative <;> simp only [stackBudget, Frame.budget, Stmt.budget] <;> omega
    · cases alternative <;> simp only [stackBudget, Frame.budget, Stmt.budget] <;> omega
  · refine .pure ?_
    simp only [stackBudget, Frame.budget, Stmt.budget, Nat.sub_zero]
    omega
  · rename_i count body span
    refine .bind fun value => .bind_of (.ofExcept fun _ counted => Value.repeatCount_le counted) ?_
    intro number small
    refine .pure ?_
    have product := Nat.mul_le_mul_right (1 + budgetOf body.stmts) small
    simp only [stackBudget, Frame.budget, Stmt.budget]
    omega
  · refine .bind fun deed => .bind fun environment => .pure ?_
    have positive := Stmt.budget_pos stmt
    show stackBudget frames < _
    omega

/-- One step takes a step from the budget. -/
theorem advance_budget (scope : Scope) (frames : List Frame) :
    (advance scope frames : Eval ω (Option Progress)).Ensures fun result =>
      ∀ progress, result = some progress →
        stackBudget progress.frames < stackBudget frames := by
  induction frames with
  | nil => exact .pure fun progress absurd => nomatch absurd
  | cons frame frames ih =>
    have skipped {extra : Nat} :
        (advance scope frames : Eval ω (Option Progress)).Ensures fun result =>
          ∀ progress, result = some progress →
            stackBudget progress.frames < extra + stackBudget frames := by
      intro world result after ran progress found
      have smaller := ih world result after ran progress found
      omega
    match frame with
    | .block [] => exact skipped
    | .block (stmt :: rest) =>
      refine .map ?_
      intro world result after ran progress found
      have smaller := Stmt.execute_budget scope stmt _ world result after ran
      cases found
      simpa [stackBudget, Frame.budget, budgetOf, Nat.add_assoc] using smaller
    | .whileLoop condition body span begun =>
      refine .bind fun value => ?_
      split
      · split
        · exact .throw
        · rename_i below
          refine .pure fun progress found => ?_
          cases found
          have split : maxIterations - begun = (maxIterations - (begun + 1)) + 1 := by omega
          simp only [stackBudget, Frame.budget]
          rw [split, Nat.add_mul]
          omega
      · exact skipped
    | .repeatLoop body span 0 begun => exact skipped
    | .repeatLoop body span (remaining + 1) begun =>
      refine .pure fun progress found => ?_
      cases found
      simp only [stackBudget, Frame.budget]
      rw [Nat.add_mul]
      omega

namespace Execution

/-- The steps that a run can still take. -/
def budget (run : Execution ω) : Nat := stackBudget run.frames

/-- A step that pauses leaves a smaller budget. -/
theorem budget_step_lt {run : Execution ω} {point : SuspendPoint}
    (suspended : run.step.1 = .suspended point) : run.step.2.budget < run.budget := by
  unfold step at suspended ⊢
  split at suspended
  · cases suspended
  · split at suspended
    · cases suspended
    · split at suspended
      · rename_i running _ progress world advanced
        rw [if_neg running]
        exact advance_budget run.host.scope run.frames _ _ _ advanced progress rfl
      · cases suspended
      · cases suspended

/-- Steps until the run has finished, and folds the points where it pauses. -/
def drive {α : Type} (visit : α → SuspendPoint → α) (seen : α) (run : Execution ω) :
    α × RunOutcome × Execution ω :=
  match result : run.step with
  | (.suspended point, next) =>
    have smaller : next.budget < run.budget := by
      have paused : run.step.1 = .suspended point := by rw [result]
      have lower := budget_step_lt paused
      rwa [result] at lower
    drive visit (visit seen point) next
  | (.finished outcome, last) => (seen, outcome, last)
termination_by run.budget

end Execution

end Waggle
