import Waggle.Proofs.Stepping
import Waggle.Proofs.Structural

/-!
# Stepping carries out the structural meaning

A stack of frames means the structural runs of its frames, innermost first. One step of the
machine is the beginning of that meaning, and the frames that it leaves are the rest of it
(`carryOutFrames_eq_advance`), so by induction over a run stepping to the end is the structural
run of the whole program.
-/

namespace Waggle

namespace Structural

variable {ω α β : Type} (actor : String)

/-- A consultation that asks nothing is its result. -/
theorem consult_pure (value : α) :
    consult actor (fun _ => (pure value : Eval ω α)) = pure value := rfl

/-- Two computations after each other are consulted after each other, since the first leaves the
bindings as they are. -/
theorem consult_bind (first : Scope → Eval ω α) (next : Scope → α → Eval ω β) :
    consult actor (fun scope => first scope >>= next scope) =
      consult actor first >>= fun result => consult actor fun scope => next scope result := by
  funext situation
  rw [Eval.bind_apply]
  unfold consult
  dsimp only
  rw [Eval.bind_apply]
  rcases first ⟨situation.environment, actor⟩ situation.world with ⟨result | result, world⟩ <;>
    rfl

/-- A result under a function is consulted under it. -/
theorem consult_map (f : α → β) (computation : Scope → Eval ω α) :
    consult actor (fun scope => f <$> computation scope) = f <$> consult actor computation := by
  simp only [← bind_pure_comp]
  rw [consult_bind]
  rfl

/-- Takes up the bindings that a step leaves and notes its point. -/
def settle (progress : Progress) : Eval (Situation ω) Unit := fun situation =>
  (.ok (), { situation with
    environment := progress.environment
    points := situation.points ++ [progress.point] })

end Structural

open Structural

variable {ω : Type}

/-- The interpreter that a structural run leaves once it has ended. -/
def Situation.leave (final : Situation ω) (host : Interpreter ω) (outcome : RunOutcome) :
    Interpreter ω :=
  { host with environment := final.environment, world := final.world }.conclude outcome

variable [World ω]

/-- What a frame still has to do. -/
def Frame.carryOut (actor : String) : Frame → Eval (Situation ω) Unit
  | .block rest => carryOutAll actor rest
  | .whileLoop condition body span begun =>
    whileHolds span (consult actor fun scope => condition.eval scope) (carryOutAll actor body)
      (1000 - begun) begun
  | .repeatLoop body span remaining begun =>
    times span (carryOutAll actor body) remaining begun

/-- What a stack of frames still has to do, the innermost first. -/
def carryOutFrames (actor : String) : List Frame → Eval (Situation ω) Unit
  | [] => return
  | frame :: frames => do
    frame.carryOut actor
    carryOutFrames actor frames

/-- What is still to be done after a step. -/
def Progress.resume (actor : String) (progress : Progress) : Eval (Situation ω) Unit := do
  settle progress
  carryOutFrames actor progress.frames

/-- What is still to be done after a step, or nothing if there was none. -/
def proceed (actor : String) : Option Progress → Eval (Situation ω) Unit
  | none => return
  | some progress => progress.resume actor

/-- A deed as a part of a structural run. -/
def Deed.carryOut : Deed → Eval (Situation ω) Unit
  | .none => return
  | .bind name value => bindName name value
  | .effect change => affect change

variable (actor : String)

/-- A step that leaves the bindings as they are only notes its point. -/
theorem consult_resume (point : SuspendPoint) (frames : List Frame) :
    (consult actor fun scope => (pure ⟨point, frames, scope.environment⟩ : Eval ω Progress)) >>=
        Progress.resume actor =
      (do pass point; carryOutFrames actor frames : Eval (Situation ω) Unit) := rfl

/-- A step that does a deed is the deed, its point and what is left. -/
theorem consult_perform_resume (deed : Deed) (point : SuspendPoint) (frames : List Frame) :
    (do
      let environment ← consult actor fun scope =>
        (deed.perform scope.environment : Eval ω Environment)
      Progress.resume actor ⟨point, frames, environment⟩) =
      (do deed.carryOut; pass point; carryOutFrames actor frames : Eval (Situation ω) Unit) := by
  cases deed <;> rfl

/-- A statement before what is left is the step that carries it out and what that step leaves. -/
theorem Stmt.carryOut_eq_execute (stmt : Stmt) (frames : List Frame) :
    (do stmt.carryOut actor; carryOutFrames actor frames : Eval (Situation ω) Unit) =
      (consult actor fun scope => stmt.execute scope frames) >>= Progress.resume actor := by
  cases stmt with
  | branch condition consequent alternative span =>
    cases alternative with
    | none =>
      simp only [Stmt.carryOut, Stmt.execute, consult_bind, bind_assoc, consult_resume]
      refine bind_congr fun value => bind_congr fun _ => ?_
      split
      · rfl
      · rfl
    | some block =>
      simp only [Stmt.carryOut, Stmt.execute, consult_bind, bind_assoc, consult_resume]
      refine bind_congr fun value => bind_congr fun _ => ?_
      split
      · rfl
      · rfl
  | whileLoop condition body span =>
    simp only [Stmt.carryOut, Stmt.execute, bind_assoc, consult_resume, carryOutFrames,
      Frame.carryOut, Nat.sub_zero]
  | repeatLoop count body span =>
    simp only [Stmt.carryOut, Stmt.execute, consult_bind, bind_assoc, consult_resume]
    refine bind_congr fun value => ?_
    cases value with
    | int number =>
      by_cases negative : number < 0
      · simp only [if_pos negative, Value.repeatCount]
        rfl
      · simp only [if_neg negative, Value.repeatCount, bind_assoc]
        rfl
    | _ => rfl
  | _ =>
    simp only [Stmt.carryOut, Stmt.execute, Stmt.deed, consult_bind, bind_assoc, pure_bind,
      consult_pure, consult_perform_resume, Deed.carryOut, Stmt.span]

/-- Frames are the step that they take next and what that step leaves. -/
theorem carryOutFrames_eq_advance (frames : List Frame) :
    (carryOutFrames actor frames : Eval (Situation ω) Unit) =
      (consult actor fun scope => advance scope frames) >>= proceed actor := by
  induction frames with
  | nil => rfl
  | cons frame frames ih =>
    match frame with
    | .block [] =>
      simp only [carryOutFrames, Frame.carryOut, carryOutAll, advance, pure_bind]
      exact ih
    | .block (stmt :: rest) =>
      have unfolded : carryOutFrames actor (.block (stmt :: rest) :: frames) =
          (do stmt.carryOut actor; carryOutFrames actor (.block rest :: frames) :
            Eval (Situation ω) Unit) := by
        simp only [carryOutFrames, Frame.carryOut, carryOutAll, bind_assoc]
      rw [unfolded, Stmt.carryOut_eq_execute]
      simp only [advance, consult_map, bind_map_left, proceed]
    | .whileLoop condition body span begun =>
      simp only [advance, consult_bind, bind_assoc]
      by_cases spent : maxIterations ≤ begun
      · have none : 1000 - begun = 0 := Nat.sub_eq_zero_of_le spent
        simp only [carryOutFrames, Frame.carryOut, none, whileHolds, bind_assoc]
        refine bind_congr fun value => ?_
        by_cases holds : value.truthy = true
        · simp only [if_pos holds, if_pos spent]
          rfl
        · simp only [if_neg holds, pure_bind]
          exact ih
      · have more : 1000 - begun = 1000 - (begun + 1) + 1 := by
          unfold maxIterations at spent
          omega
        simp only [carryOutFrames, Frame.carryOut]
        rw [more]
        simp only [whileHolds, bind_assoc]
        refine bind_congr fun value => ?_
        by_cases holds : value.truthy = true
        · simp only [if_pos holds, if_neg spent, bind_assoc]
          rfl
        · simp only [if_neg holds, pure_bind]
          exact ih
    | .repeatLoop body span 0 begun =>
      simp only [carryOutFrames, Frame.carryOut, times, advance, pure_bind]
      exact ih
    | .repeatLoop body span (remaining + 1) begun =>
      simp only [carryOutFrames, Frame.carryOut, times, advance, bind_assoc]
      rfl

namespace Execution

/-- Driving a run to its end is the structural run of its frames: the points it visits are those
noted, and it ends as the structural run does. -/
theorem drive_eq_carryOutFrames {α : Type} (visit : α → SuspendPoint → α) (start : α)
    (run : Execution ω) (points : List SuspendPoint) (unfinished : run.outcome = none)
    (uncancelled : run.host.cancelRequested = false) :
    run.drive visit (points.foldl visit start) =
      let (result, final) := carryOutFrames run.host.config.actorBinding run.frames
        ⟨run.host.environment, points, run.host.world⟩
      (final.points.foldl visit start, .ofResult result,
        ⟨final.leave run.host (.ofResult result), [], some (.ofResult result)⟩) := by
  -- The induction is on what is left of the budget; each step of the machine is matched with the
  -- part of the structural run that it carries out.
  induction measure : run.budget using Nat.strongRecOn generalizing run points with
  | ind budget ih =>
    subst measure
    rw [carryOutFrames_eq_advance, Eval.bind_apply]
    have consulted : consult run.host.config.actorBinding
        (fun scope => advance scope run.frames) ⟨run.host.environment, points, run.host.world⟩ =
        ((advance run.host.scope run.frames run.host.world).1,
          ⟨run.host.environment, points,
            (advance run.host.scope run.frames run.host.world).2⟩) := rfl
    rw [consulted]
    rcases advanced : advance run.host.scope run.frames run.host.world with ⟨result, world⟩
    match result with
    | .error error =>
      exact drive_of_finished visit _ (step_of_error unfinished uncancelled advanced)
    | .ok none =>
      exact drive_of_finished visit _ (step_of_none unfinished uncancelled advanced)
    | .ok (some progress) =>
      let next : Execution ω :=
        ⟨{ run.host with world, environment := progress.environment }, progress.frames, none⟩
      have paused : run.step = (.suspended progress.point, next) :=
        step_of_some unfinished uncancelled advanced
      have smaller : next.budget < run.budget := by
        simpa only [paused] using budget_step_lt (congrArg Prod.fst paused)
      have rest := ih _ smaller next (points ++ [progress.point]) rfl uncancelled rfl
      rw [List.foldl_append] at rest
      rw [drive_of_suspended visit _ paused]
      exact rest

end Execution

/-- Driving a program from its start is its structural meaning. -/
theorem Interpreter.drive_start {α : Type} (visit : α → SuspendPoint → α) (start : α)
    (host : Interpreter ω) (program : Program) :
    (host.start program).drive visit start =
      let (outcome, final) := program.meaning host
      (final.points.foldl visit start, outcome,
        ⟨final.leave (host.start program).host outcome, [], some outcome⟩) := by
  have driven := Execution.drive_eq_carryOutFrames visit start (host.start program) [] rfl rfl
  have whole : (carryOutFrames host.config.actorBinding (host.start program).frames :
      Eval (Situation ω) Unit) = carryOutAll host.config.actorBinding program.stmts :=
    bind_pure _
  rw [show (host.start program).host.config = host.config from rfl, whole] at driven
  exact driven

/-- Running a program to its end gives the outcome of its meaning and the interpreter it leaves. -/
theorem Interpreter.interpret_eq (host : Interpreter ω) (program : Program) :
    host.interpret program =
      let (outcome, final) := program.meaning host
      (outcome, final.leave (host.start program).host outcome) := by
  unfold interpret Execution.runToEnd
  rw [drive_start]

/-- The points of a run are those that the meaning of its program notes. -/
theorem Interpreter.points_start (host : Interpreter ω) (program : Program) :
    (host.start program).points = (program.meaning host).2.points := by
  unfold Execution.points
  rw [drive_start]
  simp only [List.foldl_append_eq_append, ← List.flatMap_def, List.flatMap_singleton',
    List.nil_append]

/-- A run is carried out as its program means: stepping from its start to its end, with no request
to cancel it, visits exactly the points that the structural meaning notes, and leaves the outcome,
the bindings and the world that it leaves. Over a world that keeps the calls made to it, the calls
are the same too. -/
theorem Interpreter.interpret_eq_meaning (host : Interpreter ω) (program : Program) :
    (host.interpret program).1 = (program.meaning host).1 ∧
      (host.interpret program).2.environment = (program.meaning host).2.environment ∧
      (host.interpret program).2.world = (program.meaning host).2.world ∧
      (host.start program).points = (program.meaning host).2.points ∧
      ∀ recorder : Interpreter (Recorded ω),
        (recorder.interpret program).2.world.calls =
          (program.meaning recorder).2.world.calls := by
  refine ⟨?_, ?_, ?_, points_start host program, fun recorder => ?_⟩
  · rw [interpret_eq]
  · rw [interpret_eq]
    exact conclude_environment _ _
  · rw [interpret_eq]
    exact conclude_world _ _
  · rw [interpret_eq]
    exact congrArg Recorded.calls (conclude_world _ _)

end Waggle
