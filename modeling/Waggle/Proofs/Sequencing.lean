import Waggle.Proofs.Refinement

/-!
# Programs one after the other

Running the statements of two programs as one program does what running the programs one after the
other does, up to the feedback about the first of them. In the structural meaning this is the law
that a block is carried out in parts (`carryOutAll_append`), and that a structural run neither
looks at the points noted before it nor takes any of them back (`OnlyAdds`).
-/

namespace Waggle

variable {ω α β : Type}

/-- The same situation with points passed before all others. -/
def Situation.after (earlier : List SuspendPoint) (situation : Situation ω) : Situation ω :=
  { situation with points := earlier ++ situation.points }

namespace Structural

/-- A computation does not depend on the points passed before it, and keeps them. -/
def OnlyAdds (computation : Eval (Situation ω) α) : Prop :=
  ∀ earlier situation, computation (situation.after earlier) =
    ((computation situation).1, (computation situation).2.after earlier)

namespace OnlyAdds

/-- A result that is given notes nothing. -/
theorem pure (value : α) : OnlyAdds (Pure.pure value : Eval (Situation ω) α) :=
  fun _ _ => rfl

/-- A failure notes nothing. -/
theorem throw (error : RuntimeError) :
    OnlyAdds (MonadExcept.throw error : Eval (Situation ω) α) :=
  fun _ _ => rfl

/-- A consultation notes nothing. -/
theorem consult (actor : String) (computation : Scope → Eval ω α) :
    OnlyAdds (consult actor computation) :=
  fun _ _ => rfl

/-- A binding notes nothing. -/
theorem bindName (name : String) (value : Value) :
    OnlyAdds (bindName name value : Eval (Situation ω) Unit) :=
  fun _ _ => rfl

/-- An effect notes nothing. -/
theorem affect [World ω] (effect : Effect) :
    OnlyAdds (affect effect : Eval (Situation ω) Unit) :=
  fun _ _ => rfl

/-- A point is noted after the earlier ones. -/
theorem pass (point : SuspendPoint) : OnlyAdds (pass point : Eval (Situation ω) Unit) := by
  intro earlier situation
  simp only [Structural.pass, Situation.after, List.append_assoc]

/-- A sequence adds what its parts add. -/
theorem bind {computation : Eval (Situation ω) α} {next : α → Eval (Situation ω) β}
    (first : OnlyAdds computation) (second : ∀ result, OnlyAdds (next result)) :
    OnlyAdds (computation >>= next) := by
  intro earlier situation
  rw [Eval.bind_apply, Eval.bind_apply, first earlier situation]
  rcases computation situation with ⟨error | result, middle⟩
  · rfl
  · exact second result earlier middle

end OnlyAdds

/-- A `while` loop adds what its condition and its body add. -/
theorem whileHolds_onlyAdds (span : Span) {condition : Eval (Situation ω) Value}
    {body : Eval (Situation ω) Unit} (tested : OnlyAdds condition) (repeated : OnlyAdds body)
    (allowed begun : Nat) : OnlyAdds (whileHolds span condition body allowed begun) := by
  induction allowed generalizing begun with
  | zero =>
    apply tested.bind
    intro value
    split
    · exact .throw _
    · exact .pure _
  | succ allowed ih =>
    apply tested.bind
    intro value
    split
    · exact (OnlyAdds.pass _).bind fun _ => repeated.bind fun _ => ih (begun + 1)
    · exact .pure _

/-- A `repeat` loop adds what its body adds. -/
theorem times_onlyAdds (span : Span) {body : Eval (Situation ω) Unit} (repeated : OnlyAdds body)
    (count begun : Nat) : OnlyAdds (times span body count begun) := by
  induction count generalizing begun with
  | zero => exact .pure _
  | succ count ih =>
    exact (OnlyAdds.pass _).bind fun _ => repeated.bind fun _ => ih (begun + 1)

end Structural

open Structural

/-- Of a completed run that came before, the feedback about a run shows nothing but the cue. -/
theorem Interpreter.leave_after_completed (host : Interpreter ω) (first second whole : Program)
    (middle final : Situation ω) (earlier : List SuspendPoint) (outcome : RunOutcome) :
    let between := middle.leave (host.start first).host .completed
    ∃ audio, (final.after earlier).leave (host.start whole).host outcome =
      { final.leave (between.start second).host outcome with audio } := by
  cases outcome with
  | completed => exact ⟨_, rfl⟩
  | aborted kind message => exact ⟨_, rfl⟩

variable [World ω] (actor : String)

mutual

/-- Carrying out a statement only adds to the points. -/
theorem Stmt.carryOut_onlyAdds (stmt : Stmt) :
    OnlyAdds (stmt.carryOut actor : Eval (Situation ω) Unit) := by
  unfold Stmt.carryOut
  match stmt with
  | .assign name value span =>
    exact (OnlyAdds.consult _ _).bind fun _ => (OnlyAdds.bindName _ _).bind fun _ => .pass _
  | .evaluate expr span => exact (OnlyAdds.consult _ _).bind fun _ => .pass _
  | .move target motion span =>
    exact (OnlyAdds.consult _ _).bind fun _ => (OnlyAdds.consult _ _).bind fun _ =>
      (OnlyAdds.affect _).bind fun _ => .pass _
  | .moveTo coordinates span =>
    exact (OnlyAdds.consult _ _).bind fun _ => (OnlyAdds.consult _ _).bind fun _ =>
      (OnlyAdds.affect _).bind fun _ => .pass _
  | .attack attacker target span =>
    exact (OnlyAdds.consult _ _).bind fun _ => (OnlyAdds.consult _ _).bind fun _ =>
      (OnlyAdds.affect _).bind fun _ => .pass _
  | .branch condition consequent none span =>
    refine (OnlyAdds.consult _ _).bind fun value => (OnlyAdds.pass _).bind fun _ => ?_
    split
    · exact carryOutAll_onlyAdds consequent.stmts
    · exact .pure _
  | .branch condition consequent (some alternative) span =>
    refine (OnlyAdds.consult _ _).bind fun value => (OnlyAdds.pass _).bind fun _ => ?_
    split
    · exact carryOutAll_onlyAdds consequent.stmts
    · exact carryOutAll_onlyAdds alternative.stmts
  | .whileLoop condition body span =>
    exact (OnlyAdds.pass _).bind fun _ =>
      whileHolds_onlyAdds span (.consult _ _) (carryOutAll_onlyAdds body.stmts) _ _
  | .repeatLoop count body span =>
    refine (OnlyAdds.consult _ _).bind fun value => ?_
    split
    · split
      · exact .throw _
      · exact (OnlyAdds.pass _).bind fun _ =>
          times_onlyAdds span (carryOutAll_onlyAdds body.stmts) _ _
    · exact .throw _

/-- Carrying out statements only adds to the points. -/
theorem carryOutAll_onlyAdds (stmts : List Stmt) :
    OnlyAdds (carryOutAll actor stmts : Eval (Situation ω) Unit) := by
  unfold carryOutAll
  match stmts with
  | [] => exact .pure _
  | stmt :: rest =>
    exact (stmt.carryOut_onlyAdds).bind fun _ => carryOutAll_onlyAdds rest

end

/-- Statements are carried out in parts. -/
theorem carryOutAll_append (first second : List Stmt) :
    (carryOutAll actor (first ++ second) : Eval (Situation ω) Unit) =
      (do carryOutAll actor first; carryOutAll actor second) := by
  induction first with
  | nil => simp only [List.nil_append, carryOutAll, pure_bind]
  | cons stmt rest ih => simp only [List.cons_append, carryOutAll, ih, bind_assoc]

/-- A result is told as completed only if there was no failure. -/
theorem RunOutcome.ofResult_eq_completed {result : Except RuntimeError Unit}
    (completed : ofResult result = .completed) : result = .ok () := by
  rcases result with error | done
  · cases completed
  · rfl

namespace Program

variable (host : Interpreter ω) (first second : Program) (span : Span)

/-- Two programs as one mean the first, and then the second from where the first has ended, if the
first can be completed. -/
theorem meaning_append_of_completed {between : Interpreter ω}
    (completed : (first.meaning host).1 = .completed)
    (settings : between.config = host.config)
    (bindings : between.environment = (first.meaning host).2.environment)
    (world : between.world = (first.meaning host).2.world) :
    meaning ⟨first.stmts ++ second.stmts, span⟩ host =
      ((second.meaning between).1,
        (second.meaning between).2.after (first.meaning host).2.points) := by
  simp only [meaning] at completed bindings world ⊢
  rw [carryOutAll_append, Eval.bind_apply, settings, bindings, world]
  rcases carried : carryOutAll host.config.actorBinding first.stmts
    ⟨host.environment, [], host.world⟩ with ⟨result, middle⟩
  rw [carried] at completed
  cases RunOutcome.ofResult_eq_completed completed
  -- The second program begins where the first has ended, but with no points noted.
  have begins : middle = Situation.after middle.points ⟨middle.environment, [], middle.world⟩ := by
    simp only [Situation.after, List.append_nil]
  have added := carryOutAll_onlyAdds host.config.actorBinding second.stmts middle.points
    ⟨middle.environment, [], middle.world⟩
  rw [← begins] at added
  simp only [added]
  rfl

/-- Two programs as one mean no more than the first, if it fails. -/
theorem meaning_append_of_aborted (aborted : (first.meaning host).1 ≠ .completed) :
    meaning ⟨first.stmts ++ second.stmts, span⟩ host = first.meaning host := by
  simp only [meaning] at aborted ⊢
  rw [carryOutAll_append, Eval.bind_apply]
  rcases carried : carryOutAll host.config.actorBinding first.stmts
    ⟨host.environment, [], host.world⟩ with ⟨error | done, middle⟩
  · rfl
  · rw [carried] at aborted
    exact absurd rfl aborted

end Program

namespace Interpreter

/-- An interpreter runs a program as it runs two others in sequence. -/
structure RunsInSequence (host : Interpreter ω) (first second whole : Program) : Prop where
  /-- If the first of the two is completed, the program does what the second does after it: it ends
  with the same outcome, leaves the same interpreter but for the cue of the first run, and pauses
  at the points of both. -/
  completed : (host.interpret first).1 = .completed →
    let between := (host.interpret first).2
    (∃ audio, host.interpret whole =
      ((between.interpret second).1, { (between.interpret second).2 with audio })) ∧
    (host.start whole).points = (host.start first).points ++ (between.start second).points
  /-- If the first of the two is aborted, the program does what the first does. -/
  aborted : (host.interpret first).1 ≠ .completed →
    host.interpret whole = host.interpret first ∧
    (host.start whole).points = (host.start first).points

/-- The statements of two programs are run as the programs in sequence. -/
theorem runsInSequence (host : Interpreter ω) (first second : Program) (span : Span) :
    host.RunsInSequence first second ⟨first.stmts ++ second.stmts, span⟩ := by
  have outcome : (host.interpret first).1 = (first.meaning host).1 := by rw [interpret_eq]
  constructor
  · intro completed between
    rw [outcome] at completed
    have reached : between = (first.meaning host).2.leave (host.start first).host .completed := by
      simp only [between, interpret_eq, completed]
    have whole : Program.meaning ⟨first.stmts ++ second.stmts, span⟩ host =
        ((second.meaning between).1,
          (second.meaning between).2.after (first.meaning host).2.points) := by
      apply Program.meaning_append_of_completed _ _ _ _ completed
      · rw [reached]
        rfl
      · rw [reached]
        rfl
      · rw [reached]
        rfl
    constructor
    · obtain ⟨audio, left⟩ := leave_after_completed host first second
        ⟨first.stmts ++ second.stmts, span⟩ (first.meaning host).2 (second.meaning between).2
        (first.meaning host).2.points (second.meaning between).1
      rw [← reached] at left
      refine ⟨audio, ?_⟩
      rw [interpret_eq, interpret_eq, whole]
      exact congrArg (Prod.mk _) left
    · rw [points_start, points_start, points_start, whole]
      rfl
  · intro aborted
    rw [outcome] at aborted
    have whole := first.meaning_append_of_aborted host second span aborted
    constructor
    · rw [interpret_eq, interpret_eq, whole]
      rfl
    · rw [points_start, points_start, whole]

end Interpreter

/-- Running two programs as one is running them in sequence. If the first is completed, the
statements of both end with the outcome, the bindings and the world that the second ends with after
the first, and pause where the one and then the other pauses. If the first is aborted, they do what
the first does. This holds over any world, and over one that keeps the calls made to it, so the
calls are the same too. -/
theorem Interpreter.interpret_sequence (first second : Program) (span : Span) :
    (∀ host : Interpreter ω,
      host.RunsInSequence first second ⟨first.stmts ++ second.stmts, span⟩) ∧
    ∀ host : Interpreter (Recorded ω),
      host.RunsInSequence first second ⟨first.stmts ++ second.stmts, span⟩ := by
  constructor
  · intro host
    exact host.runsInSequence first second span
  · intro host
    exact host.runsInSequence first second span

end Waggle
