import Waggle.Proofs.Acceptance
import Waggle.Proofs.Relocation
import Waggle.Proofs.Stepping
import Waggle.World.Grid
import Waggle.World.Recorded

/-!
# Layout does not matter

The places and the texts of tokens have no part in what a script means. Lists of tokens of the same
kinds are read as the same program but for its spans, or have the same fault. Programs that differ
in their spans alone run alike: after every step the interpreters are the same, since the spans of a
program end up in the points where its run pauses and nowhere else.
-/

namespace Waggle

/-- Forgetting all spans. -/
def Relocation.erasure : Relocation where
  move _ := .blank
  Covers _ := True
  covers_merge _ _ := trivial
  move_merge _ _ := rfl

mutual

/-- To forget the spans of an expression is to move them all to one. -/
theorem Expr.bare_eq_relocate (expr : Expr) : expr.bare = expr.relocate fun _ => .blank := by
  match expr with
  | .literal _ _ | .reference _ _ => simp only [Expr.bare, Expr.relocate]
  | .binary _ left right _ => simp only [Expr.bare, Expr.relocate, left.bare_eq_relocate,
      right.bare_eq_relocate]
  | .negate operand _ => simp only [Expr.bare, Expr.relocate, operand.bare_eq_relocate]
  | .call _ arguments _ => simp only [Expr.bare, Expr.relocate, bareAll_eq_relocateAll arguments]

/-- To forget the spans of expressions is to move them all to one. -/
theorem bareAll_eq_relocateAll (exprs : List Expr) :
    bareAll exprs = relocateAll (fun _ => .blank) exprs := by
  match exprs with
  | [] => simp only [bareAll, relocateAll]
  | expr :: rest =>
    simp only [bareAll, relocateAll, expr.bare_eq_relocate, bareAll_eq_relocateAll rest]

end

/-- To forget the spans of a motion is to move them all to one. -/
theorem Motion.bare_eq_relocate (motion : Motion) :
    motion.bare = motion.relocate fun _ => .blank := by
  cases motion <;> simp only [bare, relocate, bareAll_eq_relocateAll]

/-- To forget the spans of an expression that may be missing is to move them all to one. -/
theorem map_bare_eq_relocate (expr : Option Expr) :
    expr.map Expr.bare = expr.map (Expr.relocate fun _ => .blank) := by
  cases expr <;> simp only [Option.map_none, Option.map_some, Expr.bare_eq_relocate]

mutual

/-- To forget the spans of a statement is to move them all to one. -/
theorem Stmt.bare_eq_relocate (stmt : Stmt) : stmt.bare = stmt.relocate fun _ => .blank := by
  match stmt with
  | .branch _ consequent none _ =>
    simp only [Stmt.bare, Stmt.relocate, Expr.bare_eq_relocate,
      bareStmts_eq_relocateStmts consequent.stmts]
  | .branch _ consequent (some alternative) _ =>
    simp only [Stmt.bare, Stmt.relocate, Expr.bare_eq_relocate,
      bareStmts_eq_relocateStmts consequent.stmts, bareStmts_eq_relocateStmts alternative.stmts]
  | .whileLoop _ body _ | .repeatLoop _ body _ =>
    simp only [Stmt.bare, Stmt.relocate, Expr.bare_eq_relocate,
      bareStmts_eq_relocateStmts body.stmts]
  | .assign .. | .evaluate .. | .move .. | .moveTo .. | .attack .. =>
    simp only [Stmt.bare, Stmt.relocate, Expr.bare_eq_relocate, Motion.bare_eq_relocate,
      bareAll_eq_relocateAll, map_bare_eq_relocate]

/-- To forget the spans of statements is to move them all to one. -/
theorem bareStmts_eq_relocateStmts (stmts : List Stmt) :
    bareStmts stmts = relocateStmts (fun _ => .blank) stmts := by
  match stmts with
  | [] => simp only [bareStmts, relocateStmts]
  | stmt :: rest =>
    simp only [bareStmts, relocateStmts, stmt.bare_eq_relocate, bareStmts_eq_relocateStmts rest]

end

/-! ### Reading -/

/-- The cursor before tokens of some kinds, which stand nowhere. -/
def Cursor.startBare (kinds : List TokenKind) : Cursor :=
  .start (kinds.map fun kind => ⟨kind, "", .blank⟩)

/-- A list of tokens without its texts and places is its kinds. -/
theorem Relocation.erasure_shifts (tokens : List Token) :
    erasure.Shifts (.start tokens) (.startBare (tokens.map Token.kind)) where
  previous_eq := rfl
  covers := trivial
  rest := by
    induction tokens with
    | nil => exact .nil
    | cons token rest ih => exact .cons ⟨rfl, rfl, trivial⟩ ih
  depth_eq := rfl

namespace SourceFile

/-- What is read of a list of tokens, or what is wrong with it, but for the places. -/
def parseBare (tokens : List Token) : Except SyntaxFault Program :=
  match Parser.program (.start tokens) with
  | .ok (program, _) => .ok program.bare
  | .error error => .error error.fault

/-- The kinds of tokens decide what is read of them, or what is wrong with them. -/
theorem parseBare_congr {tokens others : List Token}
    (same : tokens.map Token.kind = others.map Token.kind) :
    parseBare tokens = parseBare others := by
  -- Both lists are compared with the one whose tokens stand nowhere.
  have told (tokens : List Token) : parseBare tokens =
      match Parser.program (.startBare (tokens.map Token.kind)) with
      | .ok (program, _) => .ok program
      | .error error => .error error.fault := by
    have moves := Parser.program_moves _ _ (Relocation.erasure_shifts tokens)
    unfold parseBare
    rcases read : Parser.program (.start tokens) with error | ⟨program, after⟩
    · rw [read] at moves
      rw [moves.2]
    · rw [read] at moves
      obtain ⟨_, after', ran, _⟩ := moves
      have bare : program.bare = program.relocate Relocation.erasure.move := by
        rw [Program.bare, Program.relocate, bareStmts_eq_relocateStmts]
        rfl
      rw [ran]
      exact congrArg Except.ok bare
  rw [told tokens, told others, same]

/-- What is read of a list of tokens is a program with the spans put back. -/
theorem parse_of_parseBare_ok (file : SourceFile) {tokens : List Token} {bare : Program}
    (read : parseBare tokens = .ok bare) :
    ∃ program, file.parse tokens = .ok program ∧ program.bare = bare := by
  unfold parseBare at read
  split at read
  · rename_i program after ran
    cases read
    exact ⟨program, (parse_eq_ok_iff file tokens program).mpr ⟨after, ran⟩, rfl⟩
  · cases read

/-- What is wrong with a list of tokens is told in one diagnostic. -/
theorem parse_of_parseBare_error (file : SourceFile) {tokens : List Token} {fault : SyntaxFault}
    (read : parseBare tokens = .error fault) :
    ∃ span, file.parse tokens =
      .error (.single (file.diagnose fault.code fault.message span)) := by
  unfold parseBare at read
  split at read
  · cases read
  · rename_i error ran
    cases read
    have run : Parser.program.run (.start tokens) = .error error := ran
    exact ⟨error.span, by rw [parse, run]⟩

end SourceFile

/-! ### Running -/

section Evaluation

variable {ω : Type} [World ω] (scope : Scope) (move : Span → Span)

/-- Moving expressions changes nothing about how many there are. -/
theorem length_relocateAll (exprs : List Expr) :
    (relocateAll move exprs).length = exprs.length := by
  induction exprs with
  | nil => simp only [relocateAll]
  | cons expr rest ih => simp only [relocateAll, List.length_cons, ih]

mutual

/-- An expression has the same value wherever it stands. -/
theorem Expr.eval_relocate (expr : Expr) :
    (expr.relocate move).eval scope = (expr.eval scope : Eval ω Value) := by
  match expr with
  | .literal _ _ | .reference _ _ => simp only [Expr.relocate, Expr.eval]
  | .binary _ left right _ =>
    simp only [Expr.relocate, Expr.eval, left.eval_relocate, right.eval_relocate]
  | .negate operand _ => simp only [Expr.relocate, Expr.eval, operand.eval_relocate]
  | .call _ arguments _ =>
    simp only [Expr.relocate, Expr.eval, length_relocateAll, evalAll_relocateAll arguments]

/-- Expressions have the same values wherever they stand. -/
theorem evalAll_relocateAll (exprs : List Expr) :
    evalAll scope (relocateAll move exprs) = (evalAll scope exprs : Eval ω (List Value)) := by
  match exprs with
  | [] => simp only [relocateAll]
  | expr :: rest =>
    simp only [relocateAll, evalAll, expr.eval_relocate, evalAll_relocateAll rest]

end

/-- Expressions have the same integers wherever they stand. -/
theorem evalInts_relocateAll (context : String) (exprs : List Expr) :
    evalInts scope context (relocateAll move exprs) =
      (evalInts scope context exprs : Eval ω (List Int64)) := by
  induction exprs with
  | nil => simp only [relocateAll]
  | cons expr rest ih => simp only [relocateAll, evalInts, expr.eval_relocate, ih]

/-- An expression is the same entity wherever it stands. -/
theorem evalEntityOrActor_relocate (role : Role) (expr : Option Expr) :
    evalEntityOrActor scope role (expr.map (Expr.relocate move)) =
      (evalEntityOrActor scope role expr : Eval ω EntityRef) := by
  cases expr with
  | none => rfl
  | some expr =>
    simp only [Option.map_some, evalEntityOrActor, Expr.evalEntity, expr.eval_relocate]

/-- A motion goes as far wherever it stands. -/
theorem Motion.eval_relocate (motion : Motion) :
    (motion.relocate move).eval scope = (motion.eval scope : Eval ω Vec3) := by
  match motion with
  | .step direction => rfl
  | .offset [] => simp only [relocate, relocateAll]
  | .offset [single] => simp only [relocate, relocateAll, eval, single.eval_relocate]
  | .offset (first :: second :: rest) =>
    have moved := evalInts_relocateAll (ω := ω) scope move "'move' coordinate"
      (first :: second :: rest)
    simp only [relocateAll] at moved
    simp only [relocate, relocateAll, eval, moved]

end Evaluation

/-- A point with its span moved. -/
def SuspendPoint.relocate (move : Span → Span) : SuspendPoint → SuspendPoint
  | .statement span => .statement (move span)
  | .iteration span number => .iteration (move span) number

/-- A frame with its spans moved. -/
def Frame.relocate (move : Span → Span) : Frame → Frame
  | .block rest => .block (relocateStmts move rest)
  | .whileLoop condition body span begun =>
    .whileLoop (condition.relocate move) (relocateStmts move body) (move span) begun
  | .repeatLoop body span remaining begun =>
    .repeatLoop (relocateStmts move body) (move span) remaining begun

/-- What a step leaves behind with its spans moved. -/
def Progress.relocate (move : Span → Span) (progress : Progress) : Progress :=
  ⟨progress.point.relocate move, progress.frames.map (Frame.relocate move), progress.environment⟩

/-- A step with its spans moved. -/
def Step.relocate (move : Span → Span) : Step → Step
  | .suspended point => .suspended (point.relocate move)
  | .finished outcome => .finished outcome

/-- A run with the spans of what is left of it moved. -/
def Execution.relocate {ω : Type} (move : Span → Span) (run : Execution ω) : Execution ω :=
  ⟨run.host, run.frames.map (Frame.relocate move), run.outcome⟩

section Running

variable {ω : Type} [World ω] (scope : Scope) (move : Span → Span)

/-- A statement is carried out alike wherever it stands. -/
theorem Stmt.execute_relocate (stmt : Stmt) (frames : List Frame) :
    (stmt.relocate move).execute scope (frames.map (Frame.relocate move)) =
      (Progress.relocate move <$> stmt.execute scope frames : Eval ω Progress) := by
  cases stmt with
  | branch condition consequent alternative span =>
    rw [relocate_branch]
    simp only [execute, Expr.eval_relocate, map_bind, map_pure, Progress.relocate,
      SuspendPoint.relocate]
    refine bind_congr fun value => congrArg _ ?_
    cases alternative <;> split <;> rfl
  | whileLoop condition body span =>
    simp only [relocate, execute, map_pure, Progress.relocate, SuspendPoint.relocate,
      List.map_cons, Frame.relocate]
  | repeatLoop count body span =>
    simp only [relocate, execute, Expr.eval_relocate, map_bind, map_pure, Progress.relocate,
      SuspendPoint.relocate, List.map_cons, Frame.relocate]
  | _ =>
    simp only [relocate, execute, deed, Expr.eval_relocate, Expr.evalEntity, Motion.eval_relocate,
      evalInts_relocateAll, evalEntityOrActor_relocate, map_bind, map_pure, Progress.relocate,
      SuspendPoint.relocate, span]

/-- A step is taken alike wherever the frames stand. -/
theorem advance_relocate (frames : List Frame) :
    advance scope (frames.map (Frame.relocate move)) =
      (Option.map (Progress.relocate move) <$> advance scope frames :
        Eval ω (Option Progress)) := by
  induction frames with
  | nil => rfl
  | cons frame frames ih =>
    match frame with
    | .block [] => simpa only [List.map_cons, Frame.relocate, relocateStmts, advance] using ih
    | .block (stmt :: rest) =>
      have executed := Stmt.execute_relocate (ω := ω) scope move stmt (.block rest :: frames)
      simp only [List.map_cons, Frame.relocate] at executed
      simp only [List.map_cons, Frame.relocate, relocateStmts, advance, executed, Functor.map_map,
        Option.map_some]
    | .whileLoop condition body span begun =>
      simp only [List.map_cons, Frame.relocate, advance, Expr.eval_relocate, map_bind]
      refine bind_congr fun value => ?_
      split
      · split
        · rfl
        · rfl
      · exact ih
    | .repeatLoop body span 0 begun =>
      simpa only [List.map_cons, Frame.relocate, advance] using ih
    | .repeatLoop body span (remaining + 1) begun => rfl

namespace Execution

/-- A run takes a step alike wherever its program stands. -/
theorem step_relocate (run : Execution ω) :
    (run.relocate move).step = (run.step.1.relocate move, run.step.2.relocate move) := by
  rcases known : run.outcome with _ | outcome
  · have unfinished : (run.relocate move).outcome = none := known
    rcases requested : run.host.cancelRequested with _ | _
    · have advanced := congrFun (advance_relocate run.host.scope move run.frames) run.host.world
      rw [Eval.map_apply] at advanced
      rcases ran : advance run.host.scope run.frames run.host.world with
        ⟨error | progress | progress, world⟩
      · rw [ran] at advanced
        rw [step_of_error known requested ran, step_of_error unfinished requested advanced]
        rfl
      · rw [ran] at advanced
        rw [step_of_none known requested ran, step_of_none unfinished requested advanced]
        rfl
      · rw [ran] at advanced
        rw [step_of_some known requested ran, step_of_some unfinished requested advanced]
        rfl
    · rw [step_of_cancelled known requested, step_of_cancelled unfinished requested]
      rfl
  · have finished : (run.relocate move).outcome = some outcome := known
    rw [step_of_finished known, step_of_finished finished]
    rfl

/-- A run takes any number of steps alike wherever its program stands. -/
theorem steps_relocate (run : Execution ω) (count : Nat) :
    (run.relocate move).steps count =
      ((run.steps count).1.map (Step.relocate move), (run.steps count).2.relocate move) := by
  induction count generalizing run with
  | zero => rfl
  | succ count ih => simp only [steps, step_relocate, ih, List.map_cons]

/-- A run is driven to its end alike wherever its program stands. -/
theorem drive_relocate {α : Type} (visit : α → SuspendPoint → α) (seen : α) (run : Execution ω) :
    (run.relocate move).drive visit seen =
      let (seen, outcome, last) :=
        run.drive (fun seen point => visit seen (point.relocate move)) seen
      (seen, outcome, last.relocate move) := by
  induction measure : run.budget using Nat.strongRecOn generalizing run seen with
  | ind budget ih =>
    subst measure
    have moved := step_relocate move run
    rcases stepped : run.step with ⟨point | outcome, next⟩
    · have smaller : next.budget < run.budget := by
        simpa only [stepped] using budget_step_lt (congrArg Prod.fst stepped)
      rw [stepped] at moved
      rw [drive_of_suspended _ _ stepped, drive_of_suspended _ _ moved]
      exact ih _ smaller _ next rfl
    · rw [stepped] at moved
      rw [drive_of_finished _ _ stepped, drive_of_finished _ _ moved]

end Execution

end Running

/-- What a step comes to but for the span of the point where it pauses. -/
def Step.bare (step : Step) : Step := step.relocate fun _ => .blank

variable {ω : Type} [World ω]

/-- Two programs are run alike from the present state of an interpreter. -/
structure Interpreter.RunsAlike (host : Interpreter ω) (one two : Program) : Prop where
  /-- Step by step the same is told, but for the spans of the points. -/
  told : ∀ count, ((host.start one).steps count).1.map Step.bare =
    ((host.start two).steps count).1.map Step.bare
  /-- After any number of steps the interpreters are the same, with their worlds, bindings,
  consoles, cues and states. -/
  hosts : ∀ count, ((host.start one).steps count).2.host = ((host.start two).steps count).2.host
  /-- As many steps pause on the way to the end. -/
  length : (host.start one).countToEnd.1 = (host.start two).countToEnd.1
  /-- The runs end with the same outcome, and leave the same interpreter. -/
  ending : host.interpret one = host.interpret two

/-- Programs that differ in their spans alone are run alike. -/
theorem Interpreter.runsAlike_of_bare_eq (host : Interpreter ω) {one two : Program}
    (same : one.bare = two.bare) : host.RunsAlike one two := by
  have forgotten (program : Program) : (host.start program).relocate (fun _ => .blank) =
      ⟨(host.start program).host, [.block program.bare.stmts], none⟩ := by
    simp only [Execution.relocate, start, List.map_cons, List.map_nil, Frame.relocate,
      Program.bare, bareStmts_eq_relocateStmts]
  have joined : (host.start one).relocate (fun _ => .blank) =
      (host.start two).relocate fun _ => .blank := by
    rw [forgotten, forgotten, same]
    rfl
  have steps (count : Nat) := congrArg (Execution.steps count) joined
  simp only [Execution.steps_relocate, Prod.mk.injEq] at steps
  have driven := congrArg (Execution.drive (fun count _ => count + 1) 0) joined
  simp only [Execution.drive_relocate, Prod.mk.injEq] at driven
  have ended := congrArg (Execution.drive (fun _ _ => ()) ()) joined
  simp only [Execution.drive_relocate, Prod.mk.injEq] at ended
  have hosts (count : Nat) := congrArg Execution.host (steps count).2
  have last := congrArg Execution.host ended.2.2
  exact {
    told := fun count => (steps count).1
    hosts
    length := driven.1
    ending := Prod.ext ended.2.1 last }

/-- Layout does not matter. Lists of tokens of the same kinds are read as programs that differ in
their spans alone, or fail with the same code and message, whatever their texts and places are. And
programs that differ in their spans alone are run alike, over any world and over one that keeps the
calls made to it. -/
theorem layout_immaterial :
    (∀ (file other : SourceFile) (tokens others : List Token),
      tokens.map Token.kind = others.map Token.kind →
      (∃ one two, file.parse tokens = .ok one ∧ other.parse others = .ok two ∧
        one.bare = two.bare) ∨
      ∃ one two, file.parse tokens = .error (.single one) ∧
        other.parse others = .error (.single two) ∧ one.code = two.code ∧
        one.message = two.message) ∧
    ∀ one two : Program, one.bare = two.bare →
      (∀ host : Interpreter ω, host.RunsAlike one two) ∧
      ∀ host : Interpreter (Recorded ω), host.RunsAlike one two := by
  constructor
  · intro file other tokens others same
    have alike := SourceFile.parseBare_congr same
    rcases read : SourceFile.parseBare tokens with fault | bare
    · rw [read] at alike
      obtain ⟨span, failed⟩ := file.parse_of_parseBare_error read
      obtain ⟨span', failed'⟩ := other.parse_of_parseBare_error alike.symm
      exact .inr ⟨_, _, failed, failed', rfl, rfl⟩
    · rw [read] at alike
      obtain ⟨one, parsed, erased⟩ := file.parse_of_parseBare_ok read
      obtain ⟨two, parsed', erased'⟩ := other.parse_of_parseBare_ok alike.symm
      exact .inl ⟨one, two, parsed, parsed', erased.trans erased'.symm⟩
  · intro one two same
    exact ⟨fun host => host.runsAlike_of_bare_eq same, fun host => host.runsAlike_of_bare_eq same⟩

/-- The tokens of `x=1;` on one line and over two lines are read as the same program but for its
spans, and two assignments at different places are run alike. -/
theorem layout_immaterial_assignment :
    let kinds : List TokenKind :=
      [.identifier "x", .symbol .assign, .number 1, .symbol .semicolon]
    let one : Program := ⟨[.assign ⟨"x", .blank⟩ (.literal (.int 1) .blank) .blank], .blank⟩
    let below : Span := ⟨⟨2, 1⟩, ⟨2, 4⟩⟩
    let two : Program := ⟨[.assign ⟨"x", below⟩ (.literal (.int 1) .blank) below], below⟩
    let tokens := kinds.map fun kind => Token.mk kind "" .blank
    let others := kinds.map fun kind => Token.mk kind kind.text below
    (∃ one two, (SourceFile.mk "" "").parse tokens = .ok one ∧
      (SourceFile.mk "" "").parse others = .ok two ∧ one.bare = two.bare) ∧
    Interpreter.RunsAlike { world := Grid.empty } one two := by
  intro kinds one below two tokens others
  have laid := layout_immaterial (ω := Grid)
  refine ⟨?_, (laid.2 one two rfl).1 _⟩
  have accepted : ((SourceFile.mk "" "").parse tokens).isOk = true := by decide +kernel
  rcases laid.1 ⟨"", ""⟩ ⟨"", ""⟩ tokens others rfl with read | ⟨_, _, failed, _⟩
  · exact read
  · rw [failed] at accepted
    cases accepted

end Waggle
