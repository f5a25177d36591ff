import Waggle.Proofs.Stepping
import Waggle.World.Recorded

/-!
# A step happens as a whole or not at all

A step looks for what is to be done next and evaluates what it needs, and through all of that it
only asks the world. The one effect that it may have comes last, when nothing can fail any more. So
a step that fails changes nothing, and a step that succeeds changes either one thing in the world,
or one binding, or nothing (`Execution.step_atomic`).
-/

namespace Waggle

/-- Whether a call only asks. -/
def Call.isQuery : Call → Bool
  | .asked .. => true
  | .acted _ => false

variable {ω α β : Type} [World ω]

/-- Between two moments a world was only asked, and one that answers without changing is as it
was. -/
structure Recorded.OnlyAsked (before after : Recorded ω) : Prop where
  /-- The calls in between are queries. -/
  calls : ∃ queries : List Call, (∀ call ∈ queries, call.isQuery) ∧
    after.calls.toList = before.calls.toList ++ queries
  /-- A quiet world is unchanged. -/
  world : QuietWorld ω → after.world = before.world

namespace Recorded.OnlyAsked

/-- Nothing happens in no time. -/
theorem refl (recorded : Recorded ω) : OnlyAsked recorded recorded :=
  ⟨⟨[], by simp, by simp⟩, fun _ => rfl⟩

/-- Queries after queries are queries. -/
theorem trans {first second third : Recorded ω} (early : OnlyAsked first second)
    (late : OnlyAsked second third) : OnlyAsked first third := by
  obtain ⟨before, askedBefore, callsBefore⟩ := early.calls
  obtain ⟨after, askedAfter, callsAfter⟩ := late.calls
  refine ⟨⟨before ++ after, fun call member => ?_, ?_⟩, fun quiet => ?_⟩
  · rcases List.mem_append.mp member with inBefore | inAfter
    · exact askedBefore call inBefore
    · exact askedAfter call inAfter
  · rw [callsAfter, callsBefore, List.append_assoc]
  · rw [late.world quiet, early.world quiet]

/-- A query only asks. -/
theorem ofAsk (query : Query) (recorded : Recorded ω) :
    OnlyAsked recorded (World.ask query recorded).2 := by
  refine ⟨⟨[.asked query (World.ask query recorded.world).1], ?_, ?_⟩, fun quiet => ?_⟩
  · simp [Call.isQuery]
  · exact Array.toList_push
  · exact quiet.ask_snd query recorded.world

end Recorded.OnlyAsked

/-- A computation only asks the world, whether it fails or not. -/
def OnlyAsks (computation : Eval (Recorded ω) α) : Prop :=
  ∀ recorded, Recorded.OnlyAsked recorded (computation recorded).2

namespace OnlyAsks

/-- A result that is given needs no call. -/
theorem pure (value : α) : OnlyAsks (Pure.pure value : Eval (Recorded ω) α) :=
  Recorded.OnlyAsked.refl

/-- A failure needs no call. -/
theorem throw (error : RuntimeError) :
    OnlyAsks (MonadExcept.throw error : Eval (Recorded ω) α) :=
  Recorded.OnlyAsked.refl

/-- A result that does not depend on the world needs no call. -/
theorem ofExcept (result : Except RuntimeError α) :
    OnlyAsks (Eval.ofExcept result : Eval (Recorded ω) α) :=
  Recorded.OnlyAsked.refl

/-- A query only asks. -/
theorem ask (query : Query) : OnlyAsks (Waggle.ask query : Eval (Recorded ω) query.Answer) :=
  Recorded.OnlyAsked.ofAsk query

/-- A sequence of computations that only ask only asks. -/
theorem bind {computation : Eval (Recorded ω) α} {next : α → Eval (Recorded ω) β}
    (first : OnlyAsks computation) (second : ∀ result, OnlyAsks (next result)) :
    OnlyAsks (computation >>= next) := by
  intro recorded
  rw [Eval.bind_apply]
  have early := first recorded
  rcases ran : computation recorded with ⟨error | result, after⟩
  · rwa [ran] at early
  · rw [ran] at early
    exact early.trans (second result after)

end OnlyAsks

section Evaluation

variable (scope : Scope)

/-- Finding a name only asks. -/
theorem Scope.find?_onlyAsks (name : String) :
    OnlyAsks (scope.find? name : Eval (Recorded ω) (Option Value)) := by
  unfold find?
  split
  · exact .pure _
  · exact .bind (.ask _) fun _ => .pure _

/-- Looking up a name only asks. -/
theorem Scope.lookup_onlyAsks (name : String) :
    OnlyAsks (scope.lookup name : Eval (Recorded ω) Value) := by
  refine .bind (scope.find?_onlyAsks name) fun found => ?_
  cases found with
  | none => exact .throw _
  | some value => exact .pure value

/-- Finding the actor only asks. -/
theorem Scope.actorEntity_onlyAsks :
    OnlyAsks (scope.actorEntity : Eval (Recorded ω) EntityRef) := by
  refine .bind (scope.find?_onlyAsks scope.actor) fun found => ?_
  cases found with
  | none => exact .throw _
  | some value => exact .ofExcept _

/-- A function only asks. -/
theorem Builtin.call_onlyAsks (builtin : Builtin) (values : List Value) :
    OnlyAsks (builtin.call scope values : Eval (Recorded ω) Value) := by
  unfold call
  split
  · exact .bind scope.actorEntity_onlyAsks fun entity => .bind (.ask _) fun _ => .pure _
  · exact .throw _
  · exact .bind (.ask _) fun _ => .pure _
  · exact .bind (.ask _) fun _ => .pure _
  · exact .throw _

mutual

/-- Evaluating an expression only asks. -/
theorem Expr.eval_onlyAsks (expr : Expr) :
    OnlyAsks (expr.eval scope : Eval (Recorded ω) Value) := by
  cases expr with
  | literal value span => exact .pure value
  | reference name span => exact scope.lookup_onlyAsks name
  | binary op left right span =>
    unfold Expr.eval
    exact .bind left.eval_onlyAsks fun _ => .bind right.eval_onlyAsks fun _ => .ofExcept _
  | negate operand span =>
    unfold Expr.eval
    exact .bind operand.eval_onlyAsks fun _ => .ofExcept _
  | call callee arguments span =>
    unfold Expr.eval
    exact .bind (.ofExcept _) fun builtin =>
      .bind (evalAll_onlyAsks arguments) fun values => builtin.call_onlyAsks scope values

/-- Evaluating expressions only asks. -/
theorem evalAll_onlyAsks (exprs : List Expr) :
    OnlyAsks (evalAll scope exprs : Eval (Recorded ω) (List Value)) := by
  cases exprs with
  | nil => exact .pure []
  | cons expr rest =>
    unfold evalAll
    exact .bind expr.eval_onlyAsks fun _ => .bind (evalAll_onlyAsks rest) fun _ => .pure _

end

/-- Evaluating coordinates only asks. -/
theorem evalInts_onlyAsks (context : String) (exprs : List Expr) :
    OnlyAsks (evalInts scope context exprs : Eval (Recorded ω) (List Int64)) := by
  induction exprs with
  | nil => exact .pure []
  | cons expr rest ih =>
    refine .bind (expr.eval_onlyAsks scope) fun value => ?_
    cases value with
    | int number => exact .bind ih fun _ => .pure _
    | _ => exact .throw _

/-- Evaluating an entity only asks. -/
theorem Expr.evalEntity_onlyAsks (role : Role) (expr : Expr) :
    OnlyAsks (expr.evalEntity scope role : Eval (Recorded ω) EntityRef) :=
  .bind (expr.eval_onlyAsks scope) fun _ => .ofExcept _

/-- Evaluating an entity or finding the actor only asks. -/
theorem evalEntityOrActor_onlyAsks (role : Role) (expr : Option Expr) :
    OnlyAsks (evalEntityOrActor scope role expr : Eval (Recorded ω) EntityRef) := by
  cases expr with
  | none => exact scope.actorEntity_onlyAsks
  | some expr => exact expr.evalEntity_onlyAsks scope role

/-- Evaluating a motion only asks. -/
theorem Motion.eval_onlyAsks (motion : Motion) :
    OnlyAsks (motion.eval scope : Eval (Recorded ω) Vec3) := by
  unfold Motion.eval
  split
  · exact .ask _
  · refine .bind (Expr.eval_onlyAsks scope _) fun value => ?_
    cases value with
    | direction heading => exact .ask _
    | int number => exact .pure _
    | _ => exact .throw _
  · exact .bind (evalInts_onlyAsks scope _ _) fun _ => .pure _

/-- Finding the deed of a statement only asks. -/
theorem Stmt.deed_onlyAsks (stmt : Stmt) :
    OnlyAsks (stmt.deed scope : Eval (Recorded ω) Deed) := by
  cases stmt with
  | assign name value span => exact .bind (value.eval_onlyAsks scope) fun _ => .pure _
  | evaluate expr span => exact .bind (expr.eval_onlyAsks scope) fun _ => .pure _
  | move target motion span =>
    exact .bind (evalEntityOrActor_onlyAsks scope _ target) fun _ =>
      .bind (motion.eval_onlyAsks scope) fun _ => .pure _
  | moveTo coordinates span =>
    exact .bind scope.actorEntity_onlyAsks fun _ =>
      .bind (evalInts_onlyAsks scope _ coordinates) fun _ => .pure _
  | attack attacker target span =>
    exact .bind (evalEntityOrActor_onlyAsks scope _ attacker) fun _ =>
      .bind (target.evalEntity_onlyAsks scope _) fun _ => .pure _
  | branch | whileLoop | repeatLoop => exact .pure _

end Evaluation

/-- What a step comes upon when the frames that have ended are passed over. -/
inductive Focus where
  /-- Nothing is left. -/
  | finished
  /-- A statement, before what is left after it. -/
  | statement (stmt : Stmt) (frames : List Frame)
  /-- An iteration of a loop, with the frames it begins with. -/
  | iteration (span : Span) (number : Nat) (frames : List Frame)

section Focus

variable {ω : Type} [World ω] (scope : Scope)

/-- Looks for what is to be done next; the conditions of loops are evaluated on the way. -/
def focus : List Frame → Eval ω Focus
  | [] => return .finished
  | .block [] :: frames => focus frames
  | .block (stmt :: rest) :: frames => return .statement stmt (.block rest :: frames)
  | .whileLoop condition body span begun :: frames => do
    let value ← condition.eval scope
    if value.truthy then
      if maxIterations ≤ begun then
        throw .infiniteLoopGuardTripped
      else
        return .iteration span (begun + 1)
          (.block body :: .whileLoop condition body span (begun + 1) :: frames)
    else
      focus frames
  | .repeatLoop _ _ 0 _ :: frames => focus frames
  | .repeatLoop body span (remaining + 1) begun :: frames =>
    return .iteration span (begun + 1)
      (.block body :: .repeatLoop body span remaining (begun + 1) :: frames)

/-- Does what was come upon. -/
def Focus.follow : Focus → Eval ω (Option Progress)
  | .finished => return none
  | .statement stmt frames => some <$> stmt.execute scope frames
  | .iteration span number frames =>
    return some ⟨.iteration span number, frames, scope.environment⟩

/-- A step looks for what is to be done next and then does it. -/
theorem advance_eq_focus (frames : List Frame) :
    (advance scope frames : Eval ω (Option Progress)) =
      focus scope frames >>= Focus.follow scope := by
  induction frames with
  | nil => rfl
  | cons frame frames ih =>
    match frame with
    | .block [] => exact ih
    | .block (stmt :: rest) => rfl
    | .whileLoop condition body span begun =>
      simp only [advance, focus, bind_assoc]
      refine bind_congr fun value => ?_
      split
      · split
        · rfl
        · rfl
      · exact ih
    | .repeatLoop body span 0 begun => exact ih
    | .repeatLoop body span (remaining + 1) begun => rfl

/-- Looking for what is to be done next only asks. -/
theorem focus_onlyAsks (frames : List Frame) :
    OnlyAsks (focus scope frames : Eval (Recorded ω) Focus) := by
  induction frames with
  | nil => exact .pure _
  | cons frame frames ih =>
    match frame with
    | .block [] => exact ih
    | .block (stmt :: rest) => exact .pure _
    | .whileLoop condition body span begun =>
      refine .bind (condition.eval_onlyAsks scope) fun value => ?_
      split
      · split
        · exact .throw _
        · exact .pure _
      · exact ih
    | .repeatLoop body span 0 begun => exact ih
    | .repeatLoop body span (remaining + 1) begun => exact .pure _

end Focus

/-- The effects that a statement can have on the world. -/
inductive Stmt.Causes : Stmt → Effect → Prop
  | move {target motion span entity delta} :
    Causes (.move target motion span) (.translate entity delta)
  | moveTo {coordinates span entity position} :
    Causes (.moveTo coordinates span) (.setPosition entity position)
  | attack {attacker target span first second} :
    Causes (.attack attacker target span) (.reportAttack first second)

/-- Whether a statement acts on the world. -/
def Stmt.acts : Stmt → Bool
  | .move .. | .moveTo .. | .attack .. => true
  | .assign .. | .branch .. | .whileLoop .. | .repeatLoop .. | .evaluate .. => false

/-- Whether a statement binds a name. -/
def Stmt.binds : Stmt → Bool
  | .assign .. => true
  | _ => false

section Statement

variable (scope : Scope) (frames : List Frame)

/-- The deed of a statement that acts is an effect of its kind. -/
theorem Stmt.deed_acts {stmt : Stmt} (acts : stmt.acts = true) :
    (stmt.deed scope : Eval ω Deed).Ensures fun deed =>
      ∃ effect, deed = .effect effect ∧ stmt.Causes effect := by
  cases stmt with
  | move => exact .bind fun _ => .bind fun _ => .pure ⟨_, rfl, .move⟩
  | moveTo => exact .bind fun _ => .bind fun _ => .pure ⟨_, rfl, .moveTo⟩
  | attack => exact .bind fun _ => .bind fun _ => .pure ⟨_, rfl, .attack⟩
  | assign | branch | whileLoop | repeatLoop | evaluate => cases acts

/-- A statement that acts finds its deed before it does it. -/
theorem Stmt.execute_acts {stmt : Stmt} (acts : stmt.acts = true) :
    (stmt.execute scope frames : Eval ω Progress) = (do
      let deed ← stmt.deed scope
      let environment ← deed.perform scope.environment
      return ⟨.statement stmt.span, frames, environment⟩) := by
  cases stmt with
  | move | moveTo | attack => rfl
  | assign | branch | whileLoop | repeatLoop | evaluate => cases acts

/-- An assignment evaluates its expression and then binds its name. -/
theorem Stmt.execute_assign (name : Ident) (value : Expr) (span : Span) :
    (Stmt.execute scope (.assign name value span) frames : Eval ω Progress) = (do
      let result ← value.eval scope
      return ⟨.statement span, frames, scope.environment.insert name.name result⟩) := by
  simp only [Stmt.execute, Stmt.deed, Deed.perform, bind_assoc, pure_bind, Stmt.span]

/-- An expression alone is evaluated and leaves the bindings as they are. -/
theorem Stmt.execute_evaluate (expr : Expr) (span : Span) :
    (Stmt.execute scope (.evaluate expr span) frames : Eval ω Progress) = (do
      let _ ← expr.eval scope
      return ⟨.statement span, frames, scope.environment⟩) := by
  simp only [Stmt.execute, Stmt.deed, Deed.perform, bind_assoc, pure_bind, Stmt.span]

/-- A statement that neither acts nor binds only asks. -/
theorem Stmt.execute_onlyAsks {stmt : Stmt} (passive : stmt.acts = false)
    (bindless : stmt.binds = false) :
    OnlyAsks (stmt.execute scope frames : Eval (Recorded ω) Progress) := by
  cases stmt with
  | branch condition consequent alternative span =>
    exact .bind (condition.eval_onlyAsks scope) fun _ => .pure _
  | whileLoop condition body span => exact .pure _
  | repeatLoop count body span =>
    exact .bind (count.eval_onlyAsks scope) fun _ => .bind (.ofExcept _) fun _ => .pure _
  | evaluate expr span =>
    rw [execute_evaluate]
    exact .bind (expr.eval_onlyAsks scope) fun _ => .pure _
  | assign => cases bindless
  | move | moveTo | attack => cases passive

/-- A statement that neither acts nor binds leaves the bindings as they are. -/
theorem Stmt.execute_environment {stmt : Stmt} (passive : stmt.acts = false)
    (bindless : stmt.binds = false) :
    (stmt.execute scope frames : Eval ω Progress).Ensures fun progress =>
      progress.environment = scope.environment := by
  cases stmt with
  | branch condition consequent alternative span => exact .bind fun _ => .pure rfl
  | whileLoop condition body span => exact .pure rfl
  | repeatLoop count body span => exact .bind fun _ => .bind fun _ => .pure rfl
  | evaluate expr span =>
    rw [execute_evaluate]
    exact .bind fun _ => .pure rfl
  | assign => cases bindless
  | move | moveTo | attack => cases passive

/-- A statement that acts only asks until its one effect, which ends it. -/
theorem Stmt.execute_acts_cases {stmt : Stmt} (acts : stmt.acts = true) (upon : Recorded ω) :
    (∃ error world, stmt.execute scope frames upon = (.error error, world) ∧
        Recorded.OnlyAsked upon world) ∨
      ∃ effect asked, stmt.execute scope frames upon =
          (.ok ⟨.statement stmt.span, frames, scope.environment⟩, World.act effect asked) ∧
        stmt.Causes effect ∧ Recorded.OnlyAsked upon asked := by
  have asks := stmt.deed_onlyAsks scope upon
  rw [execute_acts scope frames acts, Eval.bind_apply]
  rcases found : stmt.deed scope upon with ⟨error | deed, asked⟩
  · rw [found] at asks
    exact .inl ⟨error, asked, rfl, asks⟩
  · rw [found] at asks
    obtain ⟨effect, rfl, causes⟩ := deed_acts scope acts upon deed asked found
    exact .inr ⟨effect, asked, rfl, causes, asks⟩

end Statement

namespace Execution

/-- The next step comes upon a statement, in the world as it is by then. -/
def ComesUpon {ω : Type} [World ω] (run : Execution ω) (stmt : Stmt) (world : ω) : Prop :=
  run.outcome = none ∧ run.host.cancelRequested = false ∧ ∃ frames,
    focus run.host.scope run.frames run.host.world = (.ok (.statement stmt frames), world)

/-- The three ways in which a step can change what it works on. -/
inductive Atomic (before : Execution (Recorded ω)) : Step → Execution (Recorded ω) → Prop
  /-- A statement that acts on the world has one effect, which is the last call of the step. -/
  | acted {stmt : Stmt} {effect : Effect} {queries : List Call} {upon : Recorded ω}
    {after : Execution (Recorded ω)} (found : before.ComesUpon stmt upon)
    (kind : stmt.Causes effect) (asked : ∀ call ∈ queries, call.isQuery)
    (calls : after.host.world.calls.toList =
      before.host.world.calls.toList ++ queries ++ [.acted effect])
    (world : QuietWorld ω →
      after.host.world.world = World.act effect before.host.world.world)
    (environment : after.host.environment = before.host.environment) :
    Atomic before (.suspended (.statement stmt.span)) after
  /-- An assignment binds its name to the value of its expression and only asks the world. -/
  | bound {name : Ident} {expr : Expr} {span : Span} {value : Value} {upon : Recorded ω}
    {after : Execution (Recorded ω)} (found : before.ComesUpon (.assign name expr span) upon)
    (evaluated : expr.eval before.host.scope upon = (.ok value, after.host.world))
    (asked : Recorded.OnlyAsked before.host.world after.host.world)
    (self : after.host.environment.get? name.name = some value)
    (others : ∀ other, other ≠ name.name →
      after.host.environment.get? other = before.host.environment.get? other) :
    Atomic before (.suspended (.statement span)) after
  /-- Any other step, and every step that ends the run, only asks the world. -/
  | unchanged {step : Step} {after : Execution (Recorded ω)}
    (other : ∀ stmt upon, before.ComesUpon stmt upon → stmt.acts = true ∨ stmt.binds = true →
      ∃ outcome, step = .finished outcome)
    (asked : Recorded.OnlyAsked before.host.world after.host.world)
    (environment : after.host.environment = before.host.environment) :
    Atomic before step after

/-- A step comes upon one statement at most. -/
theorem ComesUpon.unique {ω : Type} [World ω] {run : Execution ω} {first second : Stmt}
    {early late : ω} (one : run.ComesUpon first early) (other : run.ComesUpon second late) :
    first = second := by
  obtain ⟨_, _, _, found⟩ := one
  obtain ⟨_, _, _, again⟩ := other
  rw [found] at again
  cases again
  rfl

/-- A step that ends the run changes nothing if it has only asked. -/
theorem Atomic.ofFinish {run : Execution (Recorded ω)} {world : Recorded ω}
    (asked : Recorded.OnlyAsked run.host.world world) (outcome : RunOutcome) :
    Atomic run (finish { run.host with world } outcome).1
      (finish { run.host with world } outcome).2 := by
  refine .unchanged (fun _ _ _ _ => ⟨outcome, rfl⟩) ?_ ?_
  · simpa only [finish, Interpreter.conclude_world] using asked
  · exact Interpreter.conclude_environment _ _

/-- An effect on a world that was only asked before, as the calls show it. -/
theorem Atomic.ofEffect {run after : Execution (Recorded ω)} {stmt : Stmt} {effect : Effect}
    {upon asked : Recorded ω} (found : run.ComesUpon stmt upon) (causes : stmt.Causes effect)
    (onlyAsked : Recorded.OnlyAsked run.host.world asked)
    (world : after.host.world = World.act effect asked)
    (environment : after.host.environment = run.host.environment) :
    Atomic run (.suspended (.statement stmt.span)) after := by
  obtain ⟨queries, queried, calls⟩ := onlyAsked.calls
  refine .acted found causes queried ?_ (fun quiet => ?_) environment
  · rw [world, ← calls]
    exact Array.toList_push
  · rw [world, ← onlyAsked.world quiet]
    rfl

/-- A step that comes upon a statement is atomic. -/
theorem Atomic.ofStatement {run : Execution (Recorded ω)} {stmt : Stmt} {frames : List Frame}
    {upon : Recorded ω} (unfinished : run.outcome = none)
    (uncancelled : run.host.cancelRequested = false)
    (found : focus run.host.scope run.frames run.host.world = (.ok (.statement stmt frames), upon))
    (looked : Recorded.OnlyAsked run.host.world upon) :
    Atomic run run.step.1 run.step.2 := by
  have comes : run.ComesUpon stmt upon := ⟨unfinished, uncancelled, frames, found⟩
  have advanced : advance run.host.scope run.frames run.host.world =
      (some <$> stmt.execute run.host.scope frames) upon := by
    rw [advance_eq_focus, Eval.bind_apply, found]
    rfl
  rw [Eval.map_apply] at advanced
  -- Three kinds of statements: one that acts, an assignment, and one that changes nothing.
  by_cases acts : stmt.acts = true
  · rcases stmt.execute_acts_cases run.host.scope frames acts upon with
      ⟨error, world, executed, asked⟩ | ⟨effect, asked, executed, causes, onlyAsked⟩
    · rw [executed] at advanced
      rw [step_of_error unfinished uncancelled advanced]
      exact .ofFinish (looked.trans asked) _
    · rw [executed] at advanced
      rw [step_of_some unfinished uncancelled advanced]
      exact .ofEffect comes causes (looked.trans onlyAsked) rfl rfl
  · by_cases binds : stmt.binds = true
    · obtain ⟨name, expr, span, rfl⟩ : ∃ name expr span, stmt = .assign name expr span := by
        cases stmt with
        | assign name expr span => exact ⟨name, expr, span, rfl⟩
        | _ => cases binds
      have asked := looked.trans (expr.eval_onlyAsks run.host.scope upon)
      rw [Stmt.execute_assign, Eval.bind_apply] at advanced
      rcases evaluated : expr.eval run.host.scope upon with ⟨error | value, world⟩
      · rw [evaluated] at advanced asked
        rw [step_of_error unfinished uncancelled advanced]
        exact .ofFinish asked _
      · rw [evaluated] at advanced asked
        rw [step_of_some unfinished uncancelled advanced]
        exact .bound comes evaluated asked (Environment.get?_insert_self _ _ _)
          fun other different => Environment.get?_insert_of_ne _ _ different
    · have passive : stmt.acts = false := by simpa using acts
      have bindless : stmt.binds = false := by simpa using binds
      have asked := looked.trans
        (Stmt.execute_onlyAsks run.host.scope frames passive bindless upon)
      rcases executed : stmt.execute run.host.scope frames upon with ⟨error | progress, world⟩
      · rw [executed] at advanced asked
        rw [step_of_error unfinished uncancelled advanced]
        exact .ofFinish asked _
      · rw [executed] at advanced asked
        rw [step_of_some unfinished uncancelled advanced]
        refine .unchanged (fun other late again changes => ?_) asked ?_
        · rw [← comes.unique again, passive, bindless] at changes
          simp at changes
        · exact Stmt.execute_environment _ _ passive bindless _ _ _ executed

/-- Every step of every run is atomic, whatever state the run is in: it has one effect as its last
call, or binds one name, or changes nothing, and it changes nothing if it fails. -/
theorem step_atomic (run : Execution (Recorded ω)) : Atomic run run.step.1 run.step.2 := by
  rcases finished : run.outcome with _ | outcome
  · by_cases cancelled : run.host.cancelRequested = true
    · rw [step_of_cancelled finished cancelled]
      exact .ofFinish (.refl run.host.world) _
    · have uncancelled : run.host.cancelRequested = false := by simpa using cancelled
      have looked := focus_onlyAsks run.host.scope run.frames run.host.world
      rcases found : focus run.host.scope run.frames run.host.world with ⟨error | focused, upon⟩
      · have advanced : advance run.host.scope run.frames run.host.world =
            (.error error, upon) := by
          rw [advance_eq_focus, Eval.bind_apply, found]
        rw [found] at looked
        rw [step_of_error finished uncancelled advanced]
        exact .ofFinish looked _
      · rw [found] at looked
        cases focused with
        | finished =>
          have advanced : advance run.host.scope run.frames run.host.world = (.ok none, upon) := by
            rw [advance_eq_focus, Eval.bind_apply, found]
            rfl
          rw [step_of_none finished uncancelled advanced]
          exact .ofFinish looked _
        | statement stmt frames => exact .ofStatement finished uncancelled found looked
        | iteration span number frames =>
          have advanced : advance run.host.scope run.frames run.host.world =
              (.ok (some ⟨.iteration span number, frames, run.host.scope.environment⟩), upon) := by
            rw [advance_eq_focus, Eval.bind_apply, found]
            rfl
          rw [step_of_some finished uncancelled advanced]
          refine .unchanged (fun stmt late comes _ => ?_) looked rfl
          obtain ⟨_, _, _, again⟩ := comes
          rw [found] at again
          cases again
  · rw [step_of_finished finished]
    exact .unchanged (fun _ _ _ _ => ⟨outcome, rfl⟩) (.refl _) rfl

end Execution

end Waggle
