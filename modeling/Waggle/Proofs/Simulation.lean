import Waggle.Proofs.Identity
import Waggle.World.Recorded

/-!
# Worlds that cannot be told apart

A script knows a world by its answers alone. Where the states of two worlds are related so that a
query has the same answer in both, and queries and effects leave related states, a computation that
asks and acts comes to the same in either (`Mirrors`); there is one lemma for each function that a
step goes through. So a step does the same in either world, and by induction a run does, whichever
way it is driven (`Execution.drive_inWorld`).

Two such relations are told here. A world whose calls are recorded is the world itself. A registry
is the grid world that is left of it without the numbers, whatever was done with it before
(`Registry.performAll_interpret`); so what holds of the runs of a grid world, where the entities are
a list, holds of those of a registry, where they stand in a table.
-/

namespace Waggle

variable {ω ν α β : Type}

/-- A relation between the states of two worlds that can be told apart neither by an answer nor by
what is done to them. -/
structure Simulation [World ω] [World ν] (related : ω → ν → Prop) : Prop where
  /-- A query has the same answer in both, and leaves them related. -/
  ask : ∀ query world other, related world other →
    (World.ask query world).1 = (World.ask query other).1 ∧
      related (World.ask query world).2 (World.ask query other).2
  /-- An effect leaves them related. -/
  act : ∀ effect world other, related world other →
    related (World.act effect world) (World.act effect other)

/-- In related worlds two computations come to the same, and they leave related worlds. -/
def Mirrors (related : ω → ν → Prop) (one : Eval ω α) (two : Eval ν α) : Prop :=
  ∀ world other, related world other →
    (one world).1 = (two other).1 ∧ related (one world).2 (two other).2

namespace Mirrors

variable {related : ω → ν → Prop}

/-- A result that is given is the same in both worlds. -/
theorem pure (value : α) :
    Mirrors related (Pure.pure value : Eval ω α) (Pure.pure value : Eval ν α) :=
  fun _ _ holds => ⟨rfl, holds⟩

/-- A failure is the same in both worlds. -/
theorem throw (error : RuntimeError) :
    Mirrors related (MonadExcept.throw error : Eval ω α) (MonadExcept.throw error : Eval ν α) :=
  fun _ _ holds => ⟨rfl, holds⟩

/-- A result that does not depend on the world is the same in both. -/
theorem ofExcept (result : Except RuntimeError α) :
    Mirrors related (Eval.ofExcept result : Eval ω α) (Eval.ofExcept result : Eval ν α) :=
  fun _ _ holds => ⟨rfl, holds⟩

/-- Sequences come to the same if their parts do. -/
theorem bind {one : Eval ω α} {two : Eval ν α} {next : α → Eval ω β} {later : α → Eval ν β}
    (first : Mirrors related one two)
    (second : ∀ result, Mirrors related (next result) (later result)) :
    Mirrors related (one >>= next) (two >>= later) := by
  intro world other holds
  obtain ⟨same, kept⟩ := first world other holds
  rw [Eval.bind_apply, Eval.bind_apply]
  rcases ran : one world with ⟨result, after⟩
  rcases alsoRan : two other with ⟨found, left⟩
  rw [ran, alsoRan] at same kept
  obtain rfl : result = found := same
  cases result with
  | error error => exact ⟨rfl, kept⟩
  | ok value => exact second value after left kept

/-- Results under a function are the same. -/
theorem map {one : Eval ω α} {two : Eval ν α} (f : α → β) (mirrors : Mirrors related one two) :
    Mirrors related (f <$> one) (f <$> two) := by
  rw [← bind_pure_comp, ← bind_pure_comp]
  exact mirrors.bind fun result => pure (f result)

variable [World ω] [World ν]

/-- A query is answered the same. -/
theorem ask (simulation : Simulation related) (query : Query) :
    Mirrors related (Waggle.ask query : Eval ω query.Answer) (Waggle.ask query) := by
  intro world other holds
  obtain ⟨same, kept⟩ := simulation.ask query world other holds
  exact ⟨congrArg Except.ok same, kept⟩

/-- An effect leaves related worlds. -/
theorem act (simulation : Simulation related) (effect : Effect) :
    Mirrors related (Waggle.act effect : Eval ω Unit) (Waggle.act effect) :=
  fun world other holds => ⟨rfl, simulation.act effect world other holds⟩

end Mirrors

/-! ### Evaluation -/

section Evaluation

variable [World ω] [World ν] {related : ω → ν → Prop}

/-- What a name means is the same. -/
theorem Scope.find?_mirrors (simulation : Simulation related) (scope : Scope) (name : String) :
    Mirrors related (scope.find? name : Eval ω (Option Value)) (scope.find? name) := by
  unfold find?
  cases scope.environment.get? name with
  | some value => exact .pure _
  | none => exact (Mirrors.ask simulation _).bind fun _ => .pure _

/-- A variable has the same value. -/
theorem Scope.lookup_mirrors (simulation : Simulation related) (scope : Scope) (name : String) :
    Mirrors related (scope.lookup name : Eval ω Value) (scope.lookup name) := by
  apply (scope.find?_mirrors simulation name).bind
  intro found
  cases found with
  | some value => exact .pure _
  | none => exact .throw _

/-- The entity that acts is the same. -/
theorem Scope.actorEntity_mirrors (simulation : Simulation related) (scope : Scope) :
    Mirrors related (scope.actorEntity : Eval ω EntityRef) scope.actorEntity := by
  apply (scope.find?_mirrors simulation scope.actor).bind
  intro found
  cases found with
  | some value => exact .ofExcept _
  | none => exact .throw _

/-- A function has the same value. -/
theorem Builtin.call_mirrors (simulation : Simulation related) (scope : Scope) (builtin : Builtin)
    (values : List Value) :
    Mirrors related (builtin.call scope values : Eval ω Value) (builtin.call scope values) := by
  unfold Builtin.call
  split
  · exact (scope.actorEntity_mirrors simulation).bind fun _ =>
      (Mirrors.ask simulation _).bind fun _ => .pure _
  · exact .throw _
  · exact (Mirrors.ask simulation _).bind fun _ => .pure _
  · exact (Mirrors.ask simulation _).bind fun _ => .pure _
  · exact .throw _

mutual

/-- An expression has the same value. -/
theorem Expr.eval_mirrors (simulation : Simulation related) (scope : Scope) (expr : Expr) :
    Mirrors related (expr.eval scope : Eval ω Value) (expr.eval scope) := by
  unfold Expr.eval
  match expr with
  | .literal value span => exact .pure _
  | .reference name span => exact scope.lookup_mirrors simulation name
  | .binary op left right span =>
    exact (left.eval_mirrors simulation scope).bind fun _ =>
      (right.eval_mirrors simulation scope).bind fun _ => .ofExcept _
  | .negate operand span =>
    exact (operand.eval_mirrors simulation scope).bind fun _ => .ofExcept _
  | .call callee arguments span =>
    exact (Mirrors.ofExcept _).bind fun builtin =>
      (evalAll_mirrors simulation scope arguments).bind fun values =>
        builtin.call_mirrors simulation scope values

/-- Expressions have the same values. -/
theorem evalAll_mirrors (simulation : Simulation related) (scope : Scope) (exprs : List Expr) :
    Mirrors related (evalAll scope exprs : Eval ω (List Value)) (evalAll scope exprs) := by
  unfold evalAll
  match exprs with
  | [] => exact .pure _
  | expr :: rest =>
    exact (expr.eval_mirrors simulation scope).bind fun _ =>
      (evalAll_mirrors simulation scope rest).bind fun _ => .pure _

end

variable (simulation : Simulation related)

include simulation

/-- Coordinates are the same. -/
theorem evalInts_mirrors (scope : Scope) (context : String) (exprs : List Expr) :
    Mirrors related (evalInts scope context exprs : Eval ω (List Int64))
      (evalInts scope context exprs) := by
  induction exprs with
  | nil => exact .pure _
  | cons expr rest ih =>
    apply (expr.eval_mirrors simulation scope).bind
    intro value
    cases value with
    | int number => exact ih.bind fun _ => .pure _
    | _ => exact .throw _

/-- The entity that an expression is, is the same. -/
theorem Expr.evalEntity_mirrors (scope : Scope) (role : Role) (expr : Expr) :
    Mirrors related (expr.evalEntity scope role : Eval ω EntityRef) (expr.evalEntity scope role) :=
  (expr.eval_mirrors simulation scope).bind fun _ => .ofExcept _

/-- The entity that an expression is, or the actor, is the same. -/
theorem evalEntityOrActor_mirrors (scope : Scope) (role : Role) (expr : Option Expr) :
    Mirrors related (evalEntityOrActor scope role expr : Eval ω EntityRef)
      (evalEntityOrActor scope role expr) := by
  cases expr with
  | none => exact scope.actorEntity_mirrors simulation
  | some expr => exact expr.evalEntity_mirrors simulation scope role

/-- A motion goes equally far. -/
theorem Motion.eval_mirrors (scope : Scope) (motion : Motion) :
    Mirrors related (motion.eval scope : Eval ω Vec3) (motion.eval scope) := by
  unfold Motion.eval
  split
  · exact .ask simulation _
  · rename_i single
    apply (single.eval_mirrors simulation scope).bind
    intro value
    cases value with
    | direction heading => exact .ask simulation _
    | int number => exact .pure _
    | _ => exact .throw _
  · exact (evalInts_mirrors simulation scope _ _).bind fun _ => .pure _

/-- The deed of a statement is the same. -/
theorem Stmt.deed_mirrors (scope : Scope) (stmt : Stmt) :
    Mirrors related (stmt.deed scope : Eval ω Deed) (stmt.deed scope) := by
  cases stmt with
  | assign name value span => exact (value.eval_mirrors simulation scope).bind fun _ => .pure _
  | evaluate expr span => exact (expr.eval_mirrors simulation scope).bind fun _ => .pure _
  | move target motion span =>
    exact (evalEntityOrActor_mirrors simulation scope _ target).bind fun _ =>
      (motion.eval_mirrors simulation scope).bind fun _ => .pure _
  | moveTo coordinates span =>
    exact (scope.actorEntity_mirrors simulation).bind fun _ =>
      (evalInts_mirrors simulation scope _ coordinates).bind fun _ => .pure _
  | attack attacker target span =>
    exact (evalEntityOrActor_mirrors simulation scope _ attacker).bind fun _ =>
      (target.evalEntity_mirrors simulation scope _).bind fun _ => .pure _
  | branch | whileLoop | repeatLoop => exact .pure _

end Evaluation

/-! ### Steps -/

section Steps

variable [World ω] [World ν] {related : ω → ν → Prop} (simulation : Simulation related)

include simulation

/-- A deed leaves the same bindings. -/
theorem Deed.perform_mirrors (environment : Environment) (deed : Deed) :
    Mirrors related (deed.perform environment : Eval ω Environment) (deed.perform environment) := by
  cases deed with
  | none => exact .pure _
  | bind name value => exact .pure _
  | effect change => exact (Mirrors.act simulation change).bind fun _ => .pure _

/-- A statement is carried out the same. -/
theorem Stmt.execute_mirrors (scope : Scope) (stmt : Stmt) (frames : List Frame) :
    Mirrors related (stmt.execute scope frames : Eval ω Progress) (stmt.execute scope frames) := by
  have perform (deed : Deed) : Mirrors related
      (do return ⟨.statement stmt.span, frames, ← deed.perform scope.environment⟩ :
        Eval ω Progress)
      (do return ⟨.statement stmt.span, frames, ← deed.perform scope.environment⟩) :=
    (deed.perform_mirrors simulation scope.environment).bind fun _ => .pure _
  cases stmt with
  | branch condition consequent alternative span =>
    exact (condition.eval_mirrors simulation scope).bind fun _ => .pure _
  | whileLoop condition body span => exact .pure _
  | repeatLoop count body span =>
    exact (count.eval_mirrors simulation scope).bind fun _ =>
      (Mirrors.ofExcept _).bind fun _ => .pure _
  | _ => exact (Stmt.deed_mirrors simulation scope _).bind perform

/-- A step does the same. -/
theorem advance_mirrors (scope : Scope) (frames : List Frame) :
    Mirrors related (advance scope frames : Eval ω (Option Progress)) (advance scope frames) := by
  induction frames with
  | nil => exact .pure _
  | cons frame frames ih =>
    match frame with
    | .block [] => exact ih
    | .block (stmt :: rest) => exact (stmt.execute_mirrors simulation scope _).map some
    | .whileLoop condition body span begun =>
      apply (condition.eval_mirrors simulation scope).bind
      intro value
      by_cases again : value.truthy
      · rw [if_pos again, if_pos again]
        by_cases spent : maxIterations ≤ begun
        · rw [if_pos spent, if_pos spent]
          exact .throw _
        · rw [if_neg spent, if_neg spent]
          exact .pure _
      · rw [if_neg again, if_neg again]
        exact ih
    | .repeatLoop body span 0 begun => exact ih
    | .repeatLoop body span (remaining + 1) begun => exact .pure _

end Steps

/-! ### Runs -/

/-- An interpreter as it is, in another world. -/
def Interpreter.inWorld (host : Interpreter ω) (world : ν) : Interpreter ν where
  world
  environment := host.environment
  config := host.config
  console := host.console
  audio := host.audio
  state := host.state
  cancelRequested := host.cancelRequested

/-- The feedback about a run does not depend on the world. -/
theorem Interpreter.conclude_inWorld (host : Interpreter ω) (world : ν) (outcome : RunOutcome) :
    (host.inWorld world).conclude outcome = (host.conclude outcome).inWorld world := by
  cases outcome <;> rfl

namespace Execution

/-- A run as it is, in another world. -/
def inWorld (run : Execution ω) (world : ν) : Execution ν where
  host := run.host.inWorld world
  frames := run.frames
  outcome := run.outcome

/-- A run that ends, ends the same in another world. -/
theorem finish_inWorld (host : Interpreter ω) (world : ν) (outcome : RunOutcome) :
    finish (host.inWorld world) outcome =
      (.finished outcome, (finish host outcome).2.inWorld world) := by
  unfold finish
  rw [Interpreter.conclude_inWorld]
  rfl

variable [World ω] [World ν] {related : ω → ν → Prop} (simulation : Simulation related)

include simulation

/-- In a related world a step tells the same, and leaves the same in a related world. -/
theorem step_inWorld (run : Execution ω) {other : ν} (holds : related run.host.world other) :
    ∃ after, related run.step.2.host.world after ∧
      (run.inWorld other).step = (run.step.1, run.step.2.inWorld after) := by
  rcases known : run.outcome with _ | outcome
  · have unfinished : (run.inWorld other).outcome = none := known
    rcases requested : run.host.cancelRequested with _ | _
    · have uncancelled : (run.inWorld other).host.cancelRequested = false := requested
      obtain ⟨same, kept⟩ :=
        advance_mirrors simulation run.host.scope run.frames run.host.world other holds
      rcases advanced : advance run.host.scope run.frames run.host.world with ⟨result, world⟩
      rcases alsoAdvanced : advance run.host.scope run.frames other with ⟨found, after⟩
      rw [advanced, alsoAdvanced] at same kept
      obtain rfl : result = found := same
      exists after
      rcases result with error | _ | progress
      · rw [step_of_error known requested advanced,
          step_of_error unfinished uncancelled alsoAdvanced]
        exact ⟨by simpa [finish] using kept, finish_inWorld { run.host with world } after _⟩
      · rw [step_of_none known requested advanced, step_of_none unfinished uncancelled alsoAdvanced]
        exact ⟨by simpa [finish] using kept, finish_inWorld { run.host with world } after _⟩
      · rw [step_of_some known requested advanced, step_of_some unfinished uncancelled alsoAdvanced]
        exact ⟨kept, rfl⟩
    · have cancelled : (run.inWorld other).host.cancelRequested = true := requested
      exists other
      rw [step_of_cancelled known requested, step_of_cancelled unfinished cancelled]
      exact ⟨by simpa [finish] using holds, finish_inWorld run.host other _⟩
  · have finished : (run.inWorld other).outcome = some outcome := known
    exists other
    rw [step_of_finished known, step_of_finished finished]
    exact ⟨holds, rfl⟩

/-- In a related world any number of steps tell the same, and leave the same in a related world. -/
theorem steps_inWorld (run : Execution ω) {other : ν} (holds : related run.host.world other)
    (count : Nat) :
    ∃ after, related (run.steps count).2.host.world after ∧
      (run.inWorld other).steps count =
        ((run.steps count).1, (run.steps count).2.inWorld after) := by
  induction count generalizing run other with
  | zero => exact ⟨other, holds, rfl⟩
  | succ count ih =>
    obtain ⟨between, kept, same⟩ := step_inWorld simulation run holds
    obtain ⟨after, last, others⟩ := ih run.step.2 kept
    exists after
    constructor
    · exact last
    · unfold steps
      rw [same]
      dsimp only
      rw [others]

/-- In a related world a run that is driven to its end visits the same points, ends with the same
outcome and leaves the same in a related world. -/
theorem drive_inWorld (visit : α → SuspendPoint → α) (seen : α) (run : Execution ω) {other : ν}
    (holds : related run.host.world other) :
    ∃ after, related (run.drive visit seen).2.2.host.world after ∧
      (run.inWorld other).drive visit seen =
        ((run.drive visit seen).1, (run.drive visit seen).2.1,
          (run.drive visit seen).2.2.inWorld after) := by
  obtain ⟨points, outcome, -, taken⟩ := run.steps_finish
  obtain ⟨after, kept, same⟩ := steps_inWorld simulation run holds (points.length + 1)
  have alsoTaken : ((run.inWorld other).steps (points.length + 1)).1 =
      points.map Step.suspended ++ [Step.finished outcome] := by
    rw [same]
    exact taken
  exists after
  rw [drive_of_steps visit seen taken, drive_of_steps visit seen alsoTaken, same]
  exact ⟨kept, rfl⟩

end Execution

/-- In a related world a program comes to the same: it pauses at the same points, ends with the same
outcome, and leaves the same interpreter in a related world. -/
theorem Interpreter.interpret_inWorld [World ω] [World ν] {related : ω → ν → Prop}
    (simulation : Simulation related) (host : Interpreter ω) (program : Program) {other : ν}
    (holds : related host.world other) :
    ((host.inWorld other).start program).points = (host.start program).points ∧
      ∃ after, related (host.interpret program).2.world after ∧
        (host.inWorld other).interpret program =
          ((host.interpret program).1, (host.interpret program).2.inWorld after) := by
  have same : (host.inWorld other).start program = (host.start program).inWorld other := rfl
  constructor
  · obtain ⟨_, -, driven⟩ := (host.start program).drive_inWorld simulation
      (fun points point => points ++ [point]) [] holds
    unfold Execution.points
    rw [same, driven]
  · obtain ⟨after, kept, driven⟩ :=
      (host.start program).drive_inWorld simulation (fun _ _ => ()) () holds
    exists after
    constructor
    · exact kept
    · unfold interpret Execution.runToEnd
      rw [same, driven]
      rfl

/-! ### Recorded worlds and registries -/

/-- That the calls are recorded makes no difference. -/
theorem Recorded.simulation [World ω] :
    Simulation fun (recorded : Recorded ω) (world : ω) => recorded.world = world where
  ask := by
    rintro query ⟨world, calls⟩ _ rfl
    exact ⟨rfl, rfl⟩
  act := by
    rintro effect ⟨world, calls⟩ _ rfl
    rfl

/-- That entities stand in a table makes no difference as long as they are numbered. -/
theorem Registry.simulation :
    Simulation fun (registry : Registry) (grid : Grid) =>
      registry.Numbered ∧ registry.toGrid = grid where
  ask := by
    rintro query registry _ ⟨numbered, rfl⟩
    rw [numbered.ask_eq]
    have quiet : (World.ask query registry.toGrid).2 = registry.toGrid := QuietWorld.ask_snd ..
    exact ⟨rfl, numbered, quiet.symm⟩
  act := by
    rintro effect registry _ ⟨numbered, rfl⟩
    exact numbered.act effect

/-- A program comes to the same whether its calls are recorded or not. -/
theorem Recorded.interpret_world [World ω] (host : Interpreter (Recorded ω)) (program : Program) :
    (host.inWorld host.world.world).interpret program =
      ((host.interpret program).1,
        (host.interpret program).2.inWorld (host.interpret program).2.world.world) := by
  obtain ⟨-, after, rfl, same⟩ := host.interpret_inWorld Recorded.simulation program rfl
  exact same

/-- Whatever was done with a registry before, as long as fewer than `2 ^ 64` entities were spawned:
a program that is run over it then pauses at the same points and comes to the same as over its list
of entities, and leaves a registry with the list that it leaves there, whose entities are numbered
as before. -/
theorem Registry.performAll_interpret (history : List GridOperation)
    (few : (spawned history).length < 2 ^ 64) {host : Interpreter Registry}
    (reached : host.world = (empty.performAll history).2) (program : Program) :
    let listed := host.inWorld host.world.toGrid
    let last := (host.interpret program).2
    (listed.start program).points = (host.start program).points ∧
      listed.interpret program = ((host.interpret program).1, last.inWorld last.world.toGrid) ∧
      last.world.Numbered := by
  intro listed last
  have numbered : host.world.Numbered := by
    rw [reached]
    exact (performAll_follows history few).1.numbered
  obtain ⟨points, _, ⟨still, rfl⟩, same⟩ :=
    host.interpret_inWorld Registry.simulation program ⟨numbered, rfl⟩
  exact ⟨points, same, still⟩

end Waggle
