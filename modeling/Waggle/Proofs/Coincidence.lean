import Waggle.Proofs.Atomicity

/-!
# What a step depends on

A step reads the bindings only through the names that its frames refer to and through the name of
the actor. So in two scopes where these names are found alike it takes the same course: it pauses
at the same point, with the same frames left and the same world (`advance_alike`).

How a name is found may depend on the world, which changes during a run. Two computations are
therefore compared in the worlds with a property that lasts: one that every query and every effect
keeps. That a step keeps such a property is then the comparison of the step with itself.
-/

namespace Waggle

variable {ω α β : Type}

/-- Two computations do the same in every world with a property, and leave a world with it. -/
structure Alike (property : ω → Prop) (one two : Eval ω α) : Prop where
  /-- They come to the same and leave the same world. -/
  same : ∀ world, property world → one world = two world
  /-- The property is kept. -/
  kept : ∀ world, property world → property (one world).2

/-- A property of worlds that neither queries nor effects end. -/
structure Lasting [World ω] (property : ω → Prop) : Prop where
  /-- A query keeps it. -/
  ask : ∀ query world, property world → property (World.ask query world).2
  /-- An effect keeps it. -/
  act : ∀ effect world, property world → property (World.act effect world)

namespace Alike

variable {property : ω → Prop}

/-- A result that is given is the same in every world. -/
theorem pure (value : α) :
    Alike property (Pure.pure value : Eval ω α) (Pure.pure value) :=
  ⟨fun _ _ => rfl, fun _ holds => holds⟩

/-- A failure is the same in every world. -/
theorem throw (error : RuntimeError) :
    Alike property (MonadExcept.throw error : Eval ω α) (MonadExcept.throw error) :=
  ⟨fun _ _ => rfl, fun _ holds => holds⟩

/-- A result that does not depend on the world is the same in every world. -/
theorem ofExcept (result : Except RuntimeError α) :
    Alike property (Eval.ofExcept result : Eval ω α) (Eval.ofExcept result) :=
  ⟨fun _ _ => rfl, fun _ holds => holds⟩

/-- A query is answered alike, and keeps what lasts. -/
theorem ask [World ω] (lasting : Lasting property) (query : Query) :
    Alike property (ask query : Eval ω query.Answer) (Waggle.ask query) :=
  ⟨fun _ _ => rfl, fun world holds => lasting.ask query world holds⟩

/-- An effect keeps what lasts. -/
theorem act [World ω] (lasting : Lasting property) (effect : Effect) :
    Alike property (act effect : Eval ω Unit) (Waggle.act effect) :=
  ⟨fun _ _ => rfl, fun world holds => lasting.act effect world holds⟩

/-- Sequences are alike if their first parts are, and their second parts are for every result that
the first can have. -/
theorem bind_of {one two : Eval ω α} {next other : α → Eval ω β} {middle : α → Prop}
    (first : Alike property one two) (ensured : one.Ensures middle)
    (second : ∀ result, middle result → Alike property (next result) (other result)) :
    Alike property (one >>= next) (two >>= other) := by
  constructor
  · intro world holds
    have kept := first.kept world holds
    rw [Eval.bind_apply, Eval.bind_apply, ← first.same world holds]
    rcases ran : one world with ⟨error | result, after⟩
    · rfl
    · rw [ran] at kept
      exact (second result (ensured world result after ran)).same after kept
  · intro world holds
    have kept := first.kept world holds
    rw [Eval.bind_apply]
    rcases ran : one world with ⟨error | result, after⟩
    · rwa [ran] at kept
    · rw [ran] at kept
      exact (second result (ensured world result after ran)).kept after kept

/-- Sequences of computations that are alike are alike. -/
theorem bind {one two : Eval ω α} {next other : α → Eval ω β} (first : Alike property one two)
    (second : ∀ result, Alike property (next result) (other result)) :
    Alike property (one >>= next) (two >>= other) := by
  have ensured : one.Ensures fun _ => True := fun _ _ _ _ => trivial
  exact first.bind_of ensured fun result _ => second result

/-- Results under a function are alike. -/
theorem map {one two : Eval ω α} (f : α → β) (alike : Alike property one two) :
    Alike property (f <$> one) (f <$> two) := by
  rw [← bind_pure_comp, ← bind_pure_comp]
  exact alike.bind fun result => pure (f result)

end Alike

/-- A place of a program where a name occurs. -/
inductive Occurrence where
  /-- A variable of an expression. -/
  | reference (name : String)
  /-- The name that an assignment binds. -/
  | target (name : String)
deriving DecidableEq

mutual

/-- The names that occur in an expression. -/
def Expr.occurrences : Expr → List Occurrence
  | .literal _ _ => []
  | .reference name _ => [.reference name]
  | .binary _ left right _ => left.occurrences ++ right.occurrences
  | .negate operand _ => operand.occurrences
  | .call _ arguments _ => occurrencesOfAll arguments

/-- The names that occur in expressions. -/
def occurrencesOfAll : List Expr → List Occurrence
  | [] => []
  | expr :: rest => expr.occurrences ++ occurrencesOfAll rest

end

/-- The names that occur in a motion. -/
def Motion.occurrences : Motion → List Occurrence
  | .step _ => []
  | .offset coordinates => occurrencesOfAll coordinates

mutual

/-- The names that occur in a statement. -/
def Stmt.occurrences : Stmt → List Occurrence
  | .assign name value _ => .target name.name :: value.occurrences
  | .branch condition consequent none _ =>
    condition.occurrences ++ occurrencesOfStmts consequent.stmts
  | .branch condition consequent (some alternative) _ =>
    condition.occurrences ++
      (occurrencesOfStmts consequent.stmts ++ occurrencesOfStmts alternative.stmts)
  | .whileLoop condition body _ => condition.occurrences ++ occurrencesOfStmts body.stmts
  | .repeatLoop count body _ => count.occurrences ++ occurrencesOfStmts body.stmts
  | .evaluate expr _ => expr.occurrences
  | .move target motion _ => occurrencesOfAll target.toList ++ motion.occurrences
  | .moveTo coordinates _ => occurrencesOfAll coordinates
  | .attack attacker target _ => occurrencesOfAll attacker.toList ++ target.occurrences

/-- The names that occur in statements. -/
def occurrencesOfStmts : List Stmt → List Occurrence
  | [] => []
  | stmt :: rest => stmt.occurrences ++ occurrencesOfStmts rest

end

/-- The names that occur in a program. -/
def Program.occurrences (program : Program) : List Occurrence := occurrencesOfStmts program.stmts

/-- The names that occur in what a frame has still to run. -/
def Frame.occurrences : Frame → List Occurrence
  | .block rest => occurrencesOfStmts rest
  | .whileLoop condition body _ _ => condition.occurrences ++ occurrencesOfStmts body
  | .repeatLoop body _ _ _ => occurrencesOfStmts body

/-- The names that occur in what is left of a run. -/
def occurrencesOfFrames (frames : List Frame) : List Occurrence :=
  frames.flatMap Frame.occurrences

/-- The names in what is left of a run are those of the first frame and of the others. -/
theorem occurrencesOfFrames_cons (frame : Frame) (frames : List Frame) :
    occurrencesOfFrames (frame :: frames) = frame.occurrences ++ occurrencesOfFrames frames :=
  List.flatMap_cons

variable [World ω]

namespace Scope

/-- Two scopes have the same actor, and in every world with a property the actor and the names of
variables are found alike in both. -/
structure Alike (property : ω → Prop) (occurrences : List Occurrence) (left right : Scope) :
    Prop where
  /-- The name of the actor is the same. -/
  actor : right.actor = left.actor
  /-- The actor is found alike. -/
  foundActor : Waggle.Alike property (left.find? left.actor) (right.find? left.actor)
  /-- A variable is found alike. -/
  found : ∀ name, .reference name ∈ occurrences →
    Waggle.Alike property (left.find? name) (right.find? name)

variable {property : ω → Prop} {occurrences : List Occurrence} {left right : Scope}

/-- Scopes that are alike for some names are alike for fewer. -/
theorem Alike.mono {fewer : List Occurrence} (scopes : Alike property occurrences left right)
    (subset : fewer ⊆ occurrences) : Alike property fewer left right :=
  ⟨scopes.actor, scopes.foundActor, fun name member => scopes.found name (subset member)⟩

/-- A name that is bound alike is found alike. -/
theorem find?_alike (lasting : Lasting property) {name : String}
    (same : left.environment.get? name = right.environment.get? name) :
    Waggle.Alike property (left.find? name) (right.find? name) := by
  unfold find?
  rw [← same]
  split
  · exact .pure _
  · exact (Waggle.Alike.ask lasting _).bind fun _ => .pure _

/-- A scope is like itself. -/
theorem Alike.refl (lasting : Lasting property) (scope : Scope) :
    Alike property occurrences scope scope :=
  ⟨rfl, find?_alike lasting rfl, fun _ _ => find?_alike lasting rfl⟩

/-- An assignment changes what is found under its name only. -/
theorem find?_insert_of_ne (scope : Scope) {name other : String} (value : Value)
    (different : other ≠ name) :
    (⟨scope.environment.insert name value, scope.actor⟩ : Scope).find? other =
      (scope.find? other : Eval ω (Option Value)) := by
  unfold find?
  rw [Environment.get?_insert_of_ne _ _ different]

/-- Scopes that are alike stay so when a name is bound to the same value in both. -/
theorem Alike.insert (lasting : Lasting property)
    (scopes : Alike property occurrences left right) (name : String) (value : Value) :
    Alike property occurrences ⟨left.environment.insert name value, left.actor⟩
      ⟨right.environment.insert name value, right.actor⟩ := by
  have stays {other : String}
      (found : Waggle.Alike property (left.find? other) (right.find? other)) :
      Waggle.Alike property
        (find? ⟨left.environment.insert name value, left.actor⟩ other)
        (find? ⟨right.environment.insert name value, right.actor⟩ other) := by
    by_cases same : other = name
    · subst same
      apply find?_alike lasting
      simp only [Environment.get?_insert_self]
    · rw [find?_insert_of_ne left value same, find?_insert_of_ne right value same]
      exact found
  exact ⟨scopes.actor, stays scopes.foundActor,
    fun other member => stays (scopes.found other member)⟩

/-- A variable is looked up alike. -/
theorem Alike.lookup (scopes : Alike property occurrences left right) {name : String}
    (member : .reference name ∈ occurrences) :
    Waggle.Alike property (left.lookup name) (right.lookup name) := by
  apply (scopes.found name member).bind
  intro found
  cases found with
  | none => exact .throw _
  | some value => exact .pure value

/-- The entity that acts is the same. -/
theorem Alike.actorEntity (scopes : Alike property occurrences left right) :
    Waggle.Alike property left.actorEntity right.actorEntity := by
  unfold Scope.actorEntity
  rw [scopes.actor]
  apply scopes.foundActor.bind
  intro found
  cases found with
  | none => exact .throw _
  | some value => exact .ofExcept _

end Scope

section Evaluation

variable {property : ω → Prop} {left right : Scope}

/-- A function is called alike. -/
theorem Builtin.call_alike (lasting : Lasting property) {occurrences : List Occurrence}
    (scopes : Scope.Alike property occurrences left right) (builtin : Builtin)
    (values : List Value) :
    Alike property (builtin.call left values) (builtin.call right values) := by
  unfold Builtin.call
  split
  · exact scopes.actorEntity.bind fun _ => (Alike.ask lasting _).bind fun _ => .pure _
  · exact .throw _
  · exact (Alike.ask lasting _).bind fun _ => .pure _
  · exact (Alike.ask lasting _).bind fun _ => .pure _
  · exact .throw _

mutual

/-- An expression is evaluated alike. -/
theorem Expr.eval_alike (lasting : Lasting property) (expr : Expr)
    (scopes : Scope.Alike property expr.occurrences left right) :
    Alike property (expr.eval left) (expr.eval right) := by
  unfold Expr.eval
  match expr with
  | .literal value span => exact .pure value
  | .reference name span =>
    exact scopes.lookup (by simp only [Expr.occurrences, List.mem_singleton])
  | .binary op first second span =>
    have inFirst := scopes.mono (List.subset_append_left _ _)
    have inSecond := scopes.mono (List.subset_append_right _ _)
    exact (first.eval_alike lasting inFirst).bind fun _ =>
      (second.eval_alike lasting inSecond).bind fun _ => .ofExcept _
  | .negate operand span =>
    exact (operand.eval_alike lasting scopes).bind fun _ => .ofExcept _
  | .call callee arguments span =>
    exact (Alike.ofExcept _).bind fun builtin =>
      (evalAll_alike lasting arguments scopes).bind fun values =>
        builtin.call_alike lasting scopes values

/-- Expressions are evaluated alike. -/
theorem evalAll_alike (lasting : Lasting property) (exprs : List Expr)
    (scopes : Scope.Alike property (occurrencesOfAll exprs) left right) :
    Alike property (evalAll left exprs) (evalAll right exprs) := by
  unfold evalAll
  match exprs with
  | [] => exact .pure []
  | expr :: rest =>
    have inFirst := scopes.mono (List.subset_append_left _ _)
    have inRest := scopes.mono (List.subset_append_right _ _)
    exact (expr.eval_alike lasting inFirst).bind fun _ =>
      (evalAll_alike lasting rest inRest).bind fun _ => .pure _

end

variable (lasting : Lasting property)

include lasting

/-- Coordinates are evaluated alike. -/
theorem evalInts_alike (context : String) (exprs : List Expr)
    (scopes : Scope.Alike property (occurrencesOfAll exprs) left right) :
    Alike property (evalInts left context exprs) (evalInts right context exprs) := by
  induction exprs with
  | nil => exact .pure []
  | cons expr rest ih =>
    have inFirst := scopes.mono (List.subset_append_left _ _)
    have inRest := scopes.mono (List.subset_append_right _ _)
    apply (expr.eval_alike lasting inFirst).bind
    intro value
    cases value with
    | int number => exact (ih inRest).bind fun _ => .pure _
    | _ => exact .throw _

/-- The entity that an expression is, is the same. -/
theorem Expr.evalEntity_alike (role : Role) (expr : Expr)
    (scopes : Scope.Alike property expr.occurrences left right) :
    Alike property (expr.evalEntity left role) (expr.evalEntity right role) :=
  (expr.eval_alike lasting scopes).bind fun _ => .ofExcept _

/-- The entity that an expression is, or the actor, is the same. -/
theorem evalEntityOrActor_alike (role : Role) (expr : Option Expr)
    (scopes : Scope.Alike property (occurrencesOfAll expr.toList) left right) :
    Alike property (evalEntityOrActor left role expr) (evalEntityOrActor right role expr) := by
  cases expr with
  | none => exact scopes.actorEntity
  | some expr =>
    exact expr.evalEntity_alike lasting role (scopes.mono (List.subset_append_left _ _))

/-- A motion goes equally far. -/
theorem Motion.eval_alike (motion : Motion)
    (scopes : Scope.Alike property motion.occurrences left right) :
    Alike property (motion.eval left) (motion.eval right) := by
  unfold Motion.eval
  split
  · exact .ask lasting _
  · rename_i single
    apply (single.eval_alike lasting (scopes.mono (List.subset_append_left _ _))).bind
    intro value
    cases value with
    | direction heading => exact .ask lasting _
    | int number => exact .pure _
    | _ => exact .throw _
  · exact (evalInts_alike lasting _ _ scopes).bind fun _ => .pure _

/-- The deed of a statement is the same. -/
theorem Stmt.deed_alike (stmt : Stmt)
    (scopes : Scope.Alike property stmt.occurrences left right) :
    Alike property (stmt.deed left) (stmt.deed right) := by
  unfold Stmt.occurrences at scopes
  cases stmt with
  | assign name value span =>
    exact (value.eval_alike lasting (scopes.mono (List.subset_cons_self _ _))).bind fun _ => .pure _
  | evaluate expr span => exact (expr.eval_alike lasting scopes).bind fun _ => .pure _
  | move target motion span =>
    have inTarget := scopes.mono (List.subset_append_left _ _)
    have inMotion := scopes.mono (List.subset_append_right _ _)
    exact (evalEntityOrActor_alike lasting _ target inTarget).bind fun _ =>
      (motion.eval_alike lasting inMotion).bind fun _ => .pure _
  | moveTo coordinates span =>
    exact scopes.actorEntity.bind fun _ =>
      (evalInts_alike lasting _ coordinates scopes).bind fun _ => .pure _
  | attack attacker target span =>
    have inAttacker := scopes.mono (List.subset_append_left _ _)
    have inTarget := scopes.mono (List.subset_append_right _ _)
    exact (evalEntityOrActor_alike lasting _ attacker inAttacker).bind fun _ =>
      (target.evalEntity_alike lasting _ inTarget).bind fun _ => .pure _
  | branch | whileLoop | repeatLoop => exact .pure _

end Evaluation

/-- What a step leaves but for the bindings: where the run pauses and what is left of it. -/
def Progress.course (progress : Progress) : SuspendPoint × List Frame :=
  (progress.point, progress.frames)

section Statement

variable {property : ω → Prop} {left right : Scope} (lasting : Lasting property)

include lasting

/-- A deed takes the same course whatever the bindings are. -/
theorem Deed.perform_alike (deed : Deed) (one two : Environment) (result : α) :
    Alike property (deed.perform one >>= fun _ => Pure.pure result)
      (deed.perform two >>= fun _ => Pure.pure result) := by
  cases deed with
  | none => exact .pure _
  | bind name value => exact .pure _
  | effect change => exact (Alike.act lasting change).bind fun _ => .pure _

/-- A statement takes the same course. -/
theorem Stmt.execute_alike (stmt : Stmt) (frames : List Frame)
    (scopes : Scope.Alike property stmt.occurrences left right) :
    Alike property (Progress.course <$> stmt.execute left frames)
      (Progress.course <$> stmt.execute right frames) := by
  have done := (stmt.deed_alike lasting scopes).bind fun deed =>
    deed.perform_alike lasting left.environment right.environment
      (SuspendPoint.statement stmt.span, frames)
  cases stmt with
  | branch condition consequent alternative span =>
    have inCondition : Scope.Alike property condition.occurrences left right := by
      cases alternative <;> exact scopes.mono (List.subset_append_left _ _)
    simp only [Stmt.execute, map_bind, map_pure, Progress.course]
    exact (condition.eval_alike lasting inCondition).bind fun _ => .pure _
  | whileLoop condition body span => exact .pure _
  | repeatLoop count body span =>
    have inCount := scopes.mono (List.subset_append_left _ _)
    simp only [Stmt.execute, map_bind, map_pure, Progress.course]
    exact (count.eval_alike lasting inCount).bind fun _ =>
      (Alike.ofExcept _).bind fun _ => .pure _
  | _ =>
    simp only [Stmt.execute, map_bind, map_pure, Progress.course]
    exact done

end Statement

/-- The names that occur in what a step comes upon and in what is left then. -/
def Focus.occurrences : Focus → List Occurrence
  | .finished => []
  | .statement stmt frames => stmt.occurrences ++ occurrencesOfFrames frames
  | .iteration _ _ frames => occurrencesOfFrames frames

section Focus

variable {property : ω → Prop} {left right : Scope}

/-- What a step comes upon is part of what was left. -/
theorem focus_occurrences (scope : Scope) (frames : List Frame) :
    (focus scope frames : Eval ω Focus).Ensures fun focused =>
      focused.occurrences ⊆ occurrencesOfFrames frames := by
  induction frames with
  | nil => exact .pure (List.Subset.refl _)
  | cons frame frames ih =>
    have skipped : (focus scope frames : Eval ω Focus).Ensures fun focused =>
        focused.occurrences ⊆ occurrencesOfFrames (frame :: frames) :=
      fun world focused after found =>
        List.Subset.trans (ih world focused after found) (List.subset_append_right _ _)
    match frame with
    | .block [] => exact skipped
    | .block (stmt :: rest) =>
      refine .pure ?_
      simp only [Focus.occurrences, occurrencesOfFrames_cons, Frame.occurrences,
        occurrencesOfStmts, List.append_assoc]
      exact List.Subset.refl _
    | .whileLoop condition body span begun =>
      apply Eval.Ensures.bind
      intro value
      split
      · split
        · exact .throw
        · refine .pure ?_
          simp only [Focus.occurrences, occurrencesOfFrames_cons, Frame.occurrences]
          grind
      · exact skipped
    | .repeatLoop body span 0 begun => exact skipped
    | .repeatLoop body span (remaining + 1) begun =>
      refine .pure ?_
      simp only [Focus.occurrences, occurrencesOfFrames_cons, Frame.occurrences]
      grind

/-- A statement leaves its own parts and what was left after it. -/
theorem Stmt.execute_occurrences (scope : Scope) (stmt : Stmt) (frames : List Frame) :
    (stmt.execute scope frames : Eval ω Progress).Ensures fun progress =>
      occurrencesOfFrames progress.frames ⊆ stmt.occurrences ++ occurrencesOfFrames frames := by
  unfold Stmt.execute
  split
  · rename_i condition consequent alternative span
    refine .bind fun value => .pure ?_
    dsimp only
    -- At most one of the blocks is put on top of what is left.
    split <;> cases alternative <;>
      simp only [occurrencesOfFrames_cons, Frame.occurrences, Stmt.occurrences] <;>
      grind
  · refine .pure ?_
    simp only [occurrencesOfFrames_cons, Frame.occurrences, Stmt.occurrences]
    exact List.Subset.refl _
  · refine .bind fun value => .bind fun number => .pure ?_
    simp only [occurrencesOfFrames_cons, Frame.occurrences, Stmt.occurrences]
    grind
  · exact .bind fun deed => .bind fun environment => .pure (List.subset_append_right _ _)

/-- A step leaves parts of what was left. -/
theorem advance_occurrences (scope : Scope) (frames : List Frame) :
    (advance scope frames : Eval ω (Option Progress)).Ensures fun result =>
      ∀ progress, result = some progress →
        occurrencesOfFrames progress.frames ⊆ occurrencesOfFrames frames := by
  rw [advance_eq_focus]
  refine .bind_of (focus_occurrences scope frames) fun focused part => ?_
  cases focused with
  | finished => exact .pure fun progress absurd => nomatch absurd
  | iteration span number rest =>
    refine .pure ?_
    rintro progress ⟨⟩
    exact part
  | statement stmt rest =>
    refine .map ?_
    rintro world progress after executed _ ⟨⟩
    exact List.Subset.trans (stmt.execute_occurrences scope rest _ _ _ executed) part

variable (lasting : Lasting property)

include lasting

/-- What is to be done next is looked for alike. -/
theorem focus_alike (frames : List Frame)
    (scopes : Scope.Alike property (occurrencesOfFrames frames) left right) :
    Alike property (focus left frames) (focus right frames) := by
  induction frames with
  | nil => exact .pure _
  | cons frame frames ih =>
    have inFrame := scopes.mono (List.subset_append_left _ _)
    have inRest := scopes.mono (List.subset_append_right _ _)
    match frame with
    | .block [] => exact ih inRest
    | .block (stmt :: rest) => exact .pure _
    | .whileLoop condition body span begun =>
      have inCondition := inFrame.mono (List.subset_append_left _ _)
      apply (condition.eval_alike lasting inCondition).bind
      intro value
      split
      · split
        · exact .throw _
        · exact .pure _
      · exact ih inRest
    | .repeatLoop body span 0 begun => exact ih inRest
    | .repeatLoop body span (remaining + 1) begun => exact .pure _

/-- What a step comes upon takes the same course. -/
theorem Focus.follow_alike (focused : Focus)
    (scopes : Scope.Alike property focused.occurrences left right) :
    Alike property (Option.map Progress.course <$> focused.follow left)
      (Option.map Progress.course <$> focused.follow right) := by
  cases focused with
  | finished => exact .pure _
  | iteration span number frames => exact .pure _
  | statement stmt frames =>
    have executed := stmt.execute_alike lasting frames (scopes.mono (List.subset_append_left _ _))
    have course := executed.map some
    simp only [Functor.map_map] at course
    simp only [Focus.follow, Functor.map_map, Option.map_some]
    exact course

/-- A step takes the same course in scopes that are alike for what is left of the run. -/
theorem advance_alike (frames : List Frame)
    (scopes : Scope.Alike property (occurrencesOfFrames frames) left right) :
    Alike property (Option.map Progress.course <$> advance left frames)
      (Option.map Progress.course <$> advance right frames) := by
  rw [advance_eq_focus, advance_eq_focus, map_bind, map_bind]
  apply (focus_alike lasting frames scopes).bind_of (focus_occurrences left frames)
  intro focused part
  exact focused.follow_alike lasting (scopes.mono part)

/-- In scopes that are alike for what is left of the run, a step differs in the bindings alone. -/
theorem advance_alike_cases {frames : List Frame} {world : ω}
    (scopes : Scope.Alike property (occurrencesOfFrames frames) left right)
    (holds : property world) :
    ∃ environment, advance right frames world =
      match advance left frames world with
      | (.ok (some progress), after) => (.ok (some { progress with environment }), after)
      | (.ok none, after) => (.ok none, after)
      | (.error error, after) => (.error error, after) := by
  have same := (advance_alike lasting frames scopes).same world holds
  rw [Eval.map_apply, Eval.map_apply] at same
  generalize advance left frames world = one at same ⊢
  generalize advance right frames world = two at same ⊢
  rcases one with ⟨error | _ | ⟨point, rest, bindings⟩, after⟩ <;>
    rcases two with ⟨other | _ | ⟨point', rest', bindings'⟩, after'⟩ <;> cases same
  · exact ⟨.empty, rfl⟩
  · exact ⟨.empty, rfl⟩
  · exact ⟨bindings', rfl⟩

end Focus

end Waggle
