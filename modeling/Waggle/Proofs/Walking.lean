import Waggle.Proofs.Concatenation
import Waggle.Proofs.Layout
import Waggle.Proofs.Refinement
import Waggle.Proofs.Seeding

/-!
# Walking until the way is blocked

The script that steps in a direction as long as the next cell is open, from its text to what it does
in a grid world. It is read as one loop, and the loop keeps `Grid.Walked`: after a number of rounds
the actor has taken as many steps, each of them was told, and nothing else has changed. So it stops
in front of the first closed cell on the way, or when the loop has used up its rounds
(`Interpreter.run_walkScript`).

At the end of the range of the integers a step leads nowhere, and the next cell is the one that the
actor stands on.
-/

namespace Waggle

open Structural

/-- The script that walks in a direction until the way is blocked. -/
def walkScript (heading : Direction) : String :=
  "while (isPathBlocked(" ++ heading.word ++ ") == false) \x7b move(" ++ heading.word ++ "); \x7d"

/-- Where a number of steps in a direction lead. -/
def Vec3.walk (start : Vec3) (heading : Direction) : Nat → Vec3
  | 0 => start
  | count + 1 => (start.walk heading count).offset heading.unit

/-! ### Reading -/

/-- What the loop goes on for. -/
def walkCondition (heading : Direction) : Expr :=
  .binary .equal
    (.call ⟨"isPathBlocked", .blank⟩ [.literal (.direction heading) .blank] .blank)
    (.literal (.bool false) .blank) .blank

/-- What the loop does in each round. -/
def walkStep (heading : Direction) : Stmt := .move none (.step heading) .blank

/-- The script as a program, which stands nowhere. -/
def walkProgram (heading : Direction) : Program :=
  ⟨[.whileLoop (walkCondition heading) ⟨[walkStep heading], .blank⟩ .blank], .blank⟩

/-- The kinds of the tokens of the script. -/
def walkKinds (heading : Direction) : List TokenKind :=
  [.keyword .whileWord, .symbol .leftParen, .identifier "isPathBlocked", .symbol .leftParen,
    .keyword (.direction heading), .symbol .rightParen, .symbol .equal, .keyword (.truth false),
    .symbol .rightParen, .symbol .leftBrace, .keyword .move, .symbol .leftParen,
    .keyword (.direction heading), .symbol .rightParen, .symbol .semicolon, .symbol .rightBrace,
    .endOfInput]

/-- The script is cut into tokens of these kinds. -/
theorem kinds_walkScript (heading : Direction) :
    (tokensOf .first (walkScript heading).toList).map Token.kind = walkKinds heading := by
  cases heading <;> decide +kernel

/-- Nothing in the script is a lexical error. -/
theorem clean_walkScript (heading : Direction) :
    ∀ lexeme ∈ lexemes (walkScript heading).toList, lexeme.error? = none := by
  have clean : (lexemes (walkScript heading).toList).all
      (fun lexeme => lexeme.error?.isNone) = true := by
    cases heading <;> decide +kernel
  exact fun lexeme member => Option.isNone_iff_eq_none.mp (List.all_eq_true.mp clean lexeme member)

/-- The script is read as the program, whatever its name is. -/
theorem SourceFile.compile_walkScript {file : SourceFile} {heading : Direction}
    (written : file.text = walkScript heading) :
    ∃ program, file.compile = .ok program ∧ program.bare = walkProgram heading := by
  let nowhere := (walkKinds heading).map fun kind => Token.mk kind "" .blank
  have kinds : (tokensOf .first file.text.toList).map Token.kind = nowhere.map Token.kind := by
    rw [written, kinds_walkScript]
    rfl
  have read : parseBare (tokensOf .first file.text.toList) = .ok (walkProgram heading) :=
    (parseBare_congr kinds).trans rfl
  obtain ⟨program, parsed, erased⟩ := file.parse_of_parseBare_ok read
  refine ⟨program, (file.compile_eq_ok_iff program).mpr ⟨?_, ?_⟩, erased⟩
  · rw [written]
    exact clean_walkScript heading
  · exact (parse_eq_ok_iff file _ program).mp parsed

/-! ### Steps -/

namespace Grid

/-- What a number of steps of an entity in a direction have made of a world. -/
structure Walked (before : Grid) (entity : EntityRef) (heading : Direction) (start : Vec3)
    (count : Nat) (after : Grid) : Prop where
  /-- The entity stands where the steps lead. -/
  stands : after.position? entity = some (start.walk heading count)
  /-- Each step was told, and nothing else. -/
  events : after.events.toList = before.events.toList ++ (List.range count).map fun index =>
    .translated entity heading.unit (start.walk heading (index + 1))
  /-- Every other entity is as it was. -/
  others : ∀ other, other ≠ entity → after.entity? other = before.entity? other
  /-- The same cells are closed. -/
  walls : after.walls = before.walls
  /-- Every entity still has its number, its name and its side. -/
  identities : after.identities = before.identities

variable {before after : Grid} {entity : EntityRef} {heading : Direction} {start : Vec3}
  {count : Nat}

/-- Without a step nothing has changed. -/
theorem Walked.zero (stands : before.position? entity = some start) :
    before.Walked entity heading start 0 before :=
  ⟨stands, (List.append_nil _).symm, fun _ _ => rfl, rfl, rfl⟩

/-- One more step is one more step. -/
theorem Walked.step (walked : before.Walked entity heading start count after) :
    before.Walked entity heading start (count + 1) (after.translate entity heading.unit) := by
  let next := start.walk heading (count + 1)
  let change : GridEntity → GridEntity := fun found => { found with position := next }
  obtain ⟨news, explained⟩ := explains_act (.translate entity heading.unit) after
  have moved : after.translate entity heading.unit =
      (after.update entity change).log (.translated entity heading.unit next) := by
    unfold translate
    rw [walked.stands]
    rfl
  constructor
  · obtain ⟨found, known, -⟩ := Option.map_eq_some_iff.mp walked.stands
    rw [moved]
    change ((after.update entity change).entity? entity).map GridEntity.position = _
    rw [entity?_update_self, known]
    rfl
  · rw [moved, log, Array.toList_push, events_update, walked.events, List.range_succ,
      List.map_append, List.append_assoc]
    rfl
  · intro other different
    rw [moved]
    change (after.update entity change).entity? other = _
    rw [entity?_update_of_ne after entity change different, walked.others other different]
  · exact explained.walls.trans walked.walls
  · exact explained.identities.trans walked.identities

/-- The same cells are closed on the way. -/
theorem Walked.isWall (walked : before.Walked entity heading start count after) (cell : Vec3) :
    after.isWall cell = before.isWall cell := by
  rw [Grid.isWall, Grid.isWall, walked.walls]

/-- The entity is still known by its name. -/
theorem Walked.resolve (walked : before.Walked entity heading start count after) (name : String) :
    after.resolve name = before.resolve name := by
  rw [resolve_eq, resolve_eq, walked.identities]

/-- How many steps have been taken when the next cell is closed or no more are allowed. -/
def stepsTaken (grid : Grid) (heading : Direction) (start : Vec3) : (allowed begun : Nat) → Nat
  | 0, begun => begun
  | allowed + 1, begun =>
    if grid.isWall (start.walk heading (begun + 1)) then begun
    else grid.stepsTaken heading start allowed (begun + 1)

/-- The steps are no more than allowed. All the cells on their way were open, and so is the next one
only if all the steps that were allowed have been taken. -/
theorem stepsTaken_spec (grid : Grid) (heading : Direction) (start : Vec3) (allowed begun : Nat) :
    let count := grid.stepsTaken heading start allowed begun
    begun ≤ count ∧ count ≤ begun + allowed ∧
      (∀ index, begun ≤ index → index < count →
        grid.isWall (start.walk heading (index + 1)) = false) ∧
      (grid.isWall (start.walk heading (count + 1)) = false → count = begun + allowed) := by
  induction allowed generalizing begun with
  | zero =>
    exact ⟨Nat.le_refl _, Nat.le_refl _, fun _ late early => absurd early (Nat.not_lt.mpr late),
      fun _ => rfl⟩
  | succ allowed ih =>
    rw [stepsTaken]
    split
    · rename_i closed
      refine ⟨Nat.le_refl _, Nat.le_add_right _ _,
        fun _ late early => absurd early (Nat.not_lt.mpr late), fun isOpen => ?_⟩
      rw [closed] at isOpen
      cases isOpen
    · rename_i isOpen
      obtain ⟨late, few, way, spent⟩ := ih (begun + 1)
      have round : begun + 1 + allowed = begun + (allowed + 1) := by omega
      rw [round] at few spent
      refine ⟨Nat.le_of_lt late, few, fun index before below => ?_, spent⟩
      rcases Nat.eq_or_lt_of_le before with rfl | further
      · exact Bool.eq_false_iff.mpr isOpen
      · exact way index further below

end Grid

/-! ### Running -/

/-- What a computation comes to without a change of the world is what is consulted. -/
theorem consult_of_eq {α : Type} {computation : Scope → Eval Grid α} {environment : Environment}
    {actor : String} {world : Grid} {result : Except RuntimeError α}
    (ran : computation ⟨environment, actor⟩ world = (result, world)) (points : List SuspendPoint) :
    consult actor computation ⟨environment, points, world⟩ =
      (result, ⟨environment, points, world⟩) := by
  unfold consult
  dsimp only
  rw [ran]

section Running

variable {environment : Environment} {actor : String} {world : Grid} {entity : EntityRef}
  (unbound : environment.get? actor = none) (known : world.resolve actor = some entity)
include unbound known

/-- The actor is the entity that the world knows by its name, if the name is unbound. -/
theorem Scope.actorEntity_apply :
    (actorEntity ⟨environment, actor⟩ : Eval Grid EntityRef) world = (.ok entity, world) := by
  have found : (find? ⟨environment, actor⟩ actor : Eval Grid (Option Value)) world =
      (.ok (some (.entity entity)), world) := by
    unfold find?
    rw [unbound]
    change (Except.ok ((world.resolve actor).map Value.entity), world) = _
    rw [known]
    rfl
  rw [actorEntity, Eval.bind_apply, found]
  rfl

/-- The loop goes on as long as the next cell is open. -/
theorem walkCondition_apply {heading : Direction} {position : Vec3}
    (stands : world.position? entity = some position) :
    ((walkCondition heading).eval ⟨environment, actor⟩ : Eval Grid Value) world =
      (.ok (.bool !world.isWall (position.offset heading.unit)), world) := by
  have blocked : (Builtin.isPathBlocked.call ⟨environment, actor⟩ [.direction heading] :
      Eval Grid Value) world =
      (.ok (.bool (world.isWall (position.offset heading.unit))), world) := by
    rw [Builtin.call, Eval.bind_apply, Scope.actorEntity_apply unbound known]
    change (Except.ok (Value.bool (world.pathBlocked entity heading)), world) = _
    rw [Grid.pathBlocked, stands]
  have called : (Expr.eval ⟨environment, actor⟩
      (.call ⟨"isPathBlocked", .blank⟩ [.literal (.direction heading) .blank] .blank) :
      Eval Grid Value) = Builtin.isPathBlocked.call ⟨environment, actor⟩ [.direction heading] := by
    simp only [Expr.eval, evalAll]
    rfl
  rw [walkCondition, Expr.eval, Eval.bind_apply, called, blocked, Expr.eval]
  cases world.isWall (position.offset heading.unit) <;> rfl

/-- A round is a step. -/
theorem carryOut_walkStep (heading : Direction) (points : List SuspendPoint) :
    carryOutAll actor [walkStep heading] ⟨environment, points, world⟩ =
      (.ok (), ⟨environment, points ++ [.statement .blank],
        world.translate entity heading.unit⟩) := by
  have acting : consult actor (fun scope => evalEntityOrActor scope .moveTarget none)
      ⟨environment, points, world⟩ = (.ok entity, ⟨environment, points, world⟩) :=
    consult_of_eq (Scope.actorEntity_apply unbound known) points
  simp only [carryOutAll, walkStep, Stmt.carryOut, bind_assoc]
  rw [Eval.bind_apply, acting]
  rfl

omit known in
/-- The loop goes on as long as the next cell on the way is open. -/
theorem consult_walkCondition {before : Grid} {heading : Direction} {start : Vec3} {count : Nat}
    (known : before.resolve actor = some entity)
    (walked : before.Walked entity heading start count world) (points : List SuspendPoint) :
    consult actor (fun scope => (walkCondition heading).eval scope)
        ⟨environment, points, world⟩ =
      (.ok (.bool !before.isWall (start.walk heading (count + 1))),
        ⟨environment, points, world⟩) := by
  have known' := (walked.resolve actor).trans known
  apply consult_of_eq
  rw [walkCondition_apply unbound known' walked.stands, walked.isWall, Vec3.walk]

omit known in
/-- The loop takes the steps that it can, and fails if the next cell is still open then. -/
theorem whileHolds_walk {before : Grid} {heading : Direction} {start : Vec3} {begun : Nat}
    (known : before.resolve actor = some entity)
    (walked : before.Walked entity heading start begun world) (points : List SuspendPoint)
    (allowed : Nat) :
    let count := before.stepsTaken heading start allowed begun
    ∃ points' after,
      whileHolds .blank (consult actor fun scope => (walkCondition heading).eval scope)
        (carryOutAll actor [walkStep heading]) allowed begun ⟨environment, points, world⟩ =
      (if before.isWall (start.walk heading (count + 1)) then .ok ()
        else .error .infiniteLoopGuardTripped, ⟨environment, points', after⟩) ∧
      before.Walked entity heading start count after := by
  -- The induction is on the rounds that are left; each begins with the steps of those before it.
  induction allowed generalizing begun world points with
  | zero =>
    refine ⟨points, world, ?_, walked⟩
    rw [whileHolds, Eval.bind_apply, consult_walkCondition unbound known walked, Grid.stepsTaken]
    cases before.isWall (start.walk heading (begun + 1)) <;> rfl
  | succ allowed ih =>
    rw [whileHolds, Eval.bind_apply, consult_walkCondition unbound known walked, Grid.stepsTaken]
    cases closed : before.isWall (start.walk heading (begun + 1)) with
    | true =>
      refine ⟨points, world, ?_, walked⟩
      rw [if_pos rfl, if_pos closed]
      rfl
    | false =>
      have known' := (walked.resolve actor).trans known
      have stepped := carryOut_walkStep unbound known' heading
        (points ++ [.iteration .blank (begun + 1)])
      obtain ⟨points', after, ran, walked'⟩ := ih walked.step
        (points ++ [.iteration .blank (begun + 1)] ++ [.statement .blank])
      have passed : pass (.iteration .blank (begun + 1)) ⟨environment, points, world⟩ =
        (.ok (), ⟨environment, points ++ [.iteration .blank (begun + 1)], world⟩) := rfl
      refine ⟨points', after, ?_, walked'⟩
      simp only [Bool.not_false, Value.truthy, if_true, Bool.false_eq_true, if_false]
      rw [Eval.bind_apply, passed]
      dsimp only
      rw [Eval.bind_apply, stepped]
      exact ran

end Running

/-- What the program does in a world where the actor is known by an unbound name: it takes the steps
that it can, up to a thousand, and is aborted if the next cell is still open then. -/
theorem Interpreter.interpret_walkProgram (host : Interpreter Grid) (heading : Direction)
    {entity : EntityRef} {start : Vec3}
    (known : host.world.resolve host.config.actorBinding = some entity)
    (stands : host.world.position? entity = some start)
    (unbound : host.environment.get? host.config.actorBinding = none) :
    let count := host.world.stepsTaken heading start 1000 0
    (host.interpret (walkProgram heading)).1 =
      (if host.world.isWall (start.walk heading (count + 1)) then .completed
        else .ofError .infiniteLoopGuardTripped) ∧
    host.world.Walked entity heading start count
      (host.interpret (walkProgram heading)).2.world ∧
    (host.interpret (walkProgram heading)).2.environment = host.environment := by
  intro count
  obtain ⟨points, after, ran, walked⟩ :=
    whileHolds_walk unbound known (.zero stands) [.statement .blank] 1000
  have carried : carryOutAll host.config.actorBinding (walkProgram heading).stmts
      ⟨host.environment, [], host.world⟩ =
      (if host.world.isWall (start.walk heading (count + 1)) then .ok ()
        else .error .infiniteLoopGuardTripped, ⟨host.environment, points, after⟩) := by
    rw [← ran]
    simp only [walkProgram, carryOutAll, Stmt.carryOut, bind_pure_unit]
    rfl
  rw [interpret_eq, Program.meaning, carried]
  refine ⟨?_, ?_, conclude_environment _ _⟩
  · cases host.world.isWall (start.walk heading (count + 1)) <;> rfl
  · dsimp only [Situation.leave]
    rw [conclude_world]
    exact walked

/-- The script stops at a closed cell or at the guard. Run in a grid world where its actor is known
by an unbound name, it completes in front of the first closed cell on its way, if it takes no more
than a thousand steps to come there; otherwise it is aborted after a thousand. The actor then stands
where the steps lead and each of them was told; every other entity, the walls and the bindings are
as they were. -/
theorem Interpreter.run_walkScript (host : Interpreter Grid) (file : SourceFile)
    (heading : Direction) {entity : EntityRef} {start : Vec3}
    (written : file.text = walkScript heading)
    (known : host.world.resolve host.config.actorBinding = some entity)
    (stands : host.world.position? entity = some start)
    (unbound : host.environment.get? host.config.actorBinding = none) :
    let closed := fun index => host.world.isWall (start.walk heading (index + 1)) = true
    (∀ count ≤ 1000, closed count → (∀ index < count, ¬closed index) →
      (host.run file).1 = .completed ∧
        host.world.Walked entity heading start count (host.run file).2.world) ∧
    ((∀ index ≤ 1000, ¬closed index) →
      (host.run file).1 = .ofError .infiniteLoopGuardTripped ∧
        host.world.Walked entity heading start 1000 (host.run file).2.world) ∧
    (host.run file).2.environment = host.environment := by
  intro closed
  obtain ⟨program, read, erased⟩ := SourceFile.compile_walkScript written
  have alike : host.RunsAlike program (walkProgram heading) := host.runsAlike_of_bare_eq erased
  have meant := host.interpret_walkProgram heading known stands unbound
  obtain ⟨-, few, way, spent⟩ := host.world.stepsTaken_spec heading start 1000 0
  generalize host.world.stepsTaken heading start 1000 0 = taken at meant few way spent
  obtain ⟨ended, walked, kept⟩ := meant
  have ran : host.run file = host.interpret (walkProgram heading) := by
    rw [run, read]
    exact alike.ending
  rw [ran]
  refine ⟨fun count close blocked first => ?_, fun clear => ?_, kept⟩
  · -- Steps before a closed cell are all taken, and none leads into one.
    have arrived : taken = count := by
      rcases Nat.lt_trichotomy taken count with early | same | late
      · have isOpen := Bool.eq_false_iff.mpr (first taken early)
        have := spent isOpen
        omega
      · exact same
      · exact absurd blocked (Bool.eq_false_iff.mp (way count (Nat.zero_le _) late))
    subst arrived
    exact ⟨ended.trans (if_pos blocked), walked⟩
  · have isOpen := clear taken (by omega)
    have all : taken = 1000 := by
      have := spent (Bool.eq_false_iff.mpr isOpen)
      omega
    subst all
    exact ⟨ended.trans (if_neg isOpen), walked⟩

/-- A walk to the east takes one step to a closed cell two steps off, and all the steps that it may
where no cell is closed. -/
theorem Interpreter.run_walkScript_east :
    let file : SourceFile :=
      ⟨"walk.bee", "while (isPathBlocked(east) == false) \x7b move(east); \x7d"⟩
    let free : Grid := (Grid.empty.spawn "Player" .zero false).2
    let closing : Interpreter Grid := { world := free.addWall ⟨2, 0, 0⟩ }
    let opening : Interpreter Grid := { world := free }
    ((closing.run file).1 = .completed ∧
      (closing.run file).2.world.position? ⟨1⟩ = some ⟨1, 0, 0⟩ ∧
      (closing.run file).2.world.events.toList = [.translated ⟨1⟩ ⟨1, 0, 0⟩ ⟨1, 0, 0⟩]) ∧
    (opening.run file).1 = .ofError .infiniteLoopGuardTripped ∧
      (opening.run file).2.world.events.toList.length = 1000 := by
  intro file free closing opening
  have known : free.resolve "Player" = some ⟨1⟩ := by decide
  have stands : free.position? ⟨1⟩ = some .zero := by decide
  constructor
  · obtain ⟨completes, -⟩ := closing.run_walkScript file .east rfl known stands rfl
    obtain ⟨completed, walked⟩ := completes 1 (by decide) (by decide) (by decide)
    exact ⟨completed, walked.stands, walked.events⟩
  · obtain ⟨-, trips, -⟩ := opening.run_walkScript file .east rfl known stands rfl
    obtain ⟨tripped, walked⟩ := trips fun _ _ => Bool.false_ne_true
    refine ⟨tripped, ?_⟩
    rw [walked.events, List.length_append, List.length_map, List.length_range]
    rfl

end Waggle
