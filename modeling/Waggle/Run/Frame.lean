import Waggle.Eval.Expression

/-!
# Steps of a run

What is left of a run is a stack of frames, innermost first: the rest of a block, or a loop
that runs its body again. One step carries out one statement, or enters one iteration of a
loop. A statement with a block only evaluates its header and leaves its block on the stack.

A statement without a block is evaluated to a deed first, and the deed is done only when
nothing can fail any more, so a statement either happens as a whole or not at all.
-/

namespace Waggle

/-- Where a run pauses. -/
inductive SuspendPoint where
  /-- After a statement. -/
  | statement (span : Span)
  /-- Before an iteration of a loop, counted from one. -/
  | iteration (span : Span) (number : Nat)
deriving DecidableEq, Inhabited

/-- A part of a program that is still to be run. -/
inductive Frame where
  /-- The rest of a block. -/
  | block (rest : List Stmt)
  /-- A `while` loop that has begun a number of iterations. -/
  | whileLoop (condition : Expr) (body : List Stmt) (span : Span) (begun : Nat)
  /-- A `repeat` loop with a number of iterations left after those that have begun. -/
  | repeatLoop (body : List Stmt) (span : Span) (remaining begun : Nat)

/-- What a statement without a block comes to. -/
inductive Deed where
  /-- Nothing. -/
  | none
  /-- A binding. -/
  | bind (name : String) (value : Value)
  /-- An effect on the world. -/
  | effect (effect : Effect)
deriving DecidableEq, Inhabited

/-- What one step leaves behind. -/
structure Progress where
  /-- Where the run pauses. -/
  point : SuspendPoint
  /-- What is left of it. -/
  frames : List Frame
  /-- The bindings. -/
  environment : Environment

variable {ω : Type} [World ω]

/-- The deed of a statement; one with a block has none. -/
def Stmt.deed (scope : Scope) : Stmt → Eval ω Deed
  | .assign name value _ => return .bind name.name (← value.eval scope)
  | .evaluate expr _ => do
    let _ ← expr.eval scope
    return .none
  | .move target motion _ => do
    let entity ← evalEntityOrActor scope .moveTarget target
    let delta ← motion.eval scope
    return .effect (.translate entity delta)
  | .moveTo coordinates _ => do
    let entity ← scope.actorEntity
    let numbers ← evalInts scope "'moveto' coordinate" coordinates
    return .effect (.setPosition entity (.ofCoordinates numbers))
  | .attack attacker target _ => do
    let attacker ← evalEntityOrActor scope .attacker attacker
    let target ← target.evalEntity scope .attackTarget
    return .effect (.reportAttack attacker target)
  | .branch .. | .whileLoop .. | .repeatLoop .. => return .none

/-- Does a deed and returns the bindings after it. -/
def Deed.perform (environment : Environment) : Deed → Eval ω Environment
  | .none => return environment
  | .bind name value => return environment.insert name value
  | .effect change => do
    act change
    return environment

/-- The number of repetitions that a value stands for. -/
def Value.repeatCount : Value → Except RuntimeError Nat
  | .int number =>
    if number < 0 then .error (.negativeRepeatCount number) else .ok number.toInt.toNat
  | value => .error (.typeMismatch (.argument "'repeat' count" "int" value))

/-- Carries out a statement before what is left of a run. -/
def Stmt.execute (scope : Scope) (stmt : Stmt) (frames : List Frame) : Eval ω Progress :=
  match stmt with
  | .branch condition consequent alternative span => do
    let value ← condition.eval scope
    let frames :=
      if value.truthy then .block consequent.stmts :: frames
      else
        match alternative with
        | some block => .block block.stmts :: frames
        | none => frames
    return ⟨.statement span, frames, scope.environment⟩
  | .whileLoop condition body span =>
    return ⟨.statement span, .whileLoop condition body.stmts span 0 :: frames,
      scope.environment⟩
  | .repeatLoop count body span => do
    let value ← count.eval scope
    let number ← Eval.ofExcept value.repeatCount
    return ⟨.statement span, .repeatLoop body.stmts span number 0 :: frames,
      scope.environment⟩
  | simple => do
    let deed ← simple.deed scope
    let environment ← deed.perform scope.environment
    return ⟨.statement simple.span, frames, environment⟩

/-- Takes one step, or none if nothing is left; frames that have ended are passed over. -/
def advance (scope : Scope) : List Frame → Eval ω (Option Progress)
  | [] => return none
  | .block [] :: frames => advance scope frames
  | .block (stmt :: rest) :: frames => some <$> stmt.execute scope (.block rest :: frames)
  | .whileLoop condition body span begun :: frames => do
    let value ← condition.eval scope
    if value.truthy then
      if maxIterations ≤ begun then
        throw .infiniteLoopGuardTripped
      else
        return some ⟨.iteration span (begun + 1),
          .block body :: .whileLoop condition body span (begun + 1) :: frames,
          scope.environment⟩
    else
      advance scope frames
  | .repeatLoop _ _ 0 _ :: frames => advance scope frames
  | .repeatLoop body span (remaining + 1) begun :: frames =>
    return some ⟨.iteration span (begun + 1),
      .block body :: .repeatLoop body span remaining (begun + 1) :: frames,
      scope.environment⟩

end Waggle
