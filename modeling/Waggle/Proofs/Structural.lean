import Waggle.Run.Complete
import Waggle.World.Recorded

/-!
# The structural meaning of programs

What a program does, told by recursion on its tree alone: a block carries out its statements in
order and stops at the first failure, a branch carries out one of its blocks, and a loop carries
out its body again and again before anything after it begins. There is no stack and nothing is
suspended; a point where a run would pause is only noted on the way.

The expressions of a statement are evaluated by `Expr.eval`, which is structural already.
-/

namespace Waggle

/-- Where a structural run stands. -/
structure Situation (ω : Type) where
  /-- The bindings. -/
  environment : Environment
  /-- The points passed so far, oldest first. -/
  points : List SuspendPoint
  /-- The world. -/
  world : ω

namespace Structural

variable {ω α : Type}

/-- Computes in the present bindings; nothing but the world can change. -/
def consult (actor : String) (computation : Scope → Eval ω α) : Eval (Situation ω) α :=
  fun situation =>
    let (result, world) := computation ⟨situation.environment, actor⟩ situation.world
    (result, { situation with world })

/-- Notes a point. -/
def pass (point : SuspendPoint) : Eval (Situation ω) Unit :=
  fun situation => (.ok (), { situation with points := situation.points ++ [point] })

/-- Binds a name. -/
def bindName (name : String) (value : Value) : Eval (Situation ω) Unit :=
  fun situation =>
    (.ok (), { situation with environment := situation.environment.insert name value })

/-- Lets an effect happen. -/
def affect [World ω] (effect : Effect) : Eval (Situation ω) Unit :=
  fun situation => (.ok (), { situation with world := World.act effect situation.world })

/-- Carries out a body while a condition holds, at most `allowed` times after the `begun`
iterations before, and fails if the condition holds once more. -/
def whileHolds (span : Span) (condition : Eval (Situation ω) Value)
    (body : Eval (Situation ω) Unit) : (allowed begun : Nat) → Eval (Situation ω) Unit
  | 0, _ => do
    let value ← condition
    if value.truthy then throw .infiniteLoopGuardTripped else return
  | allowed + 1, begun => do
    let value ← condition
    if value.truthy then
      pass (.iteration span (begun + 1))
      body
      whileHolds span condition body allowed (begun + 1)
    else
      return

/-- Carries out a body a number of times after the `begun` iterations before. -/
def times (span : Span) (body : Eval (Situation ω) Unit) :
    (count begun : Nat) → Eval (Situation ω) Unit
  | 0, _ => return
  | count + 1, begun => do
    pass (.iteration span (begun + 1))
    body
    times span body count (begun + 1)

end Structural

open Structural

variable {ω : Type} [World ω]

mutual

/-- Carries out a statement. -/
def Stmt.carryOut (actor : String) : Stmt → Eval (Situation ω) Unit
  | .assign name value span => do
    let result ← consult actor fun scope => value.eval scope
    bindName name.name result
    pass (.statement span)
  | .evaluate expr span => do
    let _ ← consult actor fun scope => expr.eval scope
    pass (.statement span)
  | .move target motion span => do
    let entity ← consult actor fun scope => evalEntityOrActor scope .moveTarget target
    let delta ← consult actor fun scope => motion.eval scope
    affect (.translate entity delta)
    pass (.statement span)
  | .moveTo coordinates span => do
    let entity ← consult actor Scope.actorEntity
    let numbers ← consult actor fun scope => evalInts scope "'moveto' coordinate" coordinates
    affect (.setPosition entity (.ofCoordinates numbers))
    pass (.statement span)
  | .attack attacker target span => do
    let first ← consult actor fun scope => evalEntityOrActor scope .attacker attacker
    let second ← consult actor fun scope => target.evalEntity scope .attackTarget
    affect (.reportAttack first second)
    pass (.statement span)
  | .branch condition consequent none span => do
    let value ← consult actor fun scope => condition.eval scope
    pass (.statement span)
    if value.truthy then carryOutAll actor consequent.stmts else return
  | .branch condition consequent (some alternative) span => do
    let value ← consult actor fun scope => condition.eval scope
    pass (.statement span)
    if value.truthy then carryOutAll actor consequent.stmts
    else carryOutAll actor alternative.stmts
  | .whileLoop condition body span => do
    pass (.statement span)
    whileHolds span (consult actor fun scope => condition.eval scope)
      (carryOutAll actor body.stmts) 1000 0
  | .repeatLoop count body span => do
    match ← consult actor fun scope => count.eval scope with
    | .int number =>
      if number < 0 then throw (.negativeRepeatCount number)
      else
        pass (.statement span)
        times span (carryOutAll actor body.stmts) number.toInt.toNat 0
    | value => throw (.typeMismatch (.argument "'repeat' count" "int" value))

/-- Carries out statements in order. -/
def carryOutAll (actor : String) : List Stmt → Eval (Situation ω) Unit
  | [] => return
  | stmt :: rest => do
    stmt.carryOut actor
    carryOutAll actor rest

end

/-- How a run ends that comes to a result. -/
def RunOutcome.ofResult : Except RuntimeError Unit → RunOutcome
  | .ok () => .completed
  | .error error => .ofError error

/-- What a program comes to from the present state of an interpreter: how it ends, and where it
stands then. -/
def Program.meaning (program : Program) (host : Interpreter ω) : RunOutcome × Situation ω :=
  let (result, final) := carryOutAll host.config.actorBinding program.stmts
    ⟨host.environment, [], host.world⟩
  (.ofResult result, final)

end Waggle
