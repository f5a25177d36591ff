import Waggle.Environment
import Waggle.Eval.Basic
import Waggle.Eval.Operator

/-!
# Evaluation

An expression is evaluated in a scope over a world, its parts from left to right, and stops at
the first failure. A name is looked up among the bindings first and then in the world. The
world keeps what happened in it when an evaluation fails.
-/

namespace Waggle

/-- What names mean during a statement. -/
structure Scope where
  /-- The bindings. -/
  environment : Environment
  /-- The name of the actor. -/
  actor : String

/-- The functions that scripts can call. -/
inductive Builtin where
  | isPathBlocked
  | getNumEnemies
  | getNumEntities
deriving DecidableEq, Inhabited

namespace Builtin

/-- Every function. -/
def all : List Builtin := [.isPathBlocked, .getNumEnemies, .getNumEntities]

/-- The name of a function. -/
def name : Builtin → String
  | .isPathBlocked => "isPathBlocked"
  | .getNumEnemies => "getNumEnemies"
  | .getNumEntities => "getNumEntities"

/-- How many arguments a function takes. -/
def arity : Builtin → Nat
  | .isPathBlocked => 1
  | .getNumEnemies | .getNumEntities => 0

/-- The function of a name that takes a number of arguments. -/
def find (name : String) (count : Nat) : Except RuntimeError Builtin :=
  match all.find? fun builtin => builtin.name = name with
  | none => .error (.unknownFunction name)
  | some builtin =>
    if count = builtin.arity then .ok builtin
    else .error (.invalidArgumentCount name builtin.arity count)

end Builtin

/-- A value as an entity for a role. -/
def Value.expectEntity (role : Role) (value : Value) : Except RuntimeError EntityRef :=
  match value.asEntity? with
  | some handle => .ok handle
  | none => .error (.invalidTarget (.notEntity role value))

variable {ω : Type} [World ω]

namespace Scope

/-- What a name is bound to, or the entity that the world knows by it. -/
def find? (scope : Scope) (name : String) : Eval ω (Option Value) :=
  match scope.environment.get? name with
  | some value => return some value
  | none => return (← ask (.resolve name)).map .entity

/-- The value of a name. -/
def lookup (scope : Scope) (name : String) : Eval ω Value := do
  match ← scope.find? name with
  | some value => return value
  | none => throw (.undefinedVariable name)

/-- The entity that acts where a script names none. -/
def actorEntity (scope : Scope) : Eval ω EntityRef := do
  match ← scope.find? scope.actor with
  | some value => Eval.ofExcept (value.expectEntity (.actor scope.actor))
  | none => throw (.invalidTarget (.unbound scope.actor))

end Scope

/-- The value of a function at its arguments. -/
def Builtin.call (scope : Scope) : Builtin → List Value → Eval ω Value
  | .isPathBlocked, [.direction direction] => do
    let entity ← scope.actorEntity
    return .bool (← ask (.pathBlocked entity direction))
  | .isPathBlocked, [value] =>
    throw (.typeMismatch (.argument "'isPathBlocked'" "a direction argument" value))
  | .getNumEnemies, [] => return .int (← ask (.entityCount .enemies))
  | .getNumEntities, [] => return .int (← ask (.entityCount .all))
  | builtin, values =>
    throw (.invalidArgumentCount builtin.name builtin.arity values.length)

mutual

/-- The value of an expression. -/
def Expr.eval (scope : Scope) : Expr → Eval ω Value
  | .literal value _ => return value
  | .reference name _ => scope.lookup name
  | .binary op left right _ => do
    let first ← left.eval scope
    let second ← right.eval scope
    Eval.ofExcept (op.apply first second)
  | .negate operand _ => do
    let value ← operand.eval scope
    Eval.ofExcept value.negate
  | .call callee arguments _ => do
    let builtin ← Eval.ofExcept (Builtin.find callee.name arguments.length)
    let values ← evalAll scope arguments
    builtin.call scope values

/-- The values of expressions in order. -/
def evalAll (scope : Scope) : List Expr → Eval ω (List Value)
  | [] => return []
  | expr :: rest => do
    let value ← expr.eval scope
    let values ← evalAll scope rest
    return value :: values

end

/-- The integers of expressions in order, each checked before the next is evaluated. -/
def evalInts (scope : Scope) (context : String) : List Expr → Eval ω (List Int64)
  | [] => return []
  | expr :: rest => do
    match ← expr.eval scope with
    | .int number => return number :: (← evalInts scope context rest)
    | value => throw (.typeMismatch (.argument context "int" value))

/-- The entity that an expression is. -/
def Expr.evalEntity (scope : Scope) (role : Role) (expr : Expr) : Eval ω EntityRef := do
  let value ← expr.eval scope
  Eval.ofExcept (value.expectEntity role)

/-- The entity that an expression is, or the actor where there is none. -/
def evalEntityOrActor (scope : Scope) (role : Role) : Option Expr → Eval ω EntityRef
  | some expr => expr.evalEntity scope role
  | none => scope.actorEntity

/-- How far a motion goes: a single coordinate may also be a direction. -/
def Motion.eval (scope : Scope) : Motion → Eval ω Vec3
  | .step direction => ask (.directionVector direction)
  | .offset [single] => do
    match ← single.eval scope with
    | .direction direction => ask (.directionVector direction)
    | .int number => return ⟨number, 0, 0⟩
    | value =>
      throw (.typeMismatch (.argument "'move'" "a direction or int coordinates" value))
  | .offset coordinates => return .ofCoordinates (← evalInts scope "'move' coordinate" coordinates)

end Waggle
