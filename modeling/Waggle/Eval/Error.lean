import Waggle.Diagnostic
import Waggle.Syntax.Basic

/-!
# Failures of a run

Every way in which carrying out a statement can fail, with what the message needs. A host may
raise a failure that it describes in its own words.
-/

namespace Waggle

/-- How often the body of one `while` may run. -/
def maxIterations : Nat := 1000

/-- What a failed operation was. -/
inductive Operator where
  | binary (op : BinaryOp)
  | negation
deriving DecidableEq, Inhabited

/-- How an operator is written. -/
def Operator.symbol : Operator → String
  | .binary op => op.symbol
  | .negation => "-"

/-- Values of the wrong type. -/
inductive Mismatch where
  /-- An operator between values that it does not take. -/
  | binary (op : BinaryOp) (left right : Value)
  /-- The sign before a value that has none. -/
  | unary (operand : Value)
  /-- A place for one type that holds a value of another. -/
  | argument (context expected : String) (found : Value)
  /-- A mismatch in the words of the host. -/
  | described (text : String)
deriving DecidableEq, Inhabited

/-- A mismatch for a reader. -/
def Mismatch.message : Mismatch → String
  | .binary op left right =>
    "cannot apply '" ++ op.symbol ++ "' to " ++ left.typeName ++ " and " ++ right.typeName
  | .unary operand => "cannot apply unary '-' to " ++ operand.typeName
  | .argument context expected found =>
    context ++ " expects " ++ expected ++ ", got " ++ found.typeName
  | .described text => text

/-- What an entity is wanted for. -/
inductive Role where
  | moveTarget
  | attacker
  | attackTarget
  /-- The actor, under the name it is bound to. -/
  | actor (name : String)
deriving DecidableEq, Inhabited

/-- A role as messages name it. -/
def Role.phrase : Role → String
  | .moveTarget => "move target"
  | .attacker => "attacker"
  | .attackTarget => "attack target"
  | .actor name => "'" ++ name ++ "'"

/-- A lack of an entity where one is wanted. -/
inductive TargetFault where
  /-- The actor's name is bound to nothing. -/
  | unbound (name : String)
  /-- A value that is no entity. -/
  | notEntity (role : Role) (found : Value)
  /-- A fault in the words of the host. -/
  | described (text : String)
deriving DecidableEq, Inhabited

/-- A fault of a target for a reader. -/
def TargetFault.message : TargetFault → String
  | .unbound name => "'" ++ name ++ "' is not bound to an entity"
  | .notEntity role found =>
    role.phrase ++ " is not an entity (found " ++ found.typeName ++ ")"
  | .described text => text

/-- Why a run fails. -/
inductive RuntimeError where
  /-- A name that neither the script nor the world knows. -/
  | undefinedVariable (name : String)
  /-- Values of the wrong type. -/
  | typeMismatch (mismatch : Mismatch)
  /-- A division by zero. -/
  | divisionByZero
  /-- A result that is no script integer. -/
  | arithmeticOverflow (operator : Operator)
  /-- A call of a function that does not exist. -/
  | unknownFunction (name : String)
  /-- A call with more or fewer arguments than the function takes. -/
  | invalidArgumentCount (name : String) (expected found : Nat)
  /-- No entity where one is wanted. -/
  | invalidTarget (fault : TargetFault)
  /-- A negative number of repetitions. -/
  | negativeRepeatCount (count : Int64)
  /-- A loop whose condition still held when it had run as often as it may. -/
  | infiniteLoopGuardTripped
  /-- The host ended the run. -/
  | cancelled
deriving DecidableEq, Inhabited

namespace RuntimeError

/-- The kind of a failure. -/
def kind : RuntimeError → FailureKind
  | .undefinedVariable _ => .undefinedVariable
  | .typeMismatch _ => .typeMismatch
  | .divisionByZero => .divisionByZero
  | .arithmeticOverflow _ => .arithmeticOverflow
  | .unknownFunction _ => .unknownFunction
  | .invalidArgumentCount .. => .invalidArgumentCount
  | .invalidTarget _ => .invalidTarget
  | .negativeRepeatCount _ => .negativeRepeatCount
  | .infiniteLoopGuardTripped => .infiniteLoopGuardTripped
  | .cancelled => .cancelled

/-- A failure for a reader. -/
def message : RuntimeError → String
  | .undefinedVariable name => "undefined variable '" ++ name ++ "'"
  | .typeMismatch mismatch => mismatch.message
  | .divisionByZero => "division by zero"
  | .arithmeticOverflow operator => "integer overflow in '" ++ operator.symbol ++ "'"
  | .unknownFunction name => "unknown function '" ++ name ++ "'"
  | .invalidArgumentCount name expected found =>
    "'" ++ name ++ "' expects " ++ Numeral.ofNat expected ++ " argument(s), got "
      ++ Numeral.ofNat found
  | .invalidTarget fault => fault.message
  | .negativeRepeatCount count =>
    "repeat count must not be negative, got " ++ Numeral.ofInt count.toInt
  | .infiniteLoopGuardTripped =>
    "infinite loop: 'while' ran " ++ Numeral.ofNat maxIterations
      ++ " iterations and its condition is still true"
  | .cancelled => "run cancelled"

end RuntimeError

end Waggle
