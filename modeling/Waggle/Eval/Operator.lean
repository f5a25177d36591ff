import Waggle.Eval.Error

/-!
# Operators

Integers are added, subtracted, multiplied and divided exactly, a quotient being cut toward
zero, and a result outside the range is an error. Two integers or two truth values can be
compared. Nothing else can be computed with.
-/

namespace Waggle

/-- An exact result as a value, or an overflow of the operator. -/
def exactInt (operator : Operator) (result : Int) : Except RuntimeError Value :=
  match Integer.fit? result with
  | some number => .ok (.int number)
  | none => .error (.arithmeticOverflow operator)

/-- The value of an operator between two values. -/
def BinaryOp.apply (op : BinaryOp) (left right : Value) : Except RuntimeError Value :=
  match op, left, right with
  | .add, .int a, .int b => exactInt (.binary .add) (a.toInt + b.toInt)
  | .subtract, .int a, .int b => exactInt (.binary .subtract) (a.toInt - b.toInt)
  | .multiply, .int a, .int b => exactInt (.binary .multiply) (a.toInt * b.toInt)
  | .divide, .int a, .int b =>
    if b = 0 then .error .divisionByZero
    else exactInt (.binary .divide) (a.toInt.tdiv b.toInt)
  | .equal, .int a, .int b => .ok (.bool (a == b))
  | .equal, .bool a, .bool b => .ok (.bool (a == b))
  | op, left, right => .error (.typeMismatch (.binary op left right))

/-- The negative of a value. -/
def Value.negate : Value → Except RuntimeError Value
  | .int number => exactInt .negation (-number.toInt)
  | operand => .error (.typeMismatch (.unary operand))

end Waggle
