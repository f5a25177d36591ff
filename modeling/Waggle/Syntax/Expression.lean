import Waggle.Syntax.Basic
import Waggle.Syntax.Cursor

/-!
# Reading expressions

From the loosest to the tightest, the operators are `==`, then `+` and `-`, then `*` and `/`,
then the sign. Operators of one level are read as a chain that leans to the left, and since the
tree grows as deep as the chain is long, every operator of a chain holds one level of nesting
until the chain ends.

Recursion follows the levels of nesting that are left. No argument `levels` ever runs out
before the cursor's own count does: the two together are at least `maxNesting`, so `enter` has
refused by then.
-/

namespace Waggle.Parser

/-- The operator of equations. -/
def equation? : TokenKind → Option BinaryOp
  | .symbol .equal => some .equal
  | _ => none

/-- The operators of sums. -/
def sum? : TokenKind → Option BinaryOp
  | .symbol .plus => some .add
  | .symbol .minus => some .subtract
  | _ => none

/-- The operators of products. -/
def product? : TokenKind → Option BinaryOp
  | .symbol .star => some .multiply
  | .symbol .slash => some .divide
  | _ => none

/-- The value that a token writes down. -/
def literal? : TokenKind → Option Value
  | .number value => some (.int value)
  | .keyword (.truth value) => some (.bool value)
  | .keyword (.direction heading) => some (.direction heading)
  | _ => none

/-- The rest of a chain, whose operators are told by `operator?`, after what was read of it. -/
def chain (operator? : TokenKind → Option BinaryOp) (operand : Parser Expr) :
    (levels : Nat) → (left : Expr) → Parser Expr
  | 0, left => do
    match operator? (← peek) with
    | none => return left
    | some _ =>
      skip
      fail .nestingTooDeep
  | levels + 1, left => do
    match operator? (← peek) with
    | none => return left
    | some op =>
      skip
      nested do
        let right ← operand
        chain operator? operand levels (left.join op right)

/-- A chain of operands with operators between them. -/
def chained (operator? : TokenKind → Option BinaryOp) (operand : Parser Expr) :
    Parser Expr := do
  chain operator? operand maxNesting (← operand)

/-- A primary expression behind any number of signs. -/
def signed (primary : Parser Expr) : (levels : Nat) → Parser Expr
  | 0 => do
    if (← peek) = .symbol .minus then
      skip
      fail .nestingTooDeep
    else
      primary
  | levels + 1 => do
    if (← peek) = .symbol .minus then
      let start ← nextSpan
      skip
      let operand ← nested (signed primary levels)
      return .negate operand (start.merge operand.span)
    else
      primary

/-- One or more items with commas between them. -/
def commaSeparated (item : Parser Expr) : (commas : Nat) → Parser (List Expr)
  | 0 => return [← item]
  | commas + 1 => do
    let head ← item
    if ← accept (.symbol .comma) then
      return head :: (← commaSeparated item commas)
    else
      return [head]

/-- The arguments of a call up to its closing parenthesis. -/
def callArguments (expression : Parser Expr) : Parser (List Expr) := do
  if (← peek) = .symbol .rightParen then return []
  else commaSeparated expression (← remaining)

/-- A literal, a name, a call, or an expression between parentheses. -/
def primary (expression : Parser Expr) : Parser Expr := do
  let start ← nextSpan
  let kind ← peek
  match literal? kind with
  | some value =>
    skip
    return .literal value start
  | none =>
    match kind with
    | .symbol .leftParen =>
      skip
      let inner ← expression
      expect .rightParen .closingParentheses
      return inner.withSpan (start.merge (← previousSpan))
    | .identifier name =>
      if (← peekSecond) = .symbol .leftParen then
        skip
        skip
        let arguments ← callArguments expression
        expect .rightParen .afterCallArguments
        return .call ⟨name, start⟩ arguments (start.merge (← previousSpan))
      else
        skip
        return .reference name start
    | _ => fail (.expectedExpression kind)

/-- Operands of the tightest level. -/
def operand (expression : Parser Expr) : Parser Expr :=
  signed (primary expression) maxNesting

/-- Operators of all levels between operands. -/
def operators (expression : Parser Expr) : Parser Expr :=
  chained equation? (chained sum? (chained product? (operand expression)))

/-- An expression within a number of levels. -/
def expressionWithin : (levels : Nat) → Parser Expr
  | 0 => fail .nestingTooDeep
  | levels + 1 => nested (operators (expressionWithin levels))

/-- An expression. -/
def expression : Parser Expr := expressionWithin maxNesting

end Waggle.Parser
