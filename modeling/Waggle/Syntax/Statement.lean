import Waggle.Syntax.Expression

/-!
# Reading statements

A statement is told by its first token, an assignment by its first two. Blocks count as levels
of nesting together with expressions, and recursion follows the levels that are left, as it does
for expressions. A list of statements ends where its closing token stands or the input ends.
-/

namespace Waggle.Parser

/-- The rest of a list of coordinates, of which `room` more may follow. -/
def moreCoordinates (keyword : Keyword) : (room : Nat) → Parser (List Expr)
  | 0 => do
    if (← peek) = .symbol .comma then fail (.tooManyCoordinates keyword) else return []
  | room + 1 => do
    if ← accept (.symbol .comma) then
      let head ← expression
      return head :: (← moreCoordinates keyword room)
    else
      return []

/-- One to three coordinates. -/
def coordinates (keyword : Keyword) : Parser (List Expr) := do
  let head ← expression
  return head :: (← moreCoordinates keyword 2)

/-- An expression between parentheses after a keyword. -/
def parenthesised (keyword : Keyword) (place : Place) : Parser Expr := do
  expect .leftParen (.afterKeyword keyword)
  let inner ← expression
  expect .rightParen place
  return inner

/-- What stands at the end of a statement that acts on the world. -/
def finishAction (keyword : Keyword) : Parser Unit := do
  expect .rightParen (.afterArguments keyword)
  expect .semicolon (.afterStatement keyword)

/-- A direction alone moves the actor, a target is followed by coordinates. -/
def motion : Parser (Option Expr × Motion) := do
  match (← peek).direction?, (← peekSecond) with
  | some direction, .symbol .rightParen =>
    skip
    return (none, .step direction)
  | _, _ =>
    let target ← expression
    if ← accept (.symbol .comma) then
      return (some target, .offset (← coordinates .move))
    else
      failAt (.expectedDirection (← peek)) target.span

/-- A target, or an attacker and a target. -/
def opponents : Parser (Option Expr × Expr) := do
  let first ← expression
  let pair ←
    if ← accept (.symbol .comma) then
      pure (some first, ← expression)
    else
      pure (none, first)
  if (← peek) = .symbol .comma then fail .tooManyArguments else return pair

/-- Statements up to a closing token, of which at most `count` are left. -/
def statements (closing : TokenKind → Bool) (statement : Parser Stmt) :
    (count : Nat) → Parser (List Stmt)
  | 0 => return []
  | count + 1 => do
    if closing (← peek) then
      return []
    else
      let head ← statement
      return head :: (← statements closing statement count)

/-- Whether a block ends before a token. -/
def endsBlock (kind : TokenKind) : Bool :=
  kind = .symbol .rightBrace || kind = .endOfInput

/-- Whether a program ends before a token. -/
def endsProgram (kind : TokenKind) : Bool := kind = .endOfInput

/-- A statement whose blocks are read by `block`. -/
def statement (block : Place → Parser (Block Stmt)) : Parser Stmt := do
  let start ← nextSpan
  let finish (build : Span → Stmt) : Parser Stmt := do
    return build (start.merge (← previousSpan))
  match ← peek, ← peekSecond with
  | .keyword .ifWord, _ =>
    skip
    let condition ← parenthesised .ifWord .afterCondition
    let consequent ← block (.beforeBody .ifWord)
    let alternative ←
      if ← accept (.keyword .elseWord) then
        some <$> block (.afterKeyword .elseWord)
      else
        pure none
    finish (.branch condition consequent alternative)
  | .keyword .whileWord, _ =>
    skip
    let condition ← parenthesised .whileWord .afterCondition
    let body ← block (.beforeBody .whileWord)
    finish (.whileLoop condition body)
  | .keyword .repeatWord, _ =>
    skip
    let count ← parenthesised .repeatWord .afterCount
    let body ← block (.beforeBody .repeatWord)
    finish (.repeatLoop count body)
  | .keyword .move, _ =>
    skip
    expect .leftParen (.afterKeyword .move)
    let (target, distance) ← motion
    finishAction .move
    finish (.move target distance)
  | .keyword .moveTo, _ =>
    skip
    expect .leftParen (.afterKeyword .moveTo)
    let place ← coordinates .moveTo
    finishAction .moveTo
    finish (.moveTo place)
  | .keyword .attack, _ =>
    skip
    expect .leftParen (.afterKeyword .attack)
    let (attacker, target) ← opponents
    finishAction .attack
    finish (.attack attacker target)
  | .identifier name, .symbol .assign =>
    skip
    skip
    let value ← expression
    expect .semicolon .afterAssignment
    finish (.assign ⟨name, start⟩ value)
  | _, _ =>
    let expr ← expression
    expect .semicolon .afterExpression
    return .evaluate expr (expr.span.merge (← previousSpan))

/-- A block within a number of levels. -/
def blockWithin : (levels : Nat) → (place : Place) → Parser (Block Stmt)
  | 0, place => do
    expect .leftBrace place
    fail .nestingTooDeep
  | levels + 1, place => do
    let start ← nextSpan
    expect .leftBrace place
    let stmts ← nested do
      statements endsBlock (statement (blockWithin levels)) (← remaining)
    expect .rightBrace .closingBlock
    return ⟨stmts, start.merge (← previousSpan)⟩

/-- A block. -/
def block (place : Place) : Parser (Block Stmt) := blockWithin maxNesting place

/-- A program, up to the end of the input. -/
def program : Parser Program := do
  let start ← nextSpan
  let stmts ← statements endsProgram (statement block) (← remaining)
  let last ← previousSpan
  return ⟨stmts, if stmts.isEmpty then start else start.merge last⟩

end Waggle.Parser
