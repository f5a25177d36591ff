import Waggle.Compile

/-!
# Reading with a meter

A parser answers a result or the one thing that is wrong. How many levels were open where it
failed, whether they were closed one by one or together, and that nothing else was found to be
wrong, cannot be asked of it. A meter is a reader that tells all of this. It writes an error down
where it finds one, and that is apart from whether it gives a result: a meter may give none and
have nothing to say about it, it may write down two errors, or one and a result. It keeps its cursor
where it gives no result, it carries the calls that are running, and every step it takes is a moment
that holds what happened and how many levels are open now.

A level is opened by raising the count and comparing it afterwards; whoever asked for it is told
whether it is open. An operator chain counts the levels that it has opened and closes them at once
where it ends, with a result or without one. An expression and a sign close their own level in
either case. A block that stops inside leaves its level open. In the end a program is given only if
no error was written down. `Waggle.Proofs.Evenness` shows that all of this comes out even, and that
what is read and what is written down are what a parser answers.
-/

namespace Waggle

/-- The functions whose calls are watched. -/
inductive Routine where
  | expression
  | equation
  | sum
  | product
  | signed
  | primary
  | block
  | statement
deriving DecidableEq

/-- A call that is running. -/
structure Activation where
  /-- The function that is called. -/
  routine : Routine
  /-- How many levels were open when it was called. -/
  entry : Nat
deriving DecidableEq

/-- What can happen at a moment. -/
inductive LevelEvent where
  /-- Tokens were looked at or stepped over. -/
  | looked
  /-- A call begins. -/
  | begun
  /-- A call ends with a result. -/
  | succeeded
  /-- A call ends without a result. -/
  | failed
  /-- An error was written down. -/
  | reported
  /-- A level was opened. -/
  | opened
  /-- No level was left to open. -/
  | refused
  /-- So many levels were closed at once. -/
  | released (levels : Nat)
deriving DecidableEq

/-- A moment of reading. -/
structure Moment where
  /-- What happened. -/
  event : LevelEvent
  /-- The calls that are running, the innermost one first. -/
  running : List Activation
  /-- How many levels are open now. -/
  depth : Nat
deriving DecidableEq

/-- How far reading has come. -/
structure Reading where
  /-- Where it is. -/
  cursor : Cursor
  /-- The errors that were written down. -/
  errors : Diagnostics

/-- What became of reading with a meter. -/
structure Metered (α : Type) where
  /-- What was read, if anything was. -/
  result : Option α
  /-- How far reading came, with a result or without one. -/
  reading : Reading
  /-- The moments of it in order. -/
  moments : List Moment

namespace Metered

variable {α β : Type}

/-- How a call with this end ends. -/
def ending (run : Metered α) : LevelEvent :=
  match run.result with
  | some _ => .succeeded
  | none => .failed

/-- Goes on with a result, and not without one. -/
def andThen (run : Metered α) (next : α → Reading → Metered β) : Metered β :=
  match run.result with
  | some value =>
    let later := next value run.reading
    ⟨later.result, later.reading, run.moments ++ later.moments⟩
  | none => ⟨none, run.reading, run.moments⟩

/-- To go on by giving the result is to do nothing. -/
theorem andThen_some (run : Metered α) :
    (run.andThen fun value reading => ⟨some value, reading, []⟩) = run := by
  rcases run with ⟨_ | value, reading, moments⟩ <;> simp [andThen]

/-- What goes on twice goes on with the rest. -/
theorem andThen_assoc {γ : Type} (run : Metered α) (next : α → Reading → Metered β)
    (last : β → Reading → Metered γ) :
    (run.andThen next).andThen last =
      run.andThen fun value reading => (next value reading).andThen last := by
  rcases run with ⟨_ | value, reading, moments⟩
  · rfl
  · rcases later : next value reading with ⟨_ | found, after, more⟩ <;> simp [andThen, later]

end Metered

/-- A reader of the tokens of a file that knows the calls that are running and tells every step. -/
def Meter (α : Type) := SourceFile → List Activation → Reading → Metered α

namespace Meter

open Waggle.Parser (equation? sum? product? literal? endsBlock endsProgram)

variable {α : Type}

instance : Monad Meter where
  pure value := fun _ _ reading => ⟨some value, reading, []⟩
  bind first next := fun file running reading =>
    (first file running reading).andThen fun value => next value file running

instance : LawfulMonad Meter := .mk' Meter
  (fun meter => by
    funext file running reading
    exact (meter file running reading).andThen_some)
  (fun _ _ => rfl)
  (fun meter next last => by
    funext file running reading
    exact (meter file running reading).andThen_assoc _ _)

/-! ### Steps -/

/-- Tells something of the cursor. -/
def look (tell : Cursor → α) : Meter α := fun _ running reading =>
  ⟨some (tell reading.cursor), reading, [⟨.looked, running, reading.cursor.depth⟩]⟩

/-- The kind of the next token. -/
def peek : Meter TokenKind := look Cursor.kind

/-- The kind of the token after the next one. -/
def peekSecond : Meter TokenKind := look Cursor.secondKind

/-- The span of the next token. -/
def nextSpan : Meter Span := look Cursor.span

/-- The span of the token before the cursor. -/
def previousSpan : Meter Span := look Cursor.previous

/-- How many tokens are left. -/
def remaining : Meter Nat := look fun cursor => cursor.rest.length

/-- Steps over the next token, and answers it if there is one. -/
def advance : Meter (Option Token) := fun _ running reading =>
  ⟨some reading.cursor.rest.head?, { reading with cursor := reading.cursor.advance },
    [⟨.looked, running, reading.cursor.advance.depth⟩]⟩

/-- Steps over the next token. -/
def skip : Meter Unit := do
  let _ ← advance
  return ()

/-- Gives no result, and says nothing about it. -/
def stop : Meter α := fun _ _ reading => ⟨none, reading, []⟩

/-- Gives the result that there is, if there is one. -/
def give : Option α → Meter α
  | some value => return value
  | none => stop

/-- Reads, and goes on whether there is a result or not. -/
def attempt (meter : Meter α) : Meter (Option α) := fun file running reading =>
  let run := meter file running reading
  ⟨some run.result, run.reading, run.moments⟩

/-- Writes down an error at a span, and goes on. -/
def reportAt (code : ErrorCode) (message : String) (span : Span) : Meter Unit :=
  fun file running reading =>
    ⟨some (), { reading with errors := reading.errors.push (file.diagnose code message span) },
      [⟨.reported, running, reading.cursor.depth⟩]⟩

/-- Writes down an error at the next token, and goes on. -/
def report (code : ErrorCode) (message : String) : Meter Unit := fun file running reading =>
  reportAt code message reading.cursor.span file running reading

/-- Steps over a token if it is the next one, and tells whether it was. -/
def accept (kind : TokenKind) : Meter Bool := do
  if (← peek) = kind then
    skip
    return true
  else
    return false

/-- Steps over a symbol that has to be the next token. The context says where it has to be. -/
def expect (symbol : Symbol) (context : String) : Meter Unit := do
  let found ← peek
  if found = .symbol symbol then
    let _ ← give (← advance)
    return ()
  else
    report .unexpectedToken
      ("expected '" ++ symbol.spelling ++ "' " ++ context ++ ", got '" ++ found.text ++ "'")
    stop

/-- Steps over a name that has to be the next token. -/
def expectIdentifier : Meter Ident := do
  match ← peek with
  | .identifier name =>
    let span ← nextSpan
    skip
    return ⟨name, span⟩
  | found =>
    report .unexpectedToken ("expected identifier, got '" ++ found.text ++ "'")
    stop

/-! ### Levels -/

/-- Opens no level: the count was raised, an error is written down, and the count is given back. -/
def refuse : Meter Unit := fun file running reading =>
  let raised := reading.cursor.depth + 1
  let error := file.diagnose SyntaxFault.nestingTooDeep.code SyntaxFault.nestingTooDeep.message
    reading.cursor.span
  ⟨some (), ⟨{ reading.cursor with depth := raised - 1 }, reading.errors.push error⟩,
    [⟨.refused, running, raised - 1⟩]⟩

/-- Opens a level and tells whether it is open: the count is raised, and then it is compared. -/
def enter : Meter Bool := fun file running reading =>
  let raised := reading.cursor.depth + 1
  if maxNesting < raised then
    (do refuse; return false : Meter Bool) file running reading
  else
    ⟨some true, { reading with cursor := { reading.cursor with depth := raised } },
      [⟨.opened, running, raised⟩]⟩

/-- Closes levels, as many as there are. -/
def release (levels : Nat) : Meter Unit := fun _ running reading =>
  let lowered := reading.cursor.depth - levels
  ⟨some (), { reading with cursor := { reading.cursor with depth := lowered } },
    [⟨.released levels, running, lowered⟩]⟩

/-- Reads within a level of its own, which is closed with a result or without one. -/
def nested (meter : Meter α) : Meter α := do
  if ← enter then
    let result ← attempt meter
    release 1
    give result
  else
    stop

/-- Reads within a call. -/
def call (routine : Routine) (meter : Meter α) : Meter α := fun file running reading =>
  let inside := ⟨routine, reading.cursor.depth⟩ :: running
  let run := meter file inside reading
  ⟨run.result, run.reading, ⟨.begun, inside, reading.cursor.depth⟩ :: run.moments ++
    [⟨run.ending, inside, run.reading.cursor.depth⟩]⟩

/-! ### Expressions -/

/-- The rest of a chain, if there is one, with how many levels the chain has opened. -/
def chain (operator? : TokenKind → Option BinaryOp) (operand : Meter Expr) :
    (room : Nat) → (levels : Nat) → (left : Expr) → Meter (Option Expr × Nat)
  | 0, levels, left => do
    match operator? (← peek) with
    | none => return (some left, levels)
    | some _ =>
      skip
      refuse
      return (none, levels)
  | room + 1, levels, left => do
    match operator? (← peek) with
    | none => return (some left, levels)
    | some op =>
      skip
      if ← enter then
        match ← attempt operand with
        | some right => chain operator? operand room (levels + 1) (left.join op right)
        | none => return (none, levels + 1)
      else
        return (none, levels)

/-- Closes the levels of a chain at once, and gives its result. -/
def settle (ended : Option α × Nat) : Meter α := do
  release ended.2
  give ended.1

/-- A chain of operands with operators between them. -/
def chained (routine : Routine) (operator? : TokenKind → Option BinaryOp)
    (operand : Meter Expr) : Meter Expr :=
  call routine do
    settle (← chain operator? operand maxNesting 0 (← operand))

/-- A primary expression behind any number of signs. -/
def signed (primary : Meter Expr) : (room : Nat) → Meter Expr
  | 0 => call .signed do
    if (← peek) = .symbol .minus then
      skip
      refuse
      stop
    else
      primary
  | room + 1 => call .signed do
    if (← peek) = .symbol .minus then
      let start ← nextSpan
      skip
      let operand ← nested (signed primary room)
      return .negate operand (start.merge operand.span)
    else
      primary

/-- One or more items with commas between them. -/
def commaSeparated (item : Meter Expr) : (commas : Nat) → Meter (List Expr)
  | 0 => return [← item]
  | commas + 1 => do
    let head ← item
    if ← accept (.symbol .comma) then
      return head :: (← commaSeparated item commas)
    else
      return [head]

/-- The arguments of a call up to its closing parenthesis. -/
def callArguments (expression : Meter Expr) : Meter (List Expr) := do
  if (← peek) = .symbol .rightParen then return []
  else commaSeparated expression (← remaining)

/-- A name with arguments between parentheses. -/
def calling (expression : Meter Expr) : Meter Expr := do
  let callee ← expectIdentifier
  expect .leftParen "after function name"
  let arguments ← callArguments expression
  expect .rightParen Place.afterCallArguments.phrase
  return .call callee arguments (callee.span.merge (← previousSpan))

/-- A literal, a name, a call, or an expression between parentheses. -/
def primary (expression : Meter Expr) : Meter Expr :=
  call .primary do
    let start ← nextSpan
    let kind ← peek
    match literal? kind with
    | some value =>
      skip
      return .literal value start
    | none =>
      match kind with
      | .symbol .leftParen =>
        skip
        let inner ← expression
        expect .rightParen Place.closingParentheses.phrase
        return inner.withSpan (start.merge (← previousSpan))
      | .identifier _ =>
        if (← peekSecond) = .symbol .leftParen then
          calling expression
        else
          let ident ← expectIdentifier
          return .reference ident.name ident.span
      | _ =>
        report .unexpectedToken (SyntaxFault.expectedExpression (← peek)).message
        stop

/-- Operators of all levels between operands. -/
def operators (expression : Meter Expr) : Meter Expr :=
  chained .equation equation? <| chained .sum sum? <| chained .product product? <|
    signed (primary expression) maxNesting

/-- An expression within a number of levels. -/
def expressionWithin : (room : Nat) → Meter Expr
  | 0 => call .expression do
    refuse
    stop
  | room + 1 => call .expression (nested (operators (expressionWithin room)))

/-- An expression. -/
def expression : Meter Expr := expressionWithin maxNesting

/-! ### Statements -/

/-- The rest of a list of coordinates, of which `room` more may follow. -/
def moreCoordinates (keyword : Keyword) : (room : Nat) → Meter (List Expr)
  | 0 => do
    if (← peek) = .symbol .comma then
      report .tooManyArguments (SyntaxFault.tooManyCoordinates keyword).message
      stop
    else
      return []
  | room + 1 => do
    if ← accept (.symbol .comma) then
      let head ← expression
      return head :: (← moreCoordinates keyword room)
    else
      return []

/-- One to three coordinates. -/
def coordinates (keyword : Keyword) : Meter (List Expr) := do
  let head ← expression
  return head :: (← moreCoordinates keyword 2)

/-- An expression between parentheses after a keyword. -/
def parenthesised (keyword : Keyword) (place : Place) : Meter Expr := do
  expect .leftParen (Place.afterKeyword keyword).phrase
  let inner ← expression
  expect .rightParen place.phrase
  return inner

/-- What stands at the end of a statement that acts on the world. -/
def finishAction (keyword : Keyword) : Meter Unit := do
  expect .rightParen (Place.afterArguments keyword).phrase
  expect .semicolon (Place.afterStatement keyword).phrase

/-- A direction alone moves the actor, a target is followed by coordinates. -/
def motion : Meter (Option Expr × Motion) := do
  match (← peek).direction?, (← peekSecond) with
  | some direction, .symbol .rightParen =>
    skip
    return (none, .step direction)
  | _, _ =>
    let target ← expression
    if ← accept (.symbol .comma) then
      return (some target, .offset (← coordinates .move))
    else
      reportAt .expectedDirection (SyntaxFault.expectedDirection (← peek)).message target.span
      stop

/-- A target, or an attacker and a target. -/
def opponents : Meter (Option Expr × Expr) := do
  let first ← expression
  let pair ←
    if ← accept (.symbol .comma) then
      pure (some first, ← expression)
    else
      pure (none, first)
  if (← peek) = .symbol .comma then
    report .tooManyArguments SyntaxFault.tooManyArguments.message
    stop
  else
    return pair

/-- Statements up to a closing token, of which at most `count` are left. -/
def statements (closing : TokenKind → Bool) (statement : Meter Stmt) :
    (count : Nat) → Meter (List Stmt)
  | 0 => return []
  | count + 1 => do
    if closing (← peek) then
      return []
    else
      let head ← statement
      return head :: (← statements closing statement count)

/-- A name that is given a value. -/
def assignment : Meter Stmt := do
  let name ← expectIdentifier
  expect .assign "after variable name"
  let value ← expression
  expect .semicolon Place.afterAssignment.phrase
  return .assign name value (name.span.merge (← previousSpan))

/-- What makes up a statement whose blocks are read by `block`. -/
def statementParts (block : Place → Meter (Block Stmt)) : Meter Stmt := do
  let start ← nextSpan
  let finish (build : Span → Stmt) : Meter Stmt := do
    return build (start.merge (← previousSpan))
  match ← peek, ← peekSecond with
  | .keyword .ifWord, _ =>
    skip
    let condition ← parenthesised .ifWord .afterCondition
    let consequent ← block (.beforeBody .ifWord)
    let alternative ←
      if ← accept (.keyword .elseWord) then
        some <$> block (.afterKeyword .elseWord)
      else
        pure none
    finish (.branch condition consequent alternative)
  | .keyword .whileWord, _ =>
    skip
    let condition ← parenthesised .whileWord .afterCondition
    let body ← block (.beforeBody .whileWord)
    finish (.whileLoop condition body)
  | .keyword .repeatWord, _ =>
    skip
    let count ← parenthesised .repeatWord .afterCount
    let body ← block (.beforeBody .repeatWord)
    finish (.repeatLoop count body)
  | .keyword .move, _ =>
    skip
    expect .leftParen (Place.afterKeyword .move).phrase
    let (target, distance) ← motion
    finishAction .move
    finish (.move target distance)
  | .keyword .moveTo, _ =>
    skip
    expect .leftParen (Place.afterKeyword .moveTo).phrase
    let place ← coordinates .moveTo
    finishAction .moveTo
    finish (.moveTo place)
  | .keyword .attack, _ =>
    skip
    expect .leftParen (Place.afterKeyword .attack).phrase
    let (attacker, target) ← opponents
    finishAction .attack
    finish (.attack attacker target)
  | .identifier _, .symbol .assign => assignment
  | _, _ =>
    let expr ← expression
    expect .semicolon Place.afterExpression.phrase
    return .evaluate expr (expr.span.merge (← previousSpan))

/-- A statement whose blocks are read by `block`. -/
def statement (block : Place → Meter (Block Stmt)) : Meter Stmt :=
  call .statement (statementParts block)

/-- A block within a number of levels. -/
def blockWithin : (room : Nat) → (place : Place) → Meter (Block Stmt)
  | 0, place => call .block do
    expect .leftBrace place.phrase
    refuse
    stop
  | room + 1, place => call .block do
    let start ← nextSpan
    expect .leftBrace place.phrase
    if ← enter then
      let stmts ← statements endsBlock (statement (blockWithin room)) (← remaining)
      release 1
      expect .rightBrace Place.closingBlock.phrase
      return ⟨stmts, start.merge (← previousSpan)⟩
    else
      stop

/-- A block. -/
def block (place : Place) : Meter (Block Stmt) := blockWithin maxNesting place

/-- A program, up to the end of the input. -/
def program : Meter Program := do
  let start ← nextSpan
  let stmts ← statements endsProgram (statement block) (← remaining)
  let last ← previousSpan
  return ⟨stmts, if stmts.isEmpty then start else start.merge last⟩

end Meter

/-! ### Programs -/

/-- What reading tokens as a program answers. -/
structure ParseResult where
  /-- The program, if the tokens are one. -/
  program : Option Program
  /-- The errors that were written down. -/
  errors : Diagnostics

/-- Errors without a program, or a program without errors. -/
def ParseResult.ofExcept : Except Diagnostics Program → ParseResult
  | .error errors => ⟨none, errors⟩
  | outcome => ⟨outcome.toOption, .empty⟩

/-- A run's program with the errors that were written down on the way. -/
def Metered.answer (run : Metered Program) : ParseResult := ⟨run.result, run.reading.errors⟩

namespace SourceFile

/-- Reads tokens as a program with a meter, outside of all calls and with no error yet. -/
def readProgram (file : SourceFile) (tokens : List Token) : Metered Program :=
  Meter.program file [] ⟨.start tokens, .empty⟩

/-- Reads tokens as a program, which is given only if no error was written down. -/
def parseResult (file : SourceFile) (tokens : List Token) : ParseResult :=
  let run := file.readProgram tokens
  if run.reading.errors.isPresent then ⟨none, run.reading.errors⟩ else run.answer

end SourceFile

end Waggle
