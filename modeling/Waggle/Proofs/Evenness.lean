import Waggle.Proofs.Balance

/-!
# Levels come out even

To read with a meter is to read, and all the way through the number of open levels is right. There
is one lemma for each function of the grammar. A chain is the one place where the levels above the
base are many, and its induction carries their number. A call and an assignment look at two tokens
and then expect them, so what they expect is always there.

A program is called with no level open, and `Meter.Surfaces` follows it from one statement to the
next, which ends in `SourceFile.parse_balanced`.
-/

namespace Waggle

namespace Meter

variable {floor levels : Nat}

/-! ### Expressions -/

section Expressions

/-- Where a chain ends with a result, its levels are closed. -/
theorem settle_balances (left : Expr) :
    Balances floor levels 0 (settle (some left, levels)) (Parser.closing levels (return left)) :=
  Balances.release.bind fun _ => .pure left

/-- A chain holds the levels that it has opened, and closes them where it ends. -/
theorem chain_balances (operator? : TokenKind → Option BinaryOp) {operand : Meter Expr}
    {parser : Parser Expr} (balances : Balances floor 0 0 operand parser) (room levels : Nat)
    (left : Expr) (enough : maxNesting ≤ floor + levels + room) :
    Balances floor levels 0 (chain operator? operand room levels left >>= settle)
      (Parser.closing levels (Parser.chain operator? parser room left)) := by
  induction room generalizing levels left with
  | zero =>
    have full : maxNesting ≤ floor + levels := enough
    rw [chain, Parser.chain, bind_assoc, Parser.closing_bind]
    refine Balances.peek.bind fun kind => ?_
    cases operator? kind with
    | none => exact settle_balances left
    | some op =>
      simp only [bind_assoc, pure_bind, Parser.closing_bind]
      exact Balances.skip.bind fun _ _ => (Reports.refuse full).quit .release
  | succ room ih =>
    rw [chain, Parser.chain, bind_assoc, Parser.closing_bind]
    refine Balances.peek.bind fun kind => ?_
    cases operator? kind with
    | none => exact settle_balances left
    | some op =>
      simp only [bind_assoc, Parser.closing_bind, Parser.nested_eq, Parser.closing_closing]
      refine Balances.skip.bind fun _ => Balances.enter ?_ .release
      simp only [if_true, bind_assoc]
      have above := balances.mono (Nat.le_add_right floor (levels + 1))
      exact .attempt above (fun right => ih (levels + 1) (left.join op right) (by omega)) .release

/-- A chain ends with as many open levels as it began with. -/
theorem chained_balances (routine : Routine) (operator? : TokenKind → Option BinaryOp)
    {operand : Meter Expr} {parser : Parser Expr} (balances : Balances floor 0 0 operand parser) :
    Balances floor 0 0 (chained routine operator? operand) (Parser.chained operator? parser) := by
  refine .call routine (balances.bind fun first => ?_)
  rw [← Parser.closing_zero (Parser.chain operator? parser maxNesting first)]
  exact chain_balances operator? balances maxNesting 0 first (Nat.le_add_left _ _)

/-- A sign holds a level for its operand. -/
theorem signed_balances {primary : Meter Expr} {parser : Parser Expr}
    (balances : Balances floor 0 0 primary parser) (room : Nat)
    (enough : maxNesting ≤ floor + room) :
    Balances floor 0 0 (signed primary room) (Parser.signed parser room) := by
  induction room generalizing floor with
  | zero =>
    refine .call .signed (Balances.peek.bind fun kind => ?_)
    by_cases minus : kind = .symbol .minus
    · rw [if_pos minus, if_pos minus]
      exact Balances.skip.bind fun _ => .refuse enough .stop
    · rw [if_neg minus, if_neg minus]
      exact balances
  | succ room ih =>
    have inner := ih (balances.mono (Nat.le_succ floor)) (by omega)
    refine .call .signed (Balances.peek.bind fun kind => ?_)
    by_cases minus : kind = .symbol .minus
    · rw [if_pos minus, if_pos minus]
      refine Balances.nextSpan.bind fun start => Balances.skip.bind fun _ => ?_
      exact inner.nested.bind fun operand => .pure _
    · rw [if_neg minus, if_neg minus]
      exact balances

/-- A list of items balances if the items do. -/
theorem commaSeparated_balances {item : Meter Expr} {parser : Parser Expr}
    (balances : Balances floor 0 0 item parser) (commas : Nat) :
    Balances floor 0 0 (commaSeparated item commas) (Parser.commaSeparated parser commas) := by
  induction commas with
  | zero => exact balances.bind fun head => .pure _
  | succ commas ih =>
    refine balances.bind fun head => (Balances.accept _).bind fun accepted => ?_
    cases accepted with
    | true => exact ih.bind fun rest => .pure _
    | false => exact .pure _

/-- Arguments balance if expressions do. -/
theorem callArguments_balances {expression : Meter Expr} {parser : Parser Expr}
    (balances : Balances floor 0 0 expression parser) :
    Balances floor 0 0 (callArguments expression) (Parser.callArguments parser) := by
  refine Balances.peek.bind fun kind => ?_
  by_cases closed : kind = .symbol .rightParen
  · rw [if_pos closed, if_pos closed]
    exact .pure []
  · rw [if_neg closed, if_neg closed]
    exact Balances.remaining.bind fun count => commaSeparated_balances balances count

/-- A primary expression balances if the expressions inside do. -/
theorem primary_balances {expression : Meter Expr} {parser : Parser Expr}
    (balances : Balances floor 0 0 expression parser) :
    Balances floor 0 0 (primary expression) (Parser.primary parser) := by
  refine .call .primary fun cursor => ?_
  apply BalancesAt.nextSpan
  apply BalancesAt.peek
  cases Parser.literal? cursor.kind with
  | some value => exact BalancesAt.skip.bind (.pure _)
  | none =>
    have otherwise (kind : TokenKind) (found : cursor.kind = kind) : BalancesAt floor 0 0
        (do report .unexpectedToken (SyntaxFault.expectedExpression (← peek)).message; stop)
        cursor ((Parser.fail (.expectedExpression kind) : Parser Expr) cursor) := by
      subst found
      exact (BalancesAt.look Cursor.kind).bind
        ((Reports.report (.expectedExpression cursor.kind)).quit .stop)
    cases found : cursor.kind with
    | symbol symbol =>
      cases symbol with
      | leftParen =>
        generalize cursor.span = start
        apply Balances.at_cursor
        exact Balances.skip.bind fun _ => balances.bind fun inner => .upTo _ _ _
      | _ => exact otherwise _ found
    | identifier name =>
      apply BalancesAt.peekSecond
      by_cases opens : cursor.secondKind = .symbol .leftParen
      · rw [if_pos opens, if_pos opens]
        have rest := callArguments_balances balances
        exact .named found opens (rest.bind fun arguments => .upTo _ _ _)
      · rw [if_neg opens, if_neg opens]
        exact (BalancesAt.expectIdentifier found).bind (.pure _)
    | _ => exact otherwise _ found

/-- An expression within a number of levels balances above the levels that are gone. -/
theorem expressionWithin_balances (room : Nat) (enough : maxNesting ≤ floor + room) :
    Balances floor 0 0 (expressionWithin room) (Parser.expressionWithin room) := by
  induction room generalizing floor with
  | zero => exact .call .expression (.refuse enough .stop)
  | succ room ih =>
    have lower : maxNesting ≤ floor + 1 + room := by omega
    have inside := primary_balances (ih lower)
    have operands := signed_balances inside maxNesting (Nat.le_add_left _ _)
    have products := chained_balances .product Parser.product? operands
    have sums := chained_balances .sum Parser.sum? products
    exact .call .expression (chained_balances .equation Parser.equation? sums).nested

/-- An expression balances anywhere. -/
theorem expression_balances : Balances floor 0 0 expression Parser.expression :=
  expressionWithin_balances maxNesting (Nat.le_add_left _ _)

end Expressions

/-! ### Statements -/

section Statements

/-- Further coordinates balance. -/
theorem moreCoordinates_balances (keyword : Keyword) (room : Nat) :
    Balances floor 0 0 (moreCoordinates keyword room) (Parser.moreCoordinates keyword room) := by
  induction room with
  | zero =>
    refine Balances.peek.bind fun kind => ?_
    by_cases comma : kind = .symbol .comma
    · rw [if_pos comma, if_pos comma]
      exact .fail (.tooManyCoordinates keyword)
    · rw [if_neg comma, if_neg comma]
      exact .pure []
  | succ room ih =>
    refine (Balances.accept _).bind fun accepted => ?_
    cases accepted with
    | true => exact expression_balances.bind fun head => ih.bind fun rest => .pure _
    | false => exact .pure []

/-- Coordinates balance. -/
theorem coordinates_balances (keyword : Keyword) :
    Balances floor 0 0 (coordinates keyword) (Parser.coordinates keyword) :=
  expression_balances.bind fun _ => (moreCoordinates_balances keyword 2).bind fun _ => .pure _

/-- An expression between parentheses balances. -/
theorem parenthesised_balances (keyword : Keyword) (place : Place) :
    Balances floor 0 0 (parenthesised keyword place) (Parser.parenthesised keyword place) :=
  (Balances.expect _ _).bind fun _ => expression_balances.bind fun inner =>
    (Balances.expect _ _).bind fun _ => .pure inner

/-- The end of an action opens and closes nothing. -/
theorem finishAction_balances (keyword : Keyword) :
    Balances floor 0 0 (finishAction keyword) (Parser.finishAction keyword) :=
  (Balances.expect _ _).bind fun _ => .expect _ _

/-- A motion balances. -/
theorem motion_balances : Balances floor 0 0 motion Parser.motion := by
  have offset : Balances floor 0 0
      (do
        let target ← expression
        if ← accept (.symbol .comma) then
          return (some target, .offset (← coordinates .move))
        else
          reportAt .expectedDirection (SyntaxFault.expectedDirection (← peek)).message target.span
          stop : Meter (Option Expr × Motion))
      (do
        let target ← Parser.expression
        if ← Parser.accept (.symbol .comma) then
          return (some target, .offset (← Parser.coordinates .move))
        else
          Parser.failAt (.expectedDirection (← Parser.peek)) target.span) := by
    refine expression_balances.bind fun target => (Balances.accept _).bind fun accepted => ?_
    cases accepted with
    | true => exact (coordinates_balances .move).bind fun offset => .pure _
    | false =>
      exact Balances.peek.bind fun found => .failAt (.expectedDirection found) target.span
  refine Balances.peek.bind fun kind => Balances.peekSecond.bind fun second => ?_
  cases kind.direction? with
  | none => exact offset
  | some direction =>
    cases second with
    | symbol symbol =>
      cases symbol with
      | rightParen => exact Balances.skip.bind fun _ => .pure _
      | _ => exact offset
    | _ => exact offset

/-- Opponents balance. -/
theorem opponents_balances : Balances floor 0 0 opponents Parser.opponents := by
  have closed (pair : Option Expr × Expr) : Balances floor 0 0
      (do
        if (← peek) = .symbol .comma then
          report .tooManyArguments SyntaxFault.tooManyArguments.message
          stop
        else
          return pair)
      (do
        if (← Parser.peek) = .symbol .comma then Parser.fail .tooManyArguments
        else return pair) := by
    refine Balances.peek.bind fun kind => ?_
    by_cases comma : kind = .symbol .comma
    · rw [if_pos comma, if_pos comma]
      exact .fail .tooManyArguments
    · rw [if_neg comma, if_neg comma]
      exact .pure pair
  refine expression_balances.bind fun first => (Balances.accept _).bind fun accepted => ?_
  cases accepted with
  | true => exact expression_balances.bind fun second => closed _
  | false => exact closed _

/-- Statements up to a closing token balance if each of them does. -/
theorem statements_balances (closing : TokenKind → Bool) {statement : Meter Stmt}
    {parser : Parser Stmt} (balances : Balances floor 0 0 statement parser) (count : Nat) :
    Balances floor 0 0 (statements closing statement count)
      (Parser.statements closing parser count) := by
  induction count with
  | zero => exact .pure []
  | succ count ih =>
    refine Balances.peek.bind fun kind => ?_
    cases closing kind with
    | true => exact .pure []
    | false => exact balances.bind fun head => ih.bind fun rest => .pure _

/-- The parts of a statement balance if its blocks do. -/
theorem statementParts_balances {block : Place → Meter (Block Stmt)}
    {parser : Place → Parser (Block Stmt)}
    (balances : ∀ place, Balances floor 0 0 (block place) (parser place)) :
    Balances floor 0 0 (statementParts block) (Parser.statement parser) := by
  intro cursor
  apply BalancesAt.nextSpan
  apply BalancesAt.peek
  apply BalancesAt.peekSecond
  generalize here : cursor.span = start
  have finished (build : Span → Stmt) : Balances floor 0 0
      (do return build (start.merge (← previousSpan)) : Meter Stmt)
      (do return build (start.merge (← Parser.previousSpan)) : Parser Stmt) :=
    Balances.previousSpan.bind fun last => .pure _
  have evaluate : Balances floor 0 0
      (do
        let expr ← expression
        expect .semicolon Place.afterExpression.phrase
        return .evaluate expr (expr.span.merge (← previousSpan)) : Meter Stmt)
      (do
        let expr ← Parser.expression
        Parser.expect .semicolon .afterExpression
        return .evaluate expr (expr.span.merge (← Parser.previousSpan)) : Parser Stmt) :=
    expression_balances.bind fun expr => .upTo _ _ _
  cases first : cursor.kind with
  | keyword keyword =>
    apply Balances.at_cursor
    cases keyword with
    | ifWord =>
      refine Balances.skip.bind fun _ => (parenthesised_balances _ _).bind fun condition => ?_
      refine (balances _).bind fun consequent => (Balances.accept _).bind fun accepted => ?_
      cases accepted with
      | true => exact ((balances _).map some).bind fun alternative => finished _
      | false => exact finished _
    | whileWord =>
      refine Balances.skip.bind fun _ => (parenthesised_balances _ _).bind fun condition => ?_
      exact (balances _).bind fun body => finished _
    | repeatWord =>
      refine Balances.skip.bind fun _ => (parenthesised_balances _ _).bind fun count => ?_
      exact (balances _).bind fun body => finished _
    | move =>
      refine Balances.skip.bind fun _ => (Balances.expect _ _).bind fun _ => ?_
      exact motion_balances.bind fun found => (finishAction_balances _).bind fun _ => finished _
    | moveTo =>
      refine Balances.skip.bind fun _ => (Balances.expect _ _).bind fun _ => ?_
      exact (coordinates_balances _).bind fun place =>
        (finishAction_balances _).bind fun _ => finished _
    | attack =>
      refine Balances.skip.bind fun _ => (Balances.expect _ _).bind fun _ => ?_
      exact opponents_balances.bind fun found => (finishAction_balances _).bind fun _ => finished _
    | _ => exact evaluate
  | identifier name =>
    cases second : cursor.secondKind with
    | symbol symbol =>
      cases symbol with
      | assign =>
        subst here
        exact .named first second (expression_balances.bind fun value => .upTo _ _ _)
      | _ => exact evaluate cursor
    | _ => exact evaluate cursor
  | _ => exact evaluate cursor

/-- A statement balances if its blocks do. -/
theorem statement_balances {block : Place → Meter (Block Stmt)}
    {parser : Place → Parser (Block Stmt)}
    (balances : ∀ place, Balances floor 0 0 (block place) (parser place)) :
    Balances floor 0 0 (statement block) (Parser.statement parser) :=
  .call .statement (statementParts_balances balances)

/-- A block within a number of levels balances above the levels that are gone. -/
theorem blockWithin_balances (room : Nat) (place : Place) (enough : maxNesting ≤ floor + room) :
    Balances floor 0 0 (blockWithin room place) (Parser.blockWithin room place) := by
  induction room generalizing floor place with
  | zero => exact .call .block ((Balances.expect _ _).bind fun _ => .refuse enough .stop)
  | succ room ih =>
    have inside (count : Nat) : Balances (floor + 1) 0 0
        (statements Parser.endsBlock (statement (blockWithin room)) count)
        (Parser.statements Parser.endsBlock (Parser.statement (Parser.blockWithin room)) count) :=
      statements_balances _ (statement_balances fun place => ih place (by omega)) count
    refine .call .block (Balances.nextSpan.bind fun start => (Balances.expect _ _).bind fun _ => ?_)
    simp only [Parser.nested_eq, Parser.closing, bind_assoc, pure_bind]
    refine Balances.enter ?_ .stop
    refine Balances.remaining.bind fun count => (inside count).held.bind fun stmts => ?_
    exact Balances.release.bind fun _ => .upTo _ _ _

/-- A block balances anywhere. -/
theorem block_balances (place : Place) :
    Balances floor 0 0 (block place) (Parser.block place) :=
  blockWithin_balances maxNesting place (Nat.le_add_left _ _)

/-- A program balances. -/
theorem program_balances : Balances floor 0 0 program Parser.program := by
  refine Balances.nextSpan.bind fun start => Balances.remaining.bind fun count => ?_
  refine (statements_balances _ (statement_balances block_balances) count).bind fun stmts => ?_
  exact Balances.previousSpan.bind fun last => .pure _

end Statements

end Meter

/-! ### Programs -/

/-- On the surface of a program no level is open between two statements, and whatever else happens
does so in one of its statements, which began with no level open. -/
structure Moment.Surfaces (moment : Moment) : Prop where
  /-- Outside of all calls no level is open. -/
  between : moment.running = [] → moment.depth = 0
  /-- The outermost call is a statement that began with no level open. -/
  outermost : ∀ activation ∈ moment.running.getLast?, activation = ⟨.statement, 0⟩

/-- Whether a statement of the program begins. -/
def Moment.beginsStatement (moment : Moment) : Bool :=
  moment.event = .begun && moment.running = [⟨.statement, 0⟩]

/-- What happens within a statement that began with no level open. -/
theorem Moment.Surfaces.of_suffix {moment : Moment}
    (inside : [⟨.statement, 0⟩] <:+ moment.running) : moment.Surfaces := by
  obtain ⟨inner, running⟩ := inside
  constructor
  · intro outside
    rw [outside] at running
    simp at running
  · intro activation found
    rw [← running, List.getLast?_concat] at found
    exact (Option.some.inj found).symm

namespace Meter

section Programs

variable {α β : Type}

/-- Called from outside of all calls with no level open, a meter stays on the surface. When it gives
a result no level is open, and its result is related to the number of statements that it began. -/
def Surfaces (post : α → Nat → Prop) (meter : Meter α) : Prop :=
  ∀ file reading, reading.cursor.depth = 0 →
    (∀ moment ∈ (meter file [] reading).moments, moment.Surfaces) ∧
      ∀ value, (meter file [] reading).result = some value →
        (meter file [] reading).reading.cursor.depth = 0 ∧
          post value ((meter file [] reading).moments.countP Moment.beginsStatement)

namespace Surfaces

variable {post : β → Nat → Prop}

/-- A result that is given begins nothing. -/
theorem pure {value : β} (holds : post value 0) : Surfaces post (Pure.pure value) := by
  intro file reading outside
  refine ⟨nofun, fun result ended => ⟨outside, ?_⟩⟩
  cases ended
  exact holds

/-- Two meters are run one after the other. -/
theorem bind {early : α → Nat → Prop} {meter : Meter α} {next : α → Meter β}
    (first : Surfaces early meter)
    (second : ∀ value begun, early value begun →
      Surfaces (fun result more => post result (begun + more)) (next value)) :
    Surfaces post (meter >>= next) := by
  intro file reading outside
  obtain ⟨surfaces, closed⟩ := first file reading outside
  let run := meter file [] reading
  have whole : (meter >>= next) file [] reading =
      run.andThen fun value => next value file [] := rfl
  rw [whole]
  cases ended : run.result with
  | none =>
    rw [Metered.andThen_of_none _ ended]
    exact ⟨surfaces, nofun⟩
  | some value =>
    obtain ⟨still, begun⟩ := closed value ended
    obtain ⟨further, closed⟩ := second value _ begun file _ still
    rw [Metered.andThen_of_some _ ended, List.countP_append]
    exact ⟨List.forall_mem_append.mpr ⟨surfaces, further⟩, closed⟩

/-- To look at tokens stays on the surface and begins nothing. -/
theorem look (tell : Cursor → α) : Surfaces (fun _ begun => begun = 0) (Meter.look tell) := by
  intro file reading outside
  have surface : Moment.Surfaces ⟨.looked, [], reading.cursor.depth⟩ := ⟨fun _ => outside, nofun⟩
  exact ⟨List.forall_mem_singleton.mpr surface, fun _ _ => ⟨outside, rfl⟩⟩

/-- A statement begins once on the surface, and comes back to it. -/
theorem statement {block : Place → Meter (Block Stmt)} {parser : Place → Parser (Block Stmt)}
    (balances : ∀ place, Balances 0 0 0 (block place) (parser place)) :
    Surfaces (fun _ begun => begun = 1) (Meter.statement block) := by
  intro file reading outside
  have within : reading.cursor.depth ≤ maxNesting := by rw [outside]; decide
  obtain ⟨-, ends⟩ := statement_balances balances reading.cursor file [] reading.errors 0
    (Nat.le_refl 0) ⟨nofun, outside, within⟩
  let outermost : Activation := ⟨.statement, reading.cursor.depth⟩
  have entered : ∀ activation ∈ [outermost], activation.entry ≤ 0 :=
    List.forall_mem_singleton.mpr (Nat.le_of_eq outside)
  let run := statementParts block file [outermost] reading
  obtain ⟨parts, -⟩ := statementParts_balances balances reading.cursor file [outermost]
    reading.errors 0 (Nat.le_refl 0) ⟨entered, outside, within⟩
  have inside : ∀ moment ∈ (Meter.statement block file [] reading).moments,
      [⟨.statement, reading.cursor.depth⟩] <:+ moment.running :=
    List.forall_mem_cons.mpr ⟨List.suffix_refl _, List.forall_mem_append.mpr
      ⟨parts.inside, List.forall_mem_singleton.mpr (List.suffix_refl _)⟩⟩
  rw [outside] at inside
  -- What begins further inside is no statement of the program, and the end is no beginning.
  have others : run.moments.countP Moment.beginsStatement = 0 := by
    rw [List.countP_eq_zero]
    intro moment found begins
    simp only [Moment.beginsStatement, Bool.and_eq_true, decide_eq_true_eq] at begins
    have deeper := parts.deeper moment found begins.1
    rw [begins.2] at deeper
    exact Nat.lt_irrefl 1 deeper
  let begun : Moment := ⟨.begun, [outermost], reading.cursor.depth⟩
  let ended : Moment := ⟨run.ending, [outermost], run.reading.cursor.depth⟩
  have first : begun.beginsStatement = true := by
    simp [Moment.beginsStatement, begun, outermost, outside]
  have last : ended.beginsStatement = false := by
    simp [Moment.beginsStatement, ended, run.ending_ne_begun]
  have once :
      (Meter.statement block file [] reading).moments.countP Moment.beginsStatement = 1 := by
    change (begun :: run.moments ++ [ended]).countP Moment.beginsStatement = 1
    rw [List.countP_append, List.countP_cons, List.countP_singleton, others, first, last]
    rfl
  refine ⟨fun moment found => .of_suffix (inside moment found), fun value result => ⟨?_, once⟩⟩
  exact ends.depth_eq result

/-- Statements one after the other stay on the surface, and each of them begins once. -/
theorem statements (closing : TokenKind → Bool) {statement : Meter Stmt}
    (surfaces : Surfaces (fun _ begun => begun = 1) statement) (count : Nat) :
    Surfaces (fun stmts begun => begun = stmts.length)
      (Meter.statements closing statement count) := by
  induction count with
  | zero => exact .pure rfl
  | succ count ih =>
    apply (look Cursor.kind).bind
    rintro kind _ rfl
    cases closing kind with
    | true => exact .pure rfl
    | false =>
      apply surfaces.bind
      rintro head _ rfl
      apply ih.bind
      rintro rest _ rfl
      apply Surfaces.pure
      rw [List.length_cons]
      omega

/-- A program stays on the surface, and each of its statements begins once. -/
theorem program : Surfaces (fun program begun => begun = program.stmts.length) Meter.program := by
  apply (look Cursor.span).bind
  rintro start _ rfl
  apply (look fun cursor => cursor.rest.length).bind
  rintro count _ rfl
  apply (statements _ (statement block_balances) count).bind
  rintro stmts _ rfl
  apply (look Cursor.previous).bind
  rintro last _ rfl
  apply Surfaces.pure
  simp only [Nat.zero_add, Nat.add_zero]

end Surfaces

end Programs

end Meter

/-- Reading a program with a meter in which the levels come out even. -/
structure Metered.Balanced (run : Metered Program) : Prop where
  /-- The moments tell every change of the number of open levels, from the first one on, and no
  more levels are closed than are open. -/
  leads : Leads 0 run.moments run.reading.cursor.depth
  /-- Every moment has a right number of open levels. -/
  balanced : ∀ moment ∈ run.moments, moment.Balanced
  /-- No level is open between the statements of the program. -/
  surfaces : ∀ moment ∈ run.moments, moment.Surfaces
  /-- With a result no level is left open, and each statement of it began with no level open. -/
  finished : ∀ program, run.result = some program →
    run.reading.cursor.depth = 0 ∧
      run.moments.countP Moment.beginsStatement = program.stmts.length

namespace SourceFile

/-- Reading tokens as a program with a meter gives what parsing them gives: a program and no error
that was written down, or no program and the one error. -/
theorem readProgram_answer (file : SourceFile) (tokens : List Token) :
    (file.readProgram tokens).answer = .ofExcept (file.parse tokens) := by
  obtain ⟨-, ends⟩ := Meter.program_balances (.start tokens) file [] .empty 0 (Nat.le_refl 0)
    ⟨nofun, rfl, Nat.zero_le maxNesting⟩
  change (file.readProgram tokens).Ends file .empty 0 (Parser.program (.start tokens)) at ends
  have ran : Parser.program.run (.start tokens) = Parser.program (.start tokens) := rfl
  unfold parse Metered.answer
  rw [ran]
  cases read : Parser.program (.start tokens) with
  | ok ended =>
    rw [read] at ends
    obtain ⟨result, reading, -⟩ := ends
    rw [result, reading]
    rfl
  | error error =>
    rw [read] at ends
    obtain ⟨result, told⟩ := ends
    rw [result, told]
    rfl

/-- The levels of nesting come out even, whatever the tokens are: reading them with a meter gives
what reading them gives, and through all of its moments no more levels are open than may be, no call
has fewer than it began with and each call that succeeds ends with as many, no more are closed than
are open, and none is open before a statement of the program. -/
theorem parse_balanced (file : SourceFile) (tokens : List Token) :
    (file.readProgram tokens).answer = .ofExcept (file.parse tokens) ∧
      (file.readProgram tokens).Balanced := by
  obtain ⟨settles, -⟩ := Meter.program_balances (.start tokens) file [] .empty 0 (Nat.le_refl 0)
    ⟨nofun, rfl, Nat.zero_le maxNesting⟩
  obtain ⟨surfaces, finished⟩ := Meter.Surfaces.program file ⟨.start tokens, .empty⟩ rfl
  exact ⟨file.readProgram_answer tokens, settles.leads, settles.balanced, surfaces, finished⟩

end SourceFile

/-- In `-1 * 2 + 3;` the sign and the product give their levels back, so that the sum opens the same
level again. -/
example :
    ((SourceFile.readProgram default ([.symbol .minus, .number 1, .symbol .star, .number 2,
      .symbol .plus, .number 3, .symbol .semicolon].map fun kind =>
        ⟨kind, "", .point .first⟩)).moments.filter
          fun moment => moment.event = .opened).map Moment.depth = [1, 2, 2, 2] := by
  decide

end Waggle
