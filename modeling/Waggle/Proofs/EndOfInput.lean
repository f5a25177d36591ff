import Waggle.Compile
import Waggle.Proofs.Cutoff
import Waggle.Proofs.Locality

/-!
# Nothing is read beyond the end of the input

Every parser heeds the end of the input, one lemma for each of them (`Parser.Heeds`). Where it looks
at two tokens, the first one is not the end or the second one does not matter; where it steps over a
token, it has seen that this is another one. The loops take a token in each round, so that the
number of rounds they are given is never what ends them.
-/

namespace Waggle

namespace Parser

/-! ### Expressions -/

/-- The end of the input is no operator. -/
theorem ne_endOfInput_of_operator {level : Level} {kind : TokenKind} {op : BinaryOp}
    (found : level.operator? kind = some op) : kind ≠ .endOfInput := by
  obtain ⟨rfl, -⟩ := Level.operator?_eq_some_iff.mp found
  simp

/-- A chain takes its operators and operands. -/
theorem chain_heeds (level : Level) {operand : Parser Expr}
    (heeds : ∀ cursor, operand.Heeds 1 cursor) (levels : Nat) (left : Expr) (cursor : Cursor) :
    (chain level.operator? operand levels left).Heeds 0 cursor := by
  induction levels generalizing left cursor with
  | zero =>
    refine .peek ?_
    split
    · exact .pure _
    · exact .skip rfl (ne_endOfInput_of_operator ‹_›) (.fail _)
  | succ levels ih =>
    refine .peek ?_
    split
    · exact .pure _
    · refine .skip rfl (ne_endOfInput_of_operator ‹_›) (.nested ?_)
      exact (heeds _).bind fun right after => ih _ after

/-- A chain ends where no level is left for a further operator. -/
theorem chain_succ (level : Level) {operand : Parser Expr}
    (heeds : ∀ cursor, operand.Heeds 1 cursor) (levels : Nat) (left : Expr) (cursor : Cursor)
    (deep : maxNesting ≤ cursor.depth + levels) :
    chain level.operator? operand (levels + 1) left cursor =
      chain level.operator? operand levels left cursor := by
  induction levels generalizing left cursor with
  | zero =>
    have full : maxNesting ≤ cursor.advance.depth := cursor.depth_advance ▸ deep
    rw [chain, chain, bind_apply, bind_apply, peek_apply]
    dsimp only
    cases level.operator? cursor.kind with
    | none => rfl
    | some op =>
      -- Without a round left, the operator is refused as one that no level can be opened for.
      dsimp only
      rw [bind_apply, bind_apply, skip_apply]
      dsimp only
      rw [nested_apply, if_pos full]
      rfl
  | succ levels ih =>
    rw [chain, chain, bind_apply, bind_apply, peek_apply]
    dsimp only
    cases level.operator? cursor.kind with
    | none => rfl
    | some op =>
      refine bind_congr_ok fun _ after ran => ?_
      cases ran
      refine nested_congr (bind_congr_ok fun right between ran => ih _ between ?_)
      have depth : between.depth = cursor.advance.depth + 1 :=
        ((heeds _).advances right between ran).depth_eq
      rw [depth, cursor.depth_advance]
      omega

/-- A chained parser takes an operand and the chain after it. -/
theorem chained_heeds (level : Level) {operand : Parser Expr}
    (heeds : ∀ cursor, operand.Heeds 1 cursor) (cursor : Cursor) :
    (chained level.operator? operand).Heeds 1 cursor :=
  (heeds cursor).bind fun left after => chain_heeds level heeds maxNesting left after

/-- A signed parser takes signs and what stands behind them. -/
theorem signed_heeds {primary : Parser Expr} (heeds : ∀ cursor, primary.Heeds 1 cursor)
    (levels : Nat) (cursor : Cursor) : (signed primary levels).Heeds 1 cursor := by
  induction levels generalizing cursor with
  | zero =>
    refine .peek ?_
    split
    · rename_i found
      exact .skip found (by simp) (.fail _)
    · exact heeds cursor
  | succ levels ih =>
    refine .peek ?_
    split
    · rename_i found
      refine .nextSpan (.skip found (by simp) ?_)
      exact (Heeds.nested (ih _)).bind fun operand after => .pure _
    · exact heeds cursor

/-- Items with commas between them are taken. -/
theorem commaSeparated_heeds {item : Parser Expr} (heeds : ∀ cursor, item.Heeds 1 cursor)
    (commas : Nat) (cursor : Cursor) : (commaSeparated item commas).Heeds 1 cursor := by
  induction commas generalizing cursor with
  | zero => exact (heeds cursor).bind fun head after => .pure _
  | succ commas ih =>
    refine (heeds cursor).bind fun head after => .accept (by simp) ?_ (.pure _)
    exact (ih _).bind fun rest last => .pure _

/-- Items come to an end, because each takes a token. -/
theorem commaSeparated_succ {item : Parser Expr} (heeds : ∀ cursor, item.Heeds 1 cursor)
    (commas : Nat) (cursor : Cursor) (few : cursor.ahead.length ≤ commas) :
    commaSeparated item (commas + 1) cursor = commaSeparated item commas cursor := by
  induction commas generalizing cursor with
  | zero =>
    rw [commaSeparated, commaSeparated]
    refine bind_congr_ok fun head after ran => ?_
    have taken := ((heeds cursor).advances head after ran).length_ahead_le
    omega
  | succ commas ih =>
    conv_lhs => rw [commaSeparated]
    conv_rhs => rw [commaSeparated]
    refine bind_congr_ok fun head after ran => ?_
    have taken := ((heeds cursor).advances head after ran).length_ahead_le
    refine bind_congr_ok fun accepted between found => ?_
    cases accepted with
    | false => rfl
    | true =>
      have passed := ((Heeds.acceptAny (by simp) after).advances true between found).length_ahead_le
      rw [if_pos rfl, if_pos rfl, bind_apply, bind_apply, ih between (by omega)]

/-- Arguments are taken up to the closing parenthesis. -/
theorem callArguments_heeds {expression : Parser Expr}
    (heeds : ∀ cursor, expression.Heeds 1 cursor) (cursor : Cursor) :
    (callArguments expression).Heeds 0 cursor := by
  refine .peek ?_
  split
  · exact .pure _
  · refine .remaining (fun count => (commaSeparated_heeds heeds count cursor).atLeast (by omega)) ?_
    exact .of_succ fun count few => commaSeparated_succ heeds count cursor few

/-- A primary parser takes a literal, a name, a call or an expression between parentheses. -/
theorem primary_heeds {expression : Parser Expr} (heeds : ∀ cursor, expression.Heeds 1 cursor)
    (cursor : Cursor) : (primary expression).Heeds 1 cursor := by
  refine .nextSpan (.peek ?_)
  split
  · rename_i value found
    obtain ⟨literal, kind, -⟩ := literal?_eq_some_iff.mp found
    exact .skip kind (by cases literal <;> simp [Literal.kind]) (.pure _)
  · split
    · rename_i opening
      refine .skip opening (by simp) ((heeds _).bind fun inner between => ?_)
      exact (Heeds.expect _ _ between).bind fun _ after => .previousSpan (.pure _)
    · rename_i name word
      refine .peekSecond (fun last => absurd (word.symm.trans last) (by simp)) ?_
      split
      · rename_i opening
        refine .skip word (by simp) (.skip (cursor.kind_advance.trans opening) (by simp) ?_)
        refine (callArguments_heeds heeds _).bind fun arguments between => ?_
        exact (Heeds.expect _ _ between).bind fun _ after => .previousSpan (.pure _)
      · exact .skip word (by simp) (.pure _)
    · exact .fail _

/-- What the operators of a level stand between. -/
def operandAt (expression : Parser Expr) : Level → Parser Expr
  | .equation => chained sum? (chained product? (operand expression))
  | .sum => chained product? (operand expression)
  | .product => operand expression

/-- The operands of every level are taken. -/
theorem operandAt_heeds {expression : Parser Expr} (heeds : ∀ cursor, expression.Heeds 1 cursor)
    (level : Level) (cursor : Cursor) : (operandAt expression level).Heeds 1 cursor := by
  have tight : ∀ cursor, (operand expression).Heeds 1 cursor :=
    signed_heeds (primary_heeds heeds) maxNesting
  have products := chained_heeds .product tight
  cases level with
  | equation => exact chained_heeds .sum products cursor
  | sum => exact products cursor
  | product => exact tight cursor

/-- An expression is taken. -/
theorem expressionWithin_heeds (levels : Nat) (cursor : Cursor) :
    (expressionWithin levels).Heeds 1 cursor := by
  induction levels generalizing cursor with
  | zero => exact .fail _
  | succ levels ih => exact .nested (chained_heeds .equation (operandAt_heeds ih .equation) _)

/-- An expression is taken. -/
theorem expression_heeds (cursor : Cursor) : expression.Heeds 1 cursor :=
  expressionWithin_heeds maxNesting cursor

/-! ### Statements -/

/-- Further coordinates are taken. -/
theorem moreCoordinates_heeds (keyword : Keyword) (room : Nat) (cursor : Cursor) :
    (moreCoordinates keyword room).Heeds 0 cursor := by
  induction room generalizing cursor with
  | zero =>
    refine .peek ?_
    split
    · exact .fail _
    · exact .pure _
  | succ room ih =>
    refine .accept (by simp) ?_ (.pure _)
    exact (expression_heeds _).bind fun head after => (ih after).bind fun rest last => .pure _

/-- There are no more further coordinates than there is room for. -/
theorem moreCoordinates_length (keyword : Keyword) (room : Nat) (cursor : Cursor) :
    (moreCoordinates keyword room).Ensures cursor fun result _ => result.length ≤ room := by
  induction room generalizing cursor with
  | zero =>
    refine .step (peek_apply cursor) ?_
    split
    · exact .fail
    · exact .pure (Nat.le_refl 0)
  | succ room ih =>
    refine Ensures.bind (fun _ _ ran => ran) fun accepted after _ => ?_
    split
    · refine Ensures.bind (fun _ _ ran => ran) fun head between _ => ?_
      exact (ih between).bind fun rest last short => .pure (Nat.succ_le_succ short)
    · exact .pure (Nat.zero_le _)

/-- Coordinates are taken. -/
theorem coordinates_heeds (keyword : Keyword) (cursor : Cursor) :
    (coordinates keyword).Heeds 1 cursor :=
  (expression_heeds cursor).bind fun _ after =>
    (moreCoordinates_heeds keyword 2 after).bind fun _ _ => .pure _

/-- There are at most three coordinates. -/
theorem coordinates_length (keyword : Keyword) (cursor : Cursor) :
    (coordinates keyword).Ensures cursor fun result _ => result.length ≤ 3 :=
  Ensures.bind (fun _ _ ran => ran) fun _ after _ =>
    (moreCoordinates_length keyword 2 after).bind fun _ _ short => .pure (Nat.succ_le_succ short)

/-- An expression between parentheses is taken with them. -/
theorem parenthesised_heeds (keyword : Keyword) (place : Place) (cursor : Cursor) :
    (parenthesised keyword place).Heeds 3 cursor :=
  (Heeds.expect _ _ cursor).bind fun _ opened => (expression_heeds opened).bind fun _ between =>
    (Heeds.expect _ _ between).bind fun _ _ => .pure _

/-- The end of an action is taken. -/
theorem finishAction_heeds (keyword : Keyword) (cursor : Cursor) :
    (finishAction keyword).Heeds 2 cursor :=
  (Heeds.expect _ _ cursor).bind fun _ after => Heeds.expect _ _ after

/-- A direction is taken, or a target with coordinates. -/
theorem motion_heeds (cursor : Cursor) : motion.Heeds 1 cursor := by
  refine .peek (.peekSecond (fun last one other => by rw [last]; rfl) ?_)
  split
  · rename_i heading found _
    exact .skip (direction?_eq_some_iff.mp found) (by simp) (.pure _)
  · refine (expression_heeds cursor).bind fun target after => .accept (by simp) ?_ ?_
    · exact (coordinates_heeds .move _).bind fun offset last => .pure _
    · exact .peek (.failAt _ _)

/-- A target is taken, or an attacker and a target. -/
theorem opponents_heeds (cursor : Cursor) : opponents.Heeds 1 cursor := by
  have closed (pair : Option Expr × Expr) (cursor : Cursor) :
      (do if (← peek) = .symbol .comma then fail .tooManyArguments else return pair :
        Parser (Option Expr × Expr)).Heeds 0 cursor := by
    refine .peek ?_
    split
    · exact .fail _
    · exact .pure _
  refine (expression_heeds cursor).bind fun first after => .accept (by simp) ?_ ?_
  · exact (expression_heeds _).bind fun second last => closed (some first, second) last
  · exact closed (none, first) after

/-- Statements are taken. -/
theorem statements_heeds (closing : TokenKind → Bool) {statement : Parser Stmt}
    (heeds : ∀ cursor, statement.Heeds 1 cursor) (count : Nat) (cursor : Cursor) :
    (statements closing statement count).Heeds 0 cursor := by
  induction count generalizing cursor with
  | zero => exact .pure _
  | succ count ih =>
    refine .peek ?_
    split
    · exact .pure _
    · exact (heeds cursor).bind fun head after => (ih after).bind fun rest last => .pure _

/-- Statements come to an end, because each takes a token. -/
theorem statements_succ {closing : TokenKind → Bool} (closes : closing .endOfInput = true)
    {statement : Parser Stmt} (heeds : ∀ cursor, statement.Heeds 1 cursor) (count : Nat)
    (cursor : Cursor) (few : cursor.ahead.length ≤ count) :
    statements closing statement (count + 1) cursor =
      statements closing statement count cursor := by
  induction count generalizing cursor with
  | zero =>
    have last : cursor.kind = .endOfInput := Cursor.kind_of_ahead (Nat.le_zero.mp few)
    rw [statements_apply, last, closes, if_pos rfl]
    rfl
  | succ count ih =>
    rw [statements_apply, statements_apply]
    split
    · rfl
    · refine bind_congr_ok fun head after ran => ?_
      have taken := ((heeds cursor).advances head after ran).length_ahead_le
      rw [bind_apply, bind_apply, ih after (by omega)]

/-- A statement is taken if its blocks are. -/
theorem statement_heeds {block : Place → Parser (Block Stmt)}
    (heeds : ∀ place cursor, (block place).Heeds 1 cursor) (cursor : Cursor) :
    (statement block).Heeds 1 cursor := by
  have finish (start : Span) (build : Span → Stmt) (cursor : Cursor) :
      (do return build (start.merge (← previousSpan)) : Parser Stmt).Heeds 0 cursor :=
    .previousSpan (.pure _)
  refine .nextSpan (.peek (.peekSecond (fun last one other => by rw [last]) ?_))
  split
  · rename_i found
    refine .skip found (by simp) ((parenthesised_heeds _ _ _).bind fun condition opened => ?_)
    refine (heeds _ opened).bind fun consequent between => .accept (by simp) ?_ ?_
    · simp only [if_true, map_eq_pure_bind, bind_assoc, pure_bind]
      exact (heeds _ _).bind fun alternative after => finish _ _ after
    · exact finish _ _ between
  · rename_i found
    refine .skip found (by simp) ((parenthesised_heeds _ _ _).bind fun condition opened => ?_)
    exact (heeds _ opened).bind fun body after => finish _ _ after
  · rename_i found
    refine .skip found (by simp) ((parenthesised_heeds _ _ _).bind fun count opened => ?_)
    exact (heeds _ opened).bind fun body after => finish _ _ after
  · rename_i found
    refine .skip found (by simp) ((Heeds.expect _ _ _).bind fun _ opened => ?_)
    refine (motion_heeds opened).bind fun _ between => ?_
    exact (finishAction_heeds _ between).bind fun _ after => finish _ _ after
  · rename_i found
    refine .skip found (by simp) ((Heeds.expect _ _ _).bind fun _ opened => ?_)
    refine (coordinates_heeds _ opened).bind fun _ between => ?_
    exact (finishAction_heeds _ between).bind fun _ after => finish _ _ after
  · rename_i found
    refine .skip found (by simp) ((Heeds.expect _ _ _).bind fun _ opened => ?_)
    refine (opponents_heeds opened).bind fun _ between => ?_
    exact (finishAction_heeds _ between).bind fun _ after => finish _ _ after
  · rename_i name found second
    refine .skip found (by simp) (.skip (cursor.kind_advance.trans second) (by simp) ?_)
    refine (expression_heeds _).bind fun value between => ?_
    exact (Heeds.expect _ _ between).bind fun _ after => finish _ _ after
  · refine (expression_heeds cursor).bind fun expr between => ?_
    exact (Heeds.expect _ _ between).bind fun _ after => finish _ _ after

/-- Statements up to a closing token are taken, as many as there are. -/
theorem statementsLeft_heeds (closing : TokenKind → Bool) (closes : closing .endOfInput = true)
    {statement : Parser Stmt} (heeds : ∀ cursor, statement.Heeds 1 cursor) (cursor : Cursor) :
    (remaining >>= statements closing statement).Heeds 0 cursor :=
  .remaining (fun count => statements_heeds closing heeds count cursor)
    (.of_succ fun count few => statements_succ closes heeds count cursor few)

/-- A block is taken. -/
theorem blockWithin_heeds (levels : Nat) (place : Place) (cursor : Cursor) :
    (blockWithin levels place).Heeds 1 cursor := by
  induction levels generalizing place cursor with
  | zero => exact (Heeds.expect _ _ cursor).bind fun _ _ => .fail _
  | succ levels ih =>
    refine .nextSpan ((Heeds.expect _ _ cursor).bind fun _ opened => ?_)
    have inside := statementsLeft_heeds endsBlock rfl (statement_heeds ih)
    refine (Heeds.nested (inside _)).bind fun stmts between => ?_
    exact (Heeds.expect _ _ between).bind fun _ after => .previousSpan (.pure _)

/-- A program is taken. -/
theorem program_heeds (cursor : Cursor) : program.Heeds 0 cursor := by
  have inside := statementsLeft_heeds endsProgram rfl
    (statement_heeds (blockWithin_heeds maxNesting))
  refine .nextSpan ?_
  rw [← bind_assoc]
  exact (inside cursor).bind fun stmts after => .previousSpan (.pure _)

end Parser

namespace SourceFile

/-- Tokens that are the same when they are cut at the end of the input are parsed alike. -/
theorem parse_congr (file : SourceFile) {tokens other : List Token}
    (same : (Cursor.start tokens).ended = (Cursor.start other).ended) :
    file.parse tokens = file.parse other := by
  have agrees : (Parser.program (.start tokens)).map (Prod.map id Cursor.ended) =
      (Parser.program (.start other)).map (Prod.map id Cursor.ended) := by
    rw [← (Parser.program_heeds (.start tokens)).agrees, same,
      (Parser.program_heeds (.start other)).agrees]
  have ran (tokens : List Token) :
      Parser.program.run (.start tokens) = Parser.program (.start tokens) := rfl
  rw [parse, parse, ran, ran]
  generalize Parser.program (.start tokens) = one at agrees
  generalize Parser.program (.start other) = two at agrees
  rcases one with error | ⟨program, after⟩ <;> rcases two with error' | ⟨program', after'⟩
  · obtain rfl : error = error' := Except.error.inj agrees
    rfl
  · cases agrees
  · cases agrees
  · obtain rfl : program = program' := congrArg Prod.fst (Except.ok.inj agrees)
    rfl

/-- Parsing never looks behind the end of the input, and it comes to an end.

What stands behind the first end of the input makes no difference, and tokens without one are parsed
as if it stood at the last of them. An expression or a statement that is read takes at least one
token, and never the end of the input. So the statements of a program or a block and the arguments
of a call come to their end within as many rounds as there are tokens, a chain of operators within
the limit of nesting, and coordinates with the third one. -/
theorem parse_stops_at_end (file : SourceFile) :
    (∀ tokens rest : List Token, .endOfInput ∈ tokens.map Token.kind →
      file.parse (tokens ++ rest) = file.parse (throughEnd tokens)) ∧
    (∀ (tokens : List Token) (last : Token) (text : String),
      .endOfInput ∉ tokens.map Token.kind → tokens.getLast? = some last →
        file.parse tokens = file.parse (tokens ++ [⟨.endOfInput, text, last.span⟩])) ∧
    (∀ levels cursor,
      (Parser.expressionWithin levels).Ensures cursor (fun _ after => cursor.Advances 1 after) ∧
      (Parser.statement (Parser.blockWithin levels)).Ensures cursor
        (fun _ after => cursor.Advances 1 after)) ∧
    (∀ levels cursor,
      Parser.Settles (Parser.statements Parser.endsProgram
        (Parser.statement (Parser.blockWithin levels))) cursor.rest.length cursor ∧
      Parser.Settles (Parser.statements Parser.endsBlock
        (Parser.statement (Parser.blockWithin levels))) cursor.rest.length cursor ∧
      Parser.Settles (Parser.commaSeparated (Parser.expressionWithin levels))
        cursor.rest.length cursor ∧
      ∀ level left, Parser.Settles (fun count => Parser.chain level.operator?
        (Parser.operandAt (Parser.expressionWithin levels) level) count left) maxNesting cursor) ∧
    ∀ keyword cursor,
      (Parser.coordinates keyword).Ensures cursor fun result _ => result.length ≤ 3 := by
  have items := Parser.expressionWithin_heeds
  have stmts (levels : Nat) := Parser.statement_heeds (Parser.blockWithin_heeds levels)
  refine ⟨?_, ?_, fun levels cursor => ?_, fun levels cursor => ?_, Parser.coordinates_length⟩
  · intro tokens rest marked
    exact file.parse_congr (congrArg (Cursor.mk _ · 0) (closed_append _ marked rest))
  · intro tokens last text _ final
    exact file.parse_congr (congrArg (Cursor.mk _ · 0) (closed_concat _ final text).symm)
  · exact ⟨(items levels cursor).advances, (stmts levels cursor).advances⟩
  · have few := cursor.length_ahead_le
    refine ⟨.of_succ fun count enough => ?_, .of_succ fun count enough => ?_,
      .of_succ fun count enough => ?_, fun level left => .of_succ fun count enough => ?_⟩
    · exact Parser.statements_succ rfl (stmts levels) count cursor (Nat.le_trans few enough)
    · exact Parser.statements_succ rfl (stmts levels) count cursor (Nat.le_trans few enough)
    · exact Parser.commaSeparated_succ (items levels) count cursor (Nat.le_trans few enough)
    · exact Parser.chain_succ level (Parser.operandAt_heeds (items levels) level) count left cursor
        (by omega)

/-- The script `x;` is parsed alike with an end of the input behind it, with none, and with one that
the script stands behind once more. -/
theorem parse_stops_at_end_twice :
    let file : SourceFile := ⟨"", "x;x;"⟩
    let script : List Token :=
      [⟨.identifier "x", "x", .blank⟩, ⟨.symbol .semicolon, ";", .point ⟨1, 2⟩⟩]
    let finish : Token := ⟨.endOfInput, "", .point ⟨1, 2⟩⟩
    (file.parse script).isOk = true ∧ file.parse script = file.parse (script ++ [finish]) ∧
      file.parse (script ++ [finish] ++ script) = file.parse (script ++ [finish]) := by
  intro file script finish
  obtain ⟨behind, missing, _⟩ := parse_stops_at_end file
  refine ⟨by decide +kernel, missing script _ "" (by decide) rfl, ?_⟩
  exact behind (script ++ [finish]) script (by decide)

end SourceFile

end Waggle
