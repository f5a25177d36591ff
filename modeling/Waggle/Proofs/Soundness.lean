import Waggle.Proofs.Lookahead
import Waggle.Proofs.Reading

/-!
# What is read has a derivation

Whenever a parser of a part succeeds, the tokens that it consumed have a derivation of that part,
its result without spans is the tree of that derivation, and the levels that were open before leave
room for its charge. The proofs follow the parsers: one lemma for each of them, by induction on the
levels or on the tokens that bound its recursion.
-/

namespace Waggle

/-- The tokens between two cursors have a derivation with a tree, and there is room for it. -/
def Part.Derives (part : Part) (before : Cursor) (tree : part.Tree) (after : Cursor) : Prop :=
  ∃ derivation : Derivation part, before.Consumes after derivation.written ∧
    tree = derivation.tree ∧ before.depth + derivation.charge ≤ maxNesting

namespace Parser

/-- Whenever a parser succeeds, it has read a part. -/
def Sound {α : Type} (parser : Parser α) (part : Part) (bare : α → part.Tree) : Prop :=
  ∀ cursor, cursor.depth ≤ maxNesting → parser.Ensures cursor fun result after =>
    part.Derives cursor (bare result) after

/-- Within a level of its own, a parser reads a part whose charge leaves room for that level. -/
theorem Sound.nested {α : Type} {parser : Parser α} {part : Part} {bare : α → part.Tree}
    (sound : parser.Sound part bare) (cursor : Cursor) :
    (Parser.nested parser).Ensures cursor fun result after =>
      ∃ derivation : Derivation part, cursor.Consumes after derivation.written ∧
        bare result = derivation.tree ∧ cursor.depth + (1 + derivation.charge) ≤ maxNesting := by
  refine .nested fun inside => ?_
  refine (sound { cursor with depth := cursor.depth + 1 } inside).mono ?_
  rintro result after ⟨derivation, consumed, tree, deep⟩
  refine ⟨derivation, consumed.nested, tree, ?_⟩
  simpa only [Nat.add_assoc] using deep

/-- A chain reads operators of its level, each with an operand after it. -/
theorem chain_sound {level : Level} {operand : Parser Expr}
    (sound : operand.Sound (.expr level.operand) Expr.bare) (levels : Nat) (left : Expr)
    (cursor : Cursor) (room : cursor.depth ≤ maxNesting) :
    (chain level.operator? operand levels left).Ensures cursor fun result after =>
      ∃ rest : Derivation (.tail level), cursor.Consumes after rest.written ∧
        result.bare = leaning left.bare rest.tree ∧
        cursor.depth + rest.charge ≤ maxNesting := by
  induction levels generalizing left cursor with
  | zero =>
    refine .step (peek_apply cursor) ?_
    split
    · exact .pure ⟨.noOperator, .refl cursor, rfl, room⟩
    · exact .step (skip_apply cursor) .fail
  | succ levels ih =>
    refine .step (peek_apply cursor) ?_
    split
    · exact .pure ⟨.noOperator, .refl cursor, rfl, room⟩
    · rename_i op found
      obtain ⟨sign, fits⟩ := Level.operator?_eq_some_iff.mp found
      have skipped := Cursor.Consumes.advance sign (by simp)
      refine .step (skip_apply cursor) (.nested fun inside => ?_)
      refine (sound { cursor.advance with depth := cursor.advance.depth + 1 } inside).bind ?_
      rintro right between ⟨operand, first, tree, deep⟩
      refine (ih (left.join op right) between (first.depth_eq ▸ inside)).mono ?_
      rintro result after ⟨rest, second, leaned, deeper⟩
      refine ⟨.operator op fits operand rest, ?_, ?_, ?_⟩
      · exact skipped.trans (first.trans second).nested
      · rw [leaned, Expr.bare_join, tree]
        rfl
      · rw [first.depth_eq] at deeper
        simp only [Cursor.depth_advance] at deep deeper
        simp only [Derivation.charge]
        omega

/-- A chained parser reads an operand and the chain after it. -/
theorem chained_sound (level : Level) {operand : Parser Expr}
    (sound : operand.Sound (.expr level.operand) Expr.bare) :
    (chained level.operator? operand).Sound (.expr (.chain level)) Expr.bare := by
  intro cursor room
  refine (sound cursor room).bind ?_
  rintro left between ⟨first, head, tree, deep⟩
  refine (chain_sound sound maxNesting left between (head.depth_eq ▸ room)).mono ?_
  rintro result after ⟨rest, tail, leaned, deeper⟩
  refine ⟨.chain first rest, head.trans tail, ?_, ?_⟩
  · rw [leaned, tree]
    rfl
  · rw [head.depth_eq] at deeper
    simp only [Derivation.charge]
    omega

/-- A signed parser reads signs and what stands behind them. -/
theorem signed_sound {primary : Parser Expr} (sound : primary.Sound (.expr .primary) Expr.bare)
    (levels : Nat) : (signed primary levels).Sound (.expr .signed) Expr.bare := by
  have plain (cursor : Cursor) (room : cursor.depth ≤ maxNesting) :
      primary.Ensures cursor fun result after =>
        Part.Derives (.expr .signed) cursor result.bare after :=
    (sound cursor room).mono fun _ _ ⟨inner, consumed, tree, deep⟩ =>
      ⟨.unsigned inner, consumed, tree, deep⟩
  induction levels with
  | zero =>
    intro cursor room
    refine .step (peek_apply cursor) ?_
    split
    · exact .step (skip_apply cursor) .fail
    · exact plain cursor room
  | succ levels ih =>
    intro cursor room
    refine .step (peek_apply cursor) ?_
    split
    · rename_i found
      have skipped := Cursor.Consumes.advance found (by simp)
      refine .step (nextSpan_apply cursor) (.step (skip_apply cursor) ?_)
      refine (ih.nested cursor.advance).bind ?_
      rintro operand after ⟨inner, consumed, tree, deep⟩
      rw [Cursor.depth_advance] at deep
      refine .pure ⟨.minus inner, skipped.trans consumed, ?_, deep⟩
      simp only [Expr.bare, Derivation.tree, tree]
    · exact plain cursor room

/-- Items with commas between them are an expression and the items after it. -/
theorem commaSeparated_sound {expression : Parser Expr}
    (sound : expression.Sound .expression Expr.bare) (commas : Nat) (cursor : Cursor)
    (room : cursor.depth ≤ maxNesting) :
    (commaSeparated expression commas).Ensures cursor fun result after =>
      ∃ (head : Derivation .expression) (rest : Derivation .items),
        cursor.Consumes after (head.written ++ rest.written) ∧
        bareAll result = head.tree :: rest.tree ∧
        cursor.depth + max head.charge rest.charge ≤ maxNesting := by
  have alone {cursor after : Cursor} {first : Expr} (head : Derivation .expression)
      (consumed : cursor.Consumes after head.written) (tree : first.bare = head.tree)
      (deep : cursor.depth + head.charge ≤ maxNesting) :
      ∃ (head : Derivation .expression) (rest : Derivation .items),
        cursor.Consumes after (head.written ++ rest.written) ∧
        bareAll [first] = head.tree :: rest.tree ∧
        cursor.depth + max head.charge rest.charge ≤ maxNesting := by
    refine ⟨head, .noItem, ?_, ?_, ?_⟩
    · simpa only [Derivation.written, List.append_nil] using consumed
    · simp only [bareAll, tree, Derivation.tree]
    · simpa only [Derivation.charge, Nat.max_zero] using deep
  induction commas generalizing cursor with
  | zero =>
    refine (sound cursor room).bind ?_
    rintro first after ⟨head, consumed, tree, deep⟩
    exact .pure (alone head consumed tree deep)
  | succ commas ih =>
    refine (sound cursor room).bind ?_
    rintro first between ⟨head, consumed, tree, deep⟩
    refine (Ensures.accept (by simp) between).bind ?_
    rintro accepted after (⟨rfl, comma⟩ | ⟨rfl, rfl⟩)
    · have same := (consumed.trans comma).depth_eq
      rw [if_pos rfl]
      refine (ih after (same ▸ room)).bind ?_
      rintro others last ⟨second, rest, more, trees, deeper⟩
      refine .pure ⟨head, .item second rest, ?_, ?_, ?_⟩
      · exact consumed.trans (comma.trans more)
      · simp only [bareAll, tree, trees, Derivation.tree]
      · rw [same] at deeper
        simp only [Derivation.charge]
        omega
    · exact .pure (alone head consumed tree deep)

/-- The arguments of a call are none, or expressions with commas between them. -/
theorem callArguments_sound {expression : Parser Expr}
    (sound : expression.Sound .expression Expr.bare) (cursor : Cursor)
    (room : cursor.depth ≤ maxNesting) :
    (callArguments expression).Ensures cursor fun result after =>
      (result = [] ∧ after = cursor) ∨
        ∃ (head : Derivation .expression) (rest : Derivation .items),
          cursor.Consumes after (head.written ++ rest.written) ∧
          bareAll result = head.tree :: rest.tree ∧
          cursor.depth + max head.charge rest.charge ≤ maxNesting := by
  refine .step (peek_apply cursor) ?_
  split
  · exact .pure (.inl ⟨rfl, rfl⟩)
  · refine .step (remaining_apply cursor) ?_
    exact (commaSeparated_sound sound _ cursor room).mono fun _ _ listed => .inr listed

/-- A primary parser reads a literal, a name, a call or an expression between parentheses. -/
theorem primary_sound {expression : Parser Expr}
    (sound : expression.Sound .expression Expr.bare) :
    (primary expression).Sound (.expr .primary) Expr.bare := by
  intro cursor room
  refine .step (nextSpan_apply cursor) (.step (peek_apply cursor) ?_)
  split
  · rename_i value found
    obtain ⟨literal, kind, rfl⟩ := literal?_eq_some_iff.mp found
    refine .step (skip_apply cursor) (.pure ⟨.literal literal, ?_, rfl, room⟩)
    exact .advance kind (by cases literal <;> simp [Literal.kind])
  · split
    · rename_i opening
      have skipped := Cursor.Consumes.advance opening (by simp)
      refine .step (skip_apply cursor) ?_
      refine (sound cursor.advance (cursor.depth_advance ▸ room)).bind ?_
      rintro inner between ⟨derivation, consumed, tree, deep⟩
      refine (Ensures.expect .rightParen .closingParentheses between).bind ?_
      intro _ after closing
      refine .step (previousSpan_apply after) (.pure ⟨.parens derivation, ?_, ?_, ?_⟩)
      · exact skipped.trans (consumed.trans closing)
      · rw [Expr.bare_withSpan, tree]
        rfl
      · rwa [Cursor.depth_advance] at deep
    · rename_i name named
      have skipped := Cursor.Consumes.advance named (by simp)
      refine .step (peekSecond_apply cursor) ?_
      split
      · rename_i second
        have opened := Cursor.Consumes.advance (cursor.kind_advance.trans second) (by simp)
        have before := skipped.trans opened
        refine .step (skip_apply cursor) (.step (skip_apply cursor.advance) ?_)
        refine (callArguments_sound sound _ (before.depth_eq ▸ room)).bind ?_
        intro arguments between listed
        refine (Ensures.expect .rightParen .afterCallArguments between).bind ?_
        intro _ after closing
        refine .step (previousSpan_apply after) (.pure ?_)
        rcases listed with ⟨rfl, rfl⟩ | ⟨head, rest, consumed, trees, deep⟩
        · exact ⟨.callNone name, before.trans closing, rfl, room⟩
        · refine ⟨.call name head rest, ?_, ?_, ?_⟩
          · have whole := before.trans (consumed.trans closing)
            rw [List.append_assoc head.written] at whole
            exact whole
          · simp only [Expr.bare, trees, Derivation.tree]
          · rwa [before.depth_eq] at deep
      · refine .step (skip_apply cursor) (.pure ⟨.reference name, skipped, rfl, room⟩)
    · exact .fail

/-- The operators of a level between the operands of that level. -/
theorem operators_sound {expression : Parser Expr}
    (sound : expression.Sound .expression Expr.bare) :
    (operators expression).Sound (.expr (.chain .equation)) Expr.bare := by
  have operands : (operand expression).Sound (.expr .signed) Expr.bare :=
    signed_sound (primary_sound sound) maxNesting
  have products : (chained product? (operand expression)).Sound
      (.expr (.chain .product)) Expr.bare := chained_sound .product operands
  have sums : (chained sum? (chained product? (operand expression))).Sound
      (.expr (.chain .sum)) Expr.bare := chained_sound .sum products
  exact chained_sound .equation sums

/-- An expression parser reads expressions. -/
theorem expressionWithin_sound (levels : Nat) :
    (expressionWithin levels).Sound .expression Expr.bare := by
  induction levels with
  | zero => exact fun _ _ => .fail
  | succ levels ih =>
    intro cursor _
    refine ((operators_sound ih).nested cursor).mono ?_
    rintro result after ⟨inner, consumed, tree, deep⟩
    exact ⟨.expression inner, consumed, tree, deep⟩

/-- A whole expression is read as one. -/
theorem expression_sound : expression.Sound .expression Expr.bare :=
  expressionWithin_sound maxNesting

/-- Further coordinates are expressions, each after a comma, and not more than there is room for. -/
theorem moreCoordinates_sound (keyword : Keyword) (room : Nat) (cursor : Cursor)
    (shallow : cursor.depth ≤ maxNesting) :
    (moreCoordinates keyword room).Ensures cursor fun result after =>
      ∃ further : List (Derivation .expression), further.length ≤ room ∧
        cursor.Consumes after (further.flatMap fun one => .symbol .comma :: one.written) ∧
        bareAll result = further.map Derivation.tree ∧
        ∀ one ∈ further, cursor.depth + one.charge ≤ maxNesting := by
  induction room generalizing cursor with
  | zero =>
    refine .step (peek_apply cursor) ?_
    split
    · exact .fail
    · exact .pure ⟨[], Nat.le_refl 0, .refl cursor, rfl, by simp⟩
  | succ room ih =>
    refine (Ensures.accept (by simp) cursor).bind ?_
    rintro accepted after (⟨rfl, comma⟩ | ⟨rfl, rfl⟩)
    · rw [if_pos rfl]
      refine (expression_sound after (comma.depth_eq ▸ shallow)).bind ?_
      rintro head between ⟨one, consumed, tree, deep⟩
      have before := comma.trans consumed
      refine (ih between (before.depth_eq ▸ shallow)).bind ?_
      rintro others last ⟨further, few, more, trees, deeper⟩
      rw [comma.depth_eq] at deep
      refine .pure ⟨one :: further, Nat.succ_le_succ few, before.trans more, ?_, ?_⟩
      · simp only [bareAll, tree, trees, List.map_cons]
      · intro other member
        rcases List.mem_cons.mp member with rfl | later
        · exact deep
        · exact before.depth_eq ▸ deeper other later
    · exact .pure ⟨[], Nat.zero_le _, .refl after, rfl, by simp⟩

/-- Coordinates are one to three expressions. -/
theorem coordinates_sound (keyword : Keyword) :
    (coordinates keyword).Sound .coordinates bareAll := by
  intro cursor room
  refine (expression_sound cursor room).bind ?_
  rintro head between ⟨x, first, tree, deep⟩
  refine (moreCoordinates_sound keyword 2 between (first.depth_eq ▸ room)).bind ?_
  rintro others after ⟨further, few, more, trees, deeper⟩
  have whole := first.trans more
  rw [first.depth_eq] at deeper
  refine .pure ?_
  match further, few with
  | [], _ =>
    refine ⟨.one x, ?_, ?_, deep⟩
    · simpa [Derivation.written] using whole
    · simp only [bareAll, tree, trees, List.map_nil, Derivation.tree]
  | [y], _ =>
    have second := deeper y (by simp)
    refine ⟨.two x y, ?_, ?_, ?_⟩
    · simpa [Derivation.written] using whole
    · simp only [bareAll, tree, trees, List.map_cons, List.map_nil, Derivation.tree]
    · simp only [Derivation.charge]
      omega
  | [y, z], _ =>
    have second := deeper y (by simp)
    have third := deeper z (by simp)
    refine ⟨.three x y z, ?_, ?_, ?_⟩
    · simpa [Derivation.written] using whole
    · simp only [bareAll, tree, trees, List.map_cons, List.map_nil, Derivation.tree]
    · simp only [Derivation.charge]
      omega

/-- An expression between parentheses is read with them. -/
theorem parenthesised_sound (keyword : Keyword) (place : Place) (cursor : Cursor)
    (room : cursor.depth ≤ maxNesting) :
    (parenthesised keyword place).Ensures cursor fun result after =>
      ∃ inner : Derivation .expression,
        cursor.Consumes after (.symbol .leftParen :: (inner.written ++ [.symbol .rightParen])) ∧
        result.bare = inner.tree ∧ cursor.depth + inner.charge ≤ maxNesting := by
  refine (Ensures.expect .leftParen (.afterKeyword keyword) cursor).bind ?_
  intro _ opened opening
  refine (expression_sound opened (opening.depth_eq ▸ room)).bind ?_
  rintro result between ⟨inner, consumed, tree, deep⟩
  refine (Ensures.expect .rightParen place between).bind ?_
  intro _ after closing
  rw [opening.depth_eq] at deep
  exact .pure ⟨inner, opening.trans (consumed.trans closing), tree, deep⟩

/-- The tokens between two cursors are the arguments of a statement that acts on the world. -/
def Acting (keyword : Keyword) (build : Span → Stmt) (before after : Cursor) : Prop :=
  ∃ (stmt : Derivation .statement) (arguments : List TokenKind),
    stmt.written = inParens keyword arguments ++ [.symbol .semicolon] ∧
    before.Consumes after arguments ∧ (∀ span, (build span).bare = stmt.tree) ∧
    before.depth + stmt.charge ≤ maxNesting

/-- A motion is a direction alone, or a target followed by coordinates. -/
theorem motion_sound (cursor : Cursor) (room : cursor.depth ≤ maxNesting) :
    motion.Ensures cursor fun result after =>
      Acting .move (.move result.1 result.2) cursor after := by
  refine .step (peek_apply cursor) (.step (peekSecond_apply cursor) ?_)
  split
  · rename_i heading named _
    have word := direction?_eq_some_iff.mp named
    refine .step (skip_apply cursor) (.pure ⟨.moveStep heading, _, rfl, ?_, fun _ => ?_, room⟩)
    · exact .advance word (by simp)
    · simp only [Stmt.bare, Motion.bare, Derivation.tree, Option.map_none]
  · refine (expression_sound cursor room).bind ?_
    rintro result between ⟨target, first, tree, deep⟩
    refine (Ensures.accept (by simp) between).bind ?_
    rintro accepted after (⟨rfl, comma⟩ | ⟨rfl, rfl⟩)
    · have before := first.trans comma
      rw [if_pos rfl]
      refine (coordinates_sound .move after (before.depth_eq ▸ room)).bind ?_
      rintro numbers last ⟨offset, more, trees, deeper⟩
      rw [before.depth_eq] at deeper
      refine .pure ⟨.moveBy target offset, _, rfl, first.trans (comma.trans more), fun _ => ?_, ?_⟩
      · simp only [Stmt.bare, Motion.bare, Derivation.tree, Option.map_some, tree, trees]
      · simp only [Derivation.charge]
        omega
    · exact .step (peek_apply after) .failAt

/-- A position is told by its coordinates. -/
theorem position_sound (cursor : Cursor) (room : cursor.depth ≤ maxNesting) :
    (coordinates .moveTo).Ensures cursor fun result after =>
      Acting .moveTo (.moveTo result) cursor after := by
  refine (coordinates_sound .moveTo cursor room).mono ?_
  rintro result after ⟨position, consumed, trees, deep⟩
  refine ⟨.moveTo position, _, rfl, consumed, fun _ => ?_, deep⟩
  simp only [Stmt.bare, Derivation.tree, trees]

/-- Opponents are a target, or an attacker and a target. -/
theorem opponents_sound (cursor : Cursor) (room : cursor.depth ≤ maxNesting) :
    opponents.Ensures cursor fun result after =>
      Acting .attack (.attack result.1 result.2) cursor after := by
  refine (expression_sound cursor room).bind ?_
  rintro result between ⟨first, head, tree, deep⟩
  refine (Ensures.accept (by simp) between).bind ?_
  rintro accepted after (⟨rfl, comma⟩ | ⟨rfl, rfl⟩)
  · have before := head.trans comma
    rw [if_pos rfl]
    refine (expression_sound after (before.depth_eq ▸ room)).bind ?_
    rintro result' last ⟨second, more, tree', deeper⟩
    rw [before.depth_eq] at deeper
    refine .step rfl (.step (peek_apply last) ?_)
    split
    · exact .fail
    · refine .pure ⟨.attackBy first second, _, rfl, head.trans (comma.trans more), fun _ => ?_, ?_⟩
      · simp only [Stmt.bare, Derivation.tree, Option.map_some, tree, tree']
      · simp only [Derivation.charge]
        omega
  · refine .step rfl (.step (peek_apply after) ?_)
    split
    · exact .fail
    · refine .pure ⟨.attack first, _, rfl, head, fun _ => ?_, deep⟩
      simp only [Stmt.bare, Derivation.tree, Option.map_none, tree]

/-- An action ends with a parenthesis and a semicolon. -/
theorem finishAction_sound (keyword : Keyword) (cursor : Cursor) :
    (finishAction keyword).Ensures cursor fun _ after =>
      cursor.Consumes after [.symbol .rightParen, .symbol .semicolon] := by
  refine (Ensures.expect .rightParen (.afterArguments keyword) cursor).bind ?_
  intro _ between closing
  exact (Ensures.expect .semicolon (.afterStatement keyword) between).mono
    fun _ _ ending => closing.trans ending

/-- A statement that acts on the world is read if its arguments are. -/
theorem acting_sound {α : Type} {keyword : Keyword} {cursor : Cursor}
    (found : cursor.kind = .keyword keyword) (room : cursor.depth ≤ maxNesting)
    {inner : Parser α} {build : α → Span → Stmt} (span : Span)
    (inside : ∀ opened : Cursor, opened.depth ≤ maxNesting →
      inner.Ensures opened fun result after => Acting keyword (build result) opened after) :
    (do
      skip
      expect .leftParen (.afterKeyword keyword)
      let result ← inner
      finishAction keyword
      return build result (span.merge (← previousSpan)) : Parser Stmt).Ensures cursor
        fun result after => Part.statement.Derives cursor result.bare after := by
  have skipped := Cursor.Consumes.advance found (by simp)
  refine .step (skip_apply cursor) ?_
  refine (Ensures.expect .leftParen (.afterKeyword keyword) cursor.advance).bind ?_
  intro _ opened opening
  have before := skipped.trans opening
  refine (inside opened (before.depth_eq ▸ room)).bind ?_
  rintro result between ⟨stmt, arguments, written, consumed, tree, deep⟩
  refine (finishAction_sound keyword between).bind fun _ after closing => ?_
  refine .step (previousSpan_apply after) (.pure ⟨stmt, ?_, tree _, ?_⟩)
  · have whole := before.trans (consumed.trans closing)
    rw [written]
    simpa [inParens] using whole
  · rwa [before.depth_eq] at deep

/-- Statements up to a closing token are read one after the other. -/
theorem statements_sound {statement : Parser Stmt} (sound : statement.Sound .statement Stmt.bare)
    (closing : TokenKind → Bool) (count : Nat) :
    (statements closing statement count).Sound .statements bareStmts := by
  induction count with
  | zero => exact fun cursor room => .pure ⟨.noStatement, .refl cursor, rfl, room⟩
  | succ count ih =>
    intro cursor room
    refine .step (peek_apply cursor) ?_
    split
    · exact .pure ⟨.noStatement, .refl cursor, rfl, room⟩
    · refine (sound cursor room).bind ?_
      rintro stmt between ⟨head, first, tree, deep⟩
      refine (ih between (first.depth_eq ▸ room)).bind ?_
      rintro others after ⟨rest, more, trees, deeper⟩
      rw [first.depth_eq] at deeper
      refine .pure ⟨.andThen head rest, first.trans more, ?_, ?_⟩
      · simp only [bareStmts, tree, trees, Derivation.tree]
      · simp only [Derivation.charge]
        omega

/-- A statement of a keyword, an expression between parentheses and a block goes on after them. -/
theorem headed_sound {block : Place → Parser (Block Stmt)}
    (sound : ∀ place, (block place).Sound .block Block.bare) {keyword : Keyword} {cursor : Cursor}
    (found : cursor.kind = .keyword keyword) (place : Place) (room : cursor.depth ≤ maxNesting)
    {next : Expr → Block Stmt → Parser Stmt} {post : Stmt → Cursor → Prop}
    (onward : ∀ (guard : Derivation .expression) (body : Derivation .block) expr stmts after,
      cursor.Consumes after (inParens keyword guard.written ++ body.written) →
      expr.bare = guard.tree → stmts.bare = body.tree →
      cursor.depth + max guard.charge body.charge ≤ maxNesting →
      (next expr stmts).Ensures after post) :
    (do
      skip
      let expr ← parenthesised keyword place
      let stmts ← block (.beforeBody keyword)
      next expr stmts : Parser Stmt).Ensures cursor post := by
  have skipped := Cursor.Consumes.advance found (by simp)
  refine .step (skip_apply cursor) ?_
  refine (parenthesised_sound keyword place _ (skipped.depth_eq ▸ room)).bind ?_
  rintro expr opened ⟨guard, first, tree, deep⟩
  have before := skipped.trans first
  rw [skipped.depth_eq] at deep
  refine (sound (.beforeBody keyword) opened (before.depth_eq ▸ room)).bind ?_
  rintro stmts after ⟨body, second, trees, deeper⟩
  rw [before.depth_eq] at deeper
  exact onward guard body expr stmts after (before.trans second) tree trees (by omega)

/-- A branch goes on with an alternative if there is one. -/
theorem branched_sound {block : Place → Parser (Block Stmt)}
    (sound : ∀ place, (block place).Sound .block Block.bare) {cursor between : Cursor}
    {condition : Derivation .expression} {consequent : Derivation .block} {expr : Expr}
    {stmts : Block Stmt} (room : cursor.depth ≤ maxNesting) (span : Span)
    (consumed : cursor.Consumes between (inParens .ifWord condition.written ++ consequent.written))
    (tree : expr.bare = condition.tree) (trees : stmts.bare = consequent.tree)
    (deep : cursor.depth + max condition.charge consequent.charge ≤ maxNesting) :
    (do
      let alternative ←
        if ← accept (.keyword .elseWord) then
          some <$> block (.afterKeyword .elseWord)
        else
          pure none
      return .branch expr stmts alternative (span.merge (← previousSpan)) : Parser Stmt).Ensures
        between fun result after => Part.statement.Derives cursor result.bare after := by
  refine (Ensures.accept (by simp) between).bind ?_
  rintro accepted after (⟨rfl, otherwise⟩ | ⟨rfl, rfl⟩)
  · have before := consumed.trans otherwise
    rw [if_pos rfl, map_eq_pure_bind, bind_assoc]
    refine (sound (.afterKeyword .elseWord) after (before.depth_eq ▸ room)).bind ?_
    rintro others last ⟨alternative, more, trees', deeper⟩
    rw [before.depth_eq] at deeper
    refine .step rfl (.step (previousSpan_apply last) (.pure ?_))
    refine ⟨.branchElse condition consequent alternative, ?_, ?_, ?_⟩
    · have whole := consumed.trans (otherwise.trans more)
      rw [List.append_assoc] at whole
      exact whole
    · simp only [Stmt.bare, Derivation.tree, tree, ← trees, ← trees', Block.bare]
    · simp only [Derivation.charge]
      omega
  · refine .step rfl (.step (previousSpan_apply after) (.pure ?_))
    refine ⟨.branch condition consequent, consumed, ?_, deep⟩
    simp only [Stmt.bare, Derivation.tree, tree, ← trees, Block.bare]

/-- A statement parser reads statements if its block parser reads blocks. -/
theorem statement_sound {block : Place → Parser (Block Stmt)}
    (sound : ∀ place, (block place).Sound .block Block.bare) :
    (statement block).Sound .statement Stmt.bare := by
  intro cursor room
  refine .step (nextSpan_apply cursor) ?_
  refine .step (peek_apply cursor) (.step (peekSecond_apply cursor) ?_)
  split
  · rename_i found
    refine headed_sound sound found .afterCondition room ?_
    intro condition consequent expr stmts between consumed tree trees deep
    exact branched_sound sound room cursor.span consumed tree trees deep
  · rename_i found
    refine headed_sound sound found .afterCondition room ?_
    intro condition body expr stmts after consumed tree trees deep
    refine .step (previousSpan_apply after) (.pure ⟨.whileLoop condition body, consumed, ?_, deep⟩)
    simp only [Stmt.bare, Derivation.tree, tree, ← trees, Block.bare]
  · rename_i found
    refine headed_sound sound found .afterCount room ?_
    intro count body expr stmts after consumed tree trees deep
    refine .step (previousSpan_apply after) (.pure ⟨.repeatLoop count body, consumed, ?_, deep⟩)
    simp only [Stmt.bare, Derivation.tree, tree, ← trees, Block.bare]
  · rename_i found
    exact acting_sound found room cursor.span motion_sound
  · rename_i found
    exact acting_sound found room cursor.span position_sound
  · rename_i found
    exact acting_sound found room cursor.span opponents_sound
  · rename_i name found second
    have skipped := Cursor.Consumes.advance found (by simp)
    have opened := Cursor.Consumes.advance (cursor.kind_advance.trans second) (by simp)
    have before := skipped.trans opened
    refine .step (skip_apply cursor) (.step (skip_apply cursor.advance) ?_)
    refine (expression_sound _ (before.depth_eq ▸ room)).bind ?_
    rintro expr between ⟨value, consumed, tree, deep⟩
    refine (Ensures.expect .semicolon .afterAssignment between).bind fun _ after closing => ?_
    refine .step (previousSpan_apply after) (.pure ⟨.assign name value, ?_, ?_, ?_⟩)
    · exact before.trans (consumed.trans closing)
    · simp only [Stmt.bare, Derivation.tree, tree]
    · rwa [before.depth_eq] at deep
  · refine (expression_sound cursor room).bind ?_
    rintro expr between ⟨value, consumed, tree, deep⟩
    refine (Ensures.expect .semicolon .afterExpression between).bind fun _ after closing => ?_
    refine .step (previousSpan_apply after) (.pure ⟨.evaluate value, ?_, ?_, deep⟩)
    · exact consumed.trans closing
    · simp only [Stmt.bare, Derivation.tree, tree]

/-- A block parser reads blocks. -/
theorem blockWithin_sound (levels : Nat) (place : Place) :
    (blockWithin levels place).Sound .block Block.bare := by
  induction levels generalizing place with
  | zero =>
    intro cursor _
    exact (Ensures.expect .leftBrace place cursor).bind fun _ _ _ => .fail
  | succ levels ih =>
    intro cursor room
    refine .step (nextSpan_apply cursor) ?_
    refine (Ensures.expect .leftBrace place cursor).bind fun _ opened opening => ?_
    have inside : (do
        statements endsBlock (statement (blockWithin levels)) (← remaining) :
          Parser (List Stmt)).Sound .statements bareStmts := by
      intro within shallow
      refine .step (remaining_apply within) ?_
      exact statements_sound (statement_sound ih) endsBlock _ within shallow
    refine (inside.nested opened).bind ?_
    rintro stmts between ⟨body, consumed, trees, deep⟩
    refine (Ensures.expect .rightBrace .closingBlock between).bind fun _ after closing => ?_
    refine .step (previousSpan_apply after) (.pure ⟨.block body, ?_, ?_, ?_⟩)
    · exact opening.trans (consumed.trans closing)
    · simp only [Block.bare, trees, Derivation.tree]
    · rwa [opening.depth_eq] at deep

/-- Statements end before a closing token, if there are as many of them to read as tokens. -/
theorem statements_end {statement : Parser Stmt} (sound : statement.Sound .statement Stmt.bare)
    {closing : TokenKind → Bool} (last : closing .endOfInput = true) (count : Nat)
    (cursor : Cursor) (room : cursor.depth ≤ maxNesting) (few : cursor.kinds.length ≤ count) :
    (statements closing statement count).Ensures cursor fun _ after =>
      closing after.kind = true := by
  induction count generalizing cursor with
  | zero =>
    have none : cursor.kinds = [] := List.eq_nil_of_length_eq_zero (Nat.le_zero.mp few)
    refine .pure ?_
    rw [cursor.kind_eq, none]
    exact last
  | succ count ih =>
    refine .step (peek_apply cursor) ?_
    split
    · exact .pure ‹_›
    · refine (sound cursor room).bind ?_
      rintro stmt between ⟨head, first, tree, deep⟩
      obtain ⟨kind, more, written, _⟩ := head.starts.exists_cons rfl
      have shorter := congrArg List.length first.kinds_eq
      rw [written, List.length_append, List.length_cons] at shorter
      refine (ih between (first.depth_eq ▸ room) (by omega)).bind ?_
      exact fun others after ended => .pure ended

/-- A list of tokens that is read as a program has a derivation up to the end of the input. -/
theorem program_sound (tokens : List Token) :
    program.Ensures (.start tokens) fun result _ =>
      ∃ stmts : Derivation .statements,
        stmts.written = (tokens.map Token.kind).takeWhile (· ≠ .endOfInput) ∧
        stmts.charge ≤ maxNesting ∧ result.bare = ⟨stmts.tree, .blank⟩ := by
  have sound := statement_sound (blockWithin_sound maxNesting)
  have shallow : (Cursor.start tokens).depth ≤ maxNesting := Nat.zero_le _
  refine .step (nextSpan_apply _) (.step (remaining_apply _) ?_)
  have few : (Cursor.start tokens).kinds.length ≤ (Cursor.start tokens).rest.length :=
    Nat.le_of_eq (List.length_map _)
  refine ((statements_sound sound endsProgram _ _ shallow).and
    (statements_end sound rfl _ _ shallow few)).bind ?_
  rintro result after ⟨⟨stmts, consumed, trees, deep⟩, ended⟩
  refine .step (previousSpan_apply after) (.pure ⟨stmts, ?_, ?_, ?_⟩)
  · rw [endsProgram, decide_eq_true_eq, after.kind_eq] at ended
    have kinds : tokens.map Token.kind = stmts.written ++ after.kinds := consumed.kinds_eq
    rw [kinds, stmts.takeWhile_written ended]
  · exact Nat.le_trans (Nat.le_add_left _ _) deep
  · simp only [Program.bare, trees]

end Parser

end Waggle
