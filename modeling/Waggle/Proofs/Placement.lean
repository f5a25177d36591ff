import Waggle.Proofs.Concatenation
import Waggle.Proofs.Extent

/-!
# Every node stands on the tokens it was read from

Parsers put spans together from the token before them, the token after them and the spans of what
they have read. Where the tokens follow each other in reading order, each of these merges is the
extent of the tokens that were consumed, so whatever a parser reads stands on those tokens
(`Parser.Places`). The tokens of a script do follow each other in reading order, as long as the
counters of a position do not overflow.
-/

namespace Waggle

/-- Some tokens stand between two cursors, and the last of them is the one before the second. -/
structure Cursor.Reads (before after : Cursor) (slice : List Token) : Prop where
  /-- They are no longer ahead. -/
  rest_eq : before.rest = slice ++ after.rest
  /-- The last of them is the token before the cursor. -/
  previous_eq : after.previous = (slice.getLast?.map Token.span).getD before.previous

namespace Cursor

variable {cursor after : Cursor} {slice : List Token}

/-- A cursor that stays reads nothing. -/
theorem Reads.refl (cursor : Cursor) : cursor.Reads cursor [] := ⟨rfl, rfl⟩

/-- What is read in two parts is read in order. -/
theorem Reads.trans {last : Cursor} {more : List Token} (head : cursor.Reads after slice)
    (tail : after.Reads last more) : cursor.Reads last (slice ++ more) where
  rest_eq := by rw [head.rest_eq, tail.rest_eq, List.append_assoc]
  previous_eq := by
    rw [tail.previous_eq, head.previous_eq, List.getLast?_append]
    cases more.getLast? <;> rfl

/-- Levels make no difference to what is read. -/
theorem Reads.withDepth {depth depth' : Nat}
    (reads : { cursor with depth := depth }.Reads after slice) :
    cursor.Reads { after with depth := depth' } slice := ⟨reads.rest_eq, reads.previous_eq⟩

/-- What is read from tokens in order is in order, and so is what is left. -/
theorem Reads.orderly (reads : cursor.Reads after slice) (orderly : Orderly cursor.rest) :
    Orderly (slice ++ after.rest) := reads.rest_eq ▸ orderly

/-- The spans of the first and of the last token read merge to the extent of all. -/
theorem Reads.merge_eq (reads : cursor.Reads after slice) (orderly : Orderly cursor.rest)
    (some : slice ≠ []) : cursor.span.merge after.previous = extent slice := by
  have inOrder : Orderly slice := (reads.orderly orderly).left
  obtain ⟨first, others, starts⟩ := List.exists_cons_of_ne_nil some
  obtain ⟨early, last, ends⟩ := (List.eq_nil_or_concat slice).resolve_left some
  rw [List.concat_eq_append] at ends
  have span : cursor.span = first.span := by
    rw [Cursor.span, reads.rest_eq, starts]
    rfl
  have previous : after.previous = last.span := by
    rw [reads.previous_eq, ends, List.getLast?_concat]
    rfl
  rw [span, previous]
  refine merge_eq_extent ?_ ?_ (inOrder.within ?_).1 (inOrder.within ?_).2
  · rw [starts]
    rfl
  · rw [ends, extent_concat_stop]
  · rw [ends]
    exact List.mem_append_right _ List.mem_cons_self
  · rw [starts]
    exact List.mem_cons_self

/-- Where one token is read, it is the one before the cursor. -/
theorem Reads.previous_eq_extent {kind : TokenKind} (reads : cursor.Reads after slice)
    (one : slice.map Token.kind = [kind]) : after.previous = extent slice := by
  obtain ⟨token, rfl, -⟩ := List.map_eq_singleton_iff.mp one
  rw [reads.previous_eq]
  rfl

/-- Stepping over a token that is not the end reads it. -/
theorem exists_reads_advance {kind : TokenKind} (found : cursor.kind = kind)
    (inside : kind ≠ .endOfInput) :
    ∃ slice, slice.map Token.kind = [kind] ∧ cursor.Reads cursor.advance slice ∧
      cursor.span = extent slice := by
  obtain ⟨previous, _ | ⟨token, rest⟩, depth⟩ := cursor
  · exact absurd found.symm inside
  · refine ⟨[token], ?_, ⟨rfl, rfl⟩, rfl⟩
    rw [List.map_singleton]
    exact congrArg ([·]) found

end Cursor

namespace Parser

variable {cursor : Cursor}

/-- A symbol that was expected has been read. -/
theorem expect_reads (symbol : Symbol) (place : Place) (cursor : Cursor) :
    (expect symbol place).Ensures cursor fun _ after =>
      ∃ slice, slice.map Token.kind = [.symbol symbol] ∧ cursor.Reads after slice := by
  intro result after ran
  rw [expect_apply] at ran
  split at ran
  · rename_i found
    cases ran
    obtain ⟨slice, kinds, reads, -⟩ := Cursor.exists_reads_advance found (by simp)
    exact ⟨slice, kinds, reads⟩
  · cases ran

/-- A token has been read if it was accepted, and otherwise the cursor stays. -/
theorem accept_reads {kind : TokenKind} (inside : kind ≠ .endOfInput) (cursor : Cursor) :
    (accept kind).Ensures cursor fun accepted after =>
      (accepted = true ∧ ∃ slice, slice.map Token.kind = [kind] ∧ cursor.Reads after slice) ∨
      (accepted = false ∧ after = cursor) := by
  intro result after ran
  rw [accept_apply] at ran
  split at ran
  · rename_i found
    cases ran
    obtain ⟨slice, kinds, reads, -⟩ := Cursor.exists_reads_advance found inside
    exact .inl ⟨rfl, slice, kinds, reads⟩
  · cases ran
    exact .inr ⟨rfl, rfl⟩

/-- Whatever a parser reads from tokens in reading order stands on those that it consumed. -/
def Places (part : Part) (parser : Parser part.Tree) : Prop :=
  ∀ cursor, Orderly cursor.rest → parser.Ensures cursor fun tree after =>
    ∃ slice, cursor.Reads after slice ∧ Stands part slice tree

/-- What is read within a level of its own stands where it stands. -/
theorem Places.nested {part : Part} {parser : Parser part.Tree} (places : Places part parser) :
    Places part (Parser.nested parser) := by
  intro cursor orderly
  refine .nested fun _ => ?_
  refine (places { cursor with depth := cursor.depth + 1 } orderly).mono ?_
  rintro tree after ⟨slice, reads, stands⟩
  exact ⟨slice, reads.withDepth, stands⟩

/-! ### Expressions -/

/-- A chain stands on the tokens from its first operand on. -/
theorem chain_places {level : Level} {operand : Parser Expr}
    (places : Places (.expr level.operand) operand) (levels : Nat) (left : Expr) (cursor : Cursor)
    {seen : List Token} (orderly : Orderly (seen ++ cursor.rest))
    (stands : Stands (.expr (.chain level)) seen left) :
    (chain level.operator? operand levels left).Ensures cursor fun result after =>
      ∃ slice, cursor.Reads after slice ∧
        Stands (.expr (.chain level)) (seen ++ slice) result := by
  have alone (cursor : Cursor) {seen : List Token} {left : Expr}
      (stands : Stands (.expr (.chain level)) seen left) :
      ∃ slice, cursor.Reads cursor slice ∧ Stands (.expr (.chain level)) (seen ++ slice) left :=
    ⟨[], .refl cursor, (List.append_nil seen).symm ▸ stands⟩
  -- The operands so far stand on `seen`, which grows by a sign and an operand at each step.
  induction levels generalizing left cursor seen with
  | zero =>
    refine .step (peek_apply cursor) ?_
    split
    · exact .pure (alone cursor stands)
    · exact .step (skip_apply cursor) .fail
  | succ levels ih =>
    refine .step (peek_apply cursor) ?_
    split
    · exact .pure (alone cursor stands)
    · rename_i op found
      obtain ⟨symbol, fits⟩ := Level.operator?_eq_some_iff.mp found
      obtain ⟨sign, signed, skipped, -⟩ := Cursor.exists_reads_advance symbol (by simp)
      refine .step (skip_apply cursor) (.nested fun _ => ?_)
      rw [skipped.rest_eq] at orderly
      refine (places { cursor.advance with depth := cursor.advance.depth + 1 }
        orderly.right.right).bind ?_
      rintro right between ⟨inner, first, stands'⟩
      have whole : Orderly (seen ++ (sign ++ inner) ++ between.rest) := by
        have rest := first.rest_eq
        dsimp only at rest
        rw [rest] at orderly
        simpa only [List.append_assoc] using orderly
      have joined : Stands (.expr (.chain level)) (seen ++ (sign ++ inner))
          (left.join op right) := by
        rw [Expr.join, stands.span_eq left.span rfl, stands'.span_eq right.span rfl,
          extent_merge sign whole.left (stands.ne_nil rfl) (stands'.ne_nil rfl)]
        exact .binary fits signed stands stands'
      refine (ih (left.join op right) between whole joined).mono ?_
      rintro result after ⟨more, second, stands''⟩
      refine ⟨sign ++ (inner ++ more), skipped.trans (first.trans second).withDepth, ?_⟩
      simpa only [List.append_assoc] using stands''

/-- A chained parser reads an operand and the chain after it. -/
theorem chained_places (level : Level) {operand : Parser Expr}
    (places : Places (.expr level.operand) operand) :
    Places (.expr (.chain level)) (chained level.operator? operand) := by
  intro cursor orderly
  refine (places cursor orderly).bind ?_
  rintro left between ⟨first, head, stands⟩
  refine (chain_places places maxNesting left between (head.orderly orderly)
    (.operand stands)).mono ?_
  rintro result after ⟨more, tail, whole⟩
  exact ⟨first ++ more, head.trans tail, whole⟩

/-- A signed parser reads signs and what stands behind them. -/
theorem signed_places {primary : Parser Expr} (places : Places (.expr .primary) primary)
    (levels : Nat) : Places (.expr .signed) (signed primary levels) := by
  have unsigned (cursor : Cursor) (orderly : Orderly cursor.rest) :
      primary.Ensures cursor fun expr after =>
        ∃ slice, cursor.Reads after slice ∧ Stands (.expr .signed) slice expr := by
    refine (places cursor orderly).mono ?_
    rintro expr after ⟨slice, reads, stands⟩
    exact ⟨slice, reads, .unsigned stands⟩
  induction levels with
  | zero =>
    intro cursor orderly
    refine .step (peek_apply cursor) ?_
    split
    · exact .step (skip_apply cursor) .fail
    · exact unsigned cursor orderly
  | succ levels ih =>
    intro cursor orderly
    refine .step (peek_apply cursor) ?_
    split
    · rename_i found
      obtain ⟨sign, signed, skipped, span⟩ := Cursor.exists_reads_advance found (by simp)
      have rest := (skipped.orderly orderly).right
      refine .step (nextSpan_apply cursor) (.step (skip_apply cursor) ?_)
      refine (Places.nested ih cursor.advance rest).bind ?_
      rintro operand after ⟨inner, reads, stands⟩
      have whole := (skipped.trans reads).orderly orderly
      have merged : cursor.span.merge operand.span = extent (sign ++ inner) := by
        rw [span, stands.span_eq operand.span rfl]
        exact extent_merge [] whole.left (ne_nil_of_kinds signed) (stands.ne_nil rfl)
      rw [merged]
      exact .pure ⟨sign ++ inner, skipped.trans reads, .negate signed stands⟩
    · exact unsigned cursor orderly

/-- Items with commas between them are an expression and the items after it. -/
theorem commaSeparated_places {expression : Parser Expr} (places : Places .expression expression)
    (commas : Nat) (cursor : Cursor) (orderly : Orderly cursor.rest) :
    (commaSeparated expression commas).Ensures cursor fun result after =>
      ∃ head tail first others, cursor.Reads after (head ++ tail) ∧ result = first :: others ∧
        Stands .expression head first ∧ Stands .items tail others := by
  induction commas generalizing cursor with
  | zero =>
    refine (places cursor orderly).bind ?_
    rintro first after ⟨head, reads, stands⟩
    exact .pure ⟨head, [], first, [], (List.append_nil head).symm ▸ reads, rfl, stands, .noItem⟩
  | succ commas ih =>
    refine (places cursor orderly).bind ?_
    rintro first between ⟨head, reads, stands⟩
    refine (accept_reads (by simp) between).bind ?_
    rintro accepted after (⟨rfl, comma, divided, skipped⟩ | ⟨rfl, rfl⟩)
    · rw [if_pos rfl]
      have rest := ((reads.trans skipped).orderly orderly).right
      refine (ih after rest).bind ?_
      rintro _ last ⟨head', tail, second, others, more, rfl, stands', items⟩
      refine .pure ⟨head, comma ++ (head' ++ tail), first, second :: others, ?_, rfl, stands,
        .item divided stands' items⟩
      exact reads.trans (skipped.trans more)
    · exact .pure
        ⟨head, [], first, [], (List.append_nil head).symm ▸ reads, rfl, stands, .noItem⟩

/-- The arguments of a call are none, or an expression and the items after it. -/
theorem callArguments_places {expression : Parser Expr} (places : Places .expression expression)
    (cursor : Cursor) (orderly : Orderly cursor.rest) :
    (callArguments expression).Ensures cursor fun result after =>
      (result = [] ∧ after = cursor) ∨
      ∃ head tail first others, cursor.Reads after (head ++ tail) ∧ result = first :: others ∧
        Stands .expression head first ∧ Stands .items tail others := by
  refine .step (peek_apply cursor) ?_
  split
  · exact .pure (.inl ⟨rfl, rfl⟩)
  · refine .step (remaining_apply cursor) ?_
    exact (commaSeparated_places places _ cursor orderly).mono fun _ _ => .inr

/-- A primary parser reads a literal, a word, a call or an expression between parentheses. -/
theorem primary_places {expression : Parser Expr} (places : Places .expression expression) :
    Places (.expr .primary) (primary expression) := by
  intro cursor orderly
  refine .step (nextSpan_apply cursor) (.step (peek_apply cursor) ?_)
  split
  · rename_i value found
    obtain ⟨literal, kind, rfl⟩ := literal?_eq_some_iff.mp found
    obtain ⟨slice, written, reads, span⟩ := Cursor.exists_reads_advance kind
      (by cases literal <;> simp [Literal.kind])
    refine .step (skip_apply cursor) (.pure ⟨slice, reads, ?_⟩)
    rw [span]
    exact .literal written
  · split
    · rename_i found
      obtain ⟨opening, opened, skipped, -⟩ := Cursor.exists_reads_advance found (by simp)
      refine .step (skip_apply cursor) ?_
      refine (places cursor.advance (skipped.orderly orderly).right).bind ?_
      rintro inner between ⟨inside, reads, stands⟩
      refine (expect_reads .rightParen .closingParentheses between).bind ?_
      rintro _ after ⟨closing, closed, ends⟩
      have whole := skipped.trans (reads.trans ends)
      refine .step (previousSpan_apply after) (.pure ⟨_, whole, ?_⟩)
      rw [whole.merge_eq orderly (append_ne_nil_of_kinds opened _)]
      exact .parens opened closed stands
    · rename_i name found
      obtain ⟨callee, written, skipped, span⟩ := Cursor.exists_reads_advance found (by simp)
      refine .step (peekSecond_apply cursor) ?_
      split
      · rename_i second
        obtain ⟨opening, opened, skipped', -⟩ :=
          Cursor.exists_reads_advance (cursor.kind_advance.trans second) (by simp)
        have rest := ((skipped.trans skipped').orderly orderly).right
        refine .step (skip_apply cursor) (.step (skip_apply cursor.advance) ?_)
        refine (callArguments_places places _ rest).bind ?_
        rintro _ between (⟨rfl, rfl⟩ | ⟨head, tail, first, others, reads, rfl, stands, items⟩)
        · refine (expect_reads .rightParen .afterCallArguments _).bind ?_
          rintro _ after ⟨closing, closed, ends⟩
          have whole := skipped.trans (skipped'.trans ends)
          refine .step (previousSpan_apply after) (.pure ⟨_, whole, ?_⟩)
          rw [whole.merge_eq orderly (append_ne_nil_of_kinds written _), span]
          exact .callNone written (by rw [List.map_append, opened, closed]; rfl)
        · refine (expect_reads .rightParen .afterCallArguments between).bind ?_
          rintro _ after ⟨closing, closed, ends⟩
          have whole := skipped.trans (skipped'.trans (reads.trans ends))
          rw [List.append_assoc head] at whole
          refine .step (previousSpan_apply after) (.pure ⟨_, whole, ?_⟩)
          rw [whole.merge_eq orderly (append_ne_nil_of_kinds written _), span]
          exact .call written opened closed stands items
      · refine .step (skip_apply cursor) (.pure ⟨callee, skipped, ?_⟩)
        rw [span]
        exact .reference written
    · exact .fail

/-- An expression parser reads an expression. -/
theorem expressionWithin_places (levels : Nat) :
    Places .expression (expressionWithin levels) := by
  induction levels with
  | zero => exact fun _ _ => .fail
  | succ levels ih =>
    have operand := signed_places (primary_places ih) maxNesting
    have operators := chained_places .equation
      (chained_places .sum (chained_places .product operand))
    intro cursor orderly
    refine (operators.nested cursor orderly).mono ?_
    rintro expr after ⟨slice, reads, stands⟩
    exact ⟨slice, reads, .expression stands⟩

/-- An expression parser reads an expression. -/
theorem expression_places : Places .expression expression := expressionWithin_places maxNesting

/-! ### Statements -/

/-- Further coordinates are items, at most as many as there is room for. -/
theorem moreCoordinates_places (keyword : Keyword) (room : Nat) (cursor : Cursor)
    (orderly : Orderly cursor.rest) :
    (moreCoordinates keyword room).Ensures cursor fun result after =>
      result.length ≤ room ∧
        ∃ slice, cursor.Reads after slice ∧ Stands .items slice result := by
  induction room generalizing cursor with
  | zero =>
    refine .step (peek_apply cursor) ?_
    split
    · exact .fail
    · exact .pure ⟨Nat.le_refl _, [], .refl cursor, .noItem⟩
  | succ room ih =>
    refine (accept_reads (by simp) cursor).bind ?_
    rintro accepted opened (⟨rfl, comma, divided, skipped⟩ | ⟨rfl, rfl⟩)
    · rw [if_pos rfl]
      refine (expression_places opened (skipped.orderly orderly).right).bind ?_
      rintro first between ⟨head, reads, stands⟩
      have before := skipped.trans reads
      refine (ih between (before.orderly orderly).right).bind ?_
      rintro others after ⟨few, tail, more, items⟩
      exact .pure ⟨Nat.succ_le_succ few, _, skipped.trans (reads.trans more),
        .item divided stands items⟩
    · exact .pure ⟨Nat.zero_le _, [], .refl opened, .noItem⟩

/-- Coordinates are an expression and at most two items. -/
theorem coordinates_places (keyword : Keyword) : Places .coordinates (coordinates keyword) := by
  intro cursor orderly
  refine (expression_places cursor orderly).bind ?_
  rintro first between ⟨head, reads, stands⟩
  refine (moreCoordinates_places keyword 2 between (reads.orderly orderly).right).bind ?_
  rintro others after ⟨few, tail, more, items⟩
  exact .pure ⟨head ++ tail, reads.trans more, .coordinates stands items few⟩

/-- A keyword and an expression between parentheses are read. -/
theorem parenthesised_places (keyword : Keyword) (place : Place) (cursor : Cursor)
    (orderly : Orderly cursor.rest) :
    (parenthesised keyword place).Ensures cursor fun expr after =>
      ∃ opening guard closing, cursor.Reads after (opening ++ (guard ++ closing)) ∧
        opening.map Token.kind = [.symbol .leftParen] ∧
        closing.map Token.kind = [.symbol .rightParen] ∧ Stands .expression guard expr := by
  refine (expect_reads .leftParen (.afterKeyword keyword) cursor).bind ?_
  rintro _ opened ⟨opening, kinds, skipped⟩
  refine (expression_places opened (skipped.orderly orderly).right).bind ?_
  rintro expr between ⟨guard, reads, stands⟩
  refine (expect_reads .rightParen place between).bind ?_
  rintro _ after ⟨closing, kinds', ends⟩
  exact .pure ⟨opening, guard, closing, skipped.trans (reads.trans ends), kinds, kinds', stands⟩

/-- The end of an action is read. -/
theorem finishAction_places (keyword : Keyword) (cursor : Cursor) :
    (finishAction keyword).Ensures cursor fun _ after =>
      ∃ closing, closing.map Token.kind = [.symbol .rightParen, .symbol .semicolon] ∧
        cursor.Reads after closing := by
  refine (expect_reads .rightParen (.afterArguments keyword) cursor).bind ?_
  rintro _ between ⟨closing, kinds, reads⟩
  refine (expect_reads .semicolon (.afterStatement keyword) between).mono ?_
  rintro _ after ⟨ending, kinds', reads'⟩
  refine ⟨closing ++ ending, ?_, reads.trans reads'⟩
  rw [List.map_append, kinds, kinds']
  rfl

/-- What a statement between the parentheses of an action stands on, once they are around it. -/
def ActsOn (keyword : Keyword) (build : Span → Stmt) (slice : List Token) : Prop :=
  ∀ {opening closing}, opening.map Token.kind = [.keyword keyword, .symbol .leftParen] →
    closing.map Token.kind = [.symbol .rightParen, .symbol .semicolon] →
    Stands .statement (opening ++ (slice ++ closing))
      (build (extent (opening ++ (slice ++ closing))))

/-- A motion is a direction, or a target with its offset. -/
theorem motion_places (cursor : Cursor) (orderly : Orderly cursor.rest) :
    motion.Ensures cursor fun result after =>
      ∃ slice, cursor.Reads after slice ∧ ActsOn .move (.move result.1 result.2) slice := by
  refine .step (peek_apply cursor) (.step (peekSecond_apply cursor) ?_)
  split
  · rename_i heading found second
    have word := direction?_eq_some_iff.mp found
    obtain ⟨slice, written, reads, -⟩ := Cursor.exists_reads_advance word (by simp)
    refine .step (skip_apply cursor) (.pure ⟨slice, reads, fun opened closed => .moveStep ?_⟩)
    rw [List.map_append, List.map_append, opened, written, closed]
    rfl
  · refine (expression_places cursor orderly).bind ?_
    rintro target between ⟨actor, reads, stands⟩
    refine (accept_reads (by simp) between).bind ?_
    rintro accepted opened (⟨rfl, comma, divided, skipped⟩ | ⟨rfl, rfl⟩)
    · rw [if_pos rfl]
      have rest := ((reads.trans skipped).orderly orderly).right
      refine (coordinates_places .move opened rest).bind ?_
      rintro distance after ⟨offset, more, stands'⟩
      refine .pure ⟨_, reads.trans (skipped.trans more), fun opened closed => ?_⟩
      simp only [List.append_assoc]
      exact .moveBy opened divided closed stands stands'
    · exact .step (peek_apply opened) .failAt

/-- Opponents are a target, or an attacker and a target. -/
theorem opponents_places (cursor : Cursor) (orderly : Orderly cursor.rest) :
    opponents.Ensures cursor fun result after =>
      ∃ slice, cursor.Reads after slice ∧ ActsOn .attack (.attack result.1 result.2) slice := by
  refine (expression_places cursor orderly).bind ?_
  rintro first between ⟨fighter, reads, stands⟩
  refine (accept_reads (by simp) between).bind ?_
  rintro accepted opened (⟨rfl, comma, divided, skipped⟩ | ⟨rfl, rfl⟩)
  · rw [if_pos rfl]
    have rest := ((reads.trans skipped).orderly orderly).right
    refine (expression_places opened rest).bind ?_
    rintro target after ⟨enemy, more, stands'⟩
    refine .step rfl (.step (peek_apply after) ?_)
    split
    · exact .fail
    · refine .pure ⟨_, reads.trans (skipped.trans more), fun opened closed => ?_⟩
      simp only [List.append_assoc]
      exact .attackBy opened divided closed stands stands'
  · refine .step rfl (.step (peek_apply opened) ?_)
    split
    · exact .fail
    · exact .pure ⟨fighter, reads, fun opened closed => .attack opened closed stands⟩

/-- A statement that acts on the world stands on its keyword, its arguments and its semicolon. -/
theorem acting_places {α : Type} {keyword : Keyword} (found : cursor.kind = .keyword keyword)
    (orderly : Orderly cursor.rest) {inner : Parser α} {build : α → Span → Stmt}
    (inside : ∀ opened : Cursor, Orderly opened.rest →
      inner.Ensures opened fun result after =>
        ∃ slice, opened.Reads after slice ∧ ActsOn keyword (build result) slice) :
    (do
      skip
      expect .leftParen (.afterKeyword keyword)
      let result ← inner
      finishAction keyword
      return build result (cursor.span.merge (← previousSpan)) : Parser Stmt).Ensures cursor
        fun stmt after => ∃ slice, cursor.Reads after slice ∧ Stands .statement slice stmt := by
  obtain ⟨word, worded, skipped, -⟩ := Cursor.exists_reads_advance found (by simp)
  refine .step (skip_apply cursor) ?_
  refine (expect_reads .leftParen (.afterKeyword keyword) cursor.advance).bind ?_
  rintro _ opened ⟨opening, kinds, skipped'⟩
  have before := skipped.trans skipped'
  have front : (word ++ opening).map Token.kind = [.keyword keyword, .symbol .leftParen] := by
    rw [List.map_append, worded, kinds]
    rfl
  refine (inside opened (before.orderly orderly).right).bind ?_
  rintro result between ⟨slice, reads, acts⟩
  refine (finishAction_places keyword between).bind ?_
  rintro _ after ⟨closing, closed, ends⟩
  have whole := before.trans (reads.trans ends)
  refine .step (previousSpan_apply after) (.pure ⟨_, whole, ?_⟩)
  rw [whole.merge_eq orderly (append_ne_nil_of_kinds front _)]
  exact acts front closed

/-- A keyword, an expression between parentheses and a block are read, and the statement goes on. -/
theorem headed_places {block : Place → Parser (Block Stmt)}
    (places : ∀ place, Places .block (block place)) {keyword : Keyword}
    (found : cursor.kind = .keyword keyword) (place : Place) (orderly : Orderly cursor.rest)
    {next : Expr → Block Stmt → Parser Stmt} {post : Stmt → Cursor → Prop}
    (onward : ∀ {opening guard closing rest : List Token} {expr : Expr} {body : Block Stmt}
      {after : Cursor}, opening.map Token.kind = [.keyword keyword, .symbol .leftParen] →
      closing.map Token.kind = [.symbol .rightParen] → Stands .expression guard expr →
      Stands .block rest body → cursor.Reads after (opening ++ (guard ++ (closing ++ rest))) →
      (next expr body).Ensures after post) :
    (do
      skip
      let expr ← parenthesised keyword place
      let body ← block (.beforeBody keyword)
      next expr body : Parser Stmt).Ensures cursor post := by
  obtain ⟨word, worded, skipped, -⟩ := Cursor.exists_reads_advance found (by simp)
  refine .step (skip_apply cursor) ?_
  refine (parenthesised_places keyword place _ (skipped.orderly orderly).right).bind ?_
  rintro expr between ⟨opening, guard, closing, reads, opened, closed, test⟩
  refine (places (.beforeBody keyword) between
    ((skipped.trans reads).orderly orderly).right).bind ?_
  rintro body after ⟨rest, more, stmts⟩
  have front : (word ++ opening).map Token.kind = [.keyword keyword, .symbol .leftParen] := by
    rw [List.map_append, worded, opened]
    rfl
  refine onward front closed test stmts ?_
  simpa only [List.append_assoc] using skipped.trans (reads.trans more)

/-- A branch stands on its condition, its block and its alternative. -/
theorem branched_places {block : Place → Parser (Block Stmt)}
    (places : ∀ place, Places .block (block place)) {between : Cursor}
    (orderly : Orderly cursor.rest) {opening guard closing rest : List Token} {condition : Expr}
    {consequent : Block Stmt}
    (opened : opening.map Token.kind = [.keyword .ifWord, .symbol .leftParen])
    (closed : closing.map Token.kind = [.symbol .rightParen])
    (test : Stands .expression guard condition) (stmts : Stands .block rest consequent)
    (reads : cursor.Reads between (opening ++ (guard ++ (closing ++ rest)))) :
    (do
      let alternative ←
        if ← accept (.keyword .elseWord) then
          some <$> block (.afterKeyword .elseWord)
        else
          pure none
      return .branch condition consequent alternative (cursor.span.merge (← previousSpan)) :
        Parser Stmt).Ensures between
          fun stmt after => ∃ slice, cursor.Reads after slice ∧ Stands .statement slice stmt := by
  refine (accept_reads (by simp) between).bind ?_
  rintro accepted turned (⟨rfl, otherwise, kinds, skipped⟩ | ⟨rfl, rfl⟩)
  · have before := reads.trans skipped
    rw [if_pos rfl, map_eq_pure_bind, bind_assoc]
    refine (places (.afterKeyword .elseWord) turned (before.orderly orderly).right).bind ?_
    rintro alternative after ⟨rest', more, others⟩
    have whole := reads.trans (skipped.trans more)
    simp only [List.append_assoc] at whole
    refine .step rfl (.step (previousSpan_apply after) (.pure ⟨_, whole, ?_⟩))
    rw [whole.merge_eq orderly (append_ne_nil_of_kinds opened _)]
    exact .branchElse opened closed kinds test stmts others
  · refine .step rfl (.step (previousSpan_apply turned) (.pure ⟨_, reads, ?_⟩))
    rw [reads.merge_eq orderly (append_ne_nil_of_kinds opened _)]
    exact .branch opened closed test stmts

/-- A statement parser reads statements if its block parser reads blocks. -/
theorem statement_places {block : Place → Parser (Block Stmt)}
    (places : ∀ place, Places .block (block place)) : Places .statement (statement block) := by
  intro cursor orderly
  refine .step (nextSpan_apply cursor) ?_
  refine .step (peek_apply cursor) (.step (peekSecond_apply cursor) ?_)
  split
  · rename_i found
    refine headed_places places found .afterCondition orderly ?_
    intro opening guard closing rest condition consequent after opened closed test stmts reads
    exact branched_places places orderly opened closed test stmts reads
  · rename_i found
    refine headed_places places found .afterCondition orderly ?_
    intro opening guard closing rest condition body after opened closed test stmts reads
    refine .step (previousSpan_apply after) (.pure ⟨_, reads, ?_⟩)
    rw [reads.merge_eq orderly (append_ne_nil_of_kinds opened _)]
    exact .whileLoop opened closed test stmts
  · rename_i found
    refine headed_places places found .afterCount orderly ?_
    intro opening guard closing rest count body after opened closed test stmts reads
    refine .step (previousSpan_apply after) (.pure ⟨_, reads, ?_⟩)
    rw [reads.merge_eq orderly (append_ne_nil_of_kinds opened _)]
    exact .repeatLoop opened closed test stmts
  · rename_i found
    exact acting_places found orderly motion_places
  · rename_i found
    refine acting_places found orderly fun opened inOrder => ?_
    refine (coordinates_places .moveTo opened inOrder).mono ?_
    rintro position after ⟨slice, reads, stands⟩
    exact ⟨slice, reads, fun opened closed => .moveTo opened closed stands⟩
  · rename_i found
    exact acting_places found orderly opponents_places
  · rename_i name found second
    obtain ⟨word, written, skipped, span⟩ := Cursor.exists_reads_advance found (by simp)
    obtain ⟨sign, signed, skipped', -⟩ :=
      Cursor.exists_reads_advance (cursor.kind_advance.trans second) (by simp)
    have rest := ((skipped.trans skipped').orderly orderly).right
    refine .step (skip_apply cursor) (.step (skip_apply cursor.advance) ?_)
    refine (expression_places _ rest).bind ?_
    rintro value between ⟨content, reads, stands⟩
    refine (expect_reads .semicolon .afterAssignment between).bind ?_
    rintro _ after ⟨closing, closed, ends⟩
    have whole := skipped.trans (skipped'.trans (reads.trans ends))
    refine .step (previousSpan_apply after) (.pure ⟨_, whole, ?_⟩)
    rw [whole.merge_eq orderly (append_ne_nil_of_kinds written _), span]
    exact .assign written signed closed stands
  · refine (expression_places cursor orderly).bind ?_
    rintro expr between ⟨content, reads, stands⟩
    refine (expect_reads .semicolon .afterExpression between).bind ?_
    rintro _ after ⟨closing, closed, ends⟩
    have whole := (reads.trans ends).orderly orderly
    refine .step (previousSpan_apply after) (.pure ⟨_, reads.trans ends, ?_⟩)
    -- The span is merged from that of the expression, which stands for its first token.
    have merged : expr.span.merge after.previous = extent (content ++ closing) := by
      rw [stands.span_eq expr.span rfl, ends.previous_eq_extent closed]
      exact extent_merge [] whole.left (stands.ne_nil rfl) (ne_nil_of_kinds closed)
    rw [merged]
    exact .evaluate closed stands

/-- Statements up to a closing token are read one after the other. -/
theorem statements_places {statement : Parser Stmt} (places : Places .statement statement)
    (closing : TokenKind → Bool) (count : Nat) :
    Places .statements (statements closing statement count) := by
  induction count with
  | zero => exact fun cursor _ => .pure ⟨[], .refl cursor, .noStatement⟩
  | succ count ih =>
    intro cursor orderly
    refine .step (peek_apply cursor) ?_
    split
    · exact .pure ⟨[], .refl cursor, .noStatement⟩
    · refine (places cursor orderly).bind ?_
      rintro first between ⟨head, reads, stmt⟩
      refine (ih between (reads.orderly orderly).right).bind ?_
      rintro others after ⟨tail, more, stmts⟩
      exact .pure ⟨head ++ tail, reads.trans more, .andThen stmt stmts⟩

/-- A block parser reads blocks. -/
theorem blockWithin_places (levels : Nat) (place : Place) :
    Places .block (blockWithin levels place) := by
  induction levels generalizing place with
  | zero =>
    intro cursor _
    exact (expect_reads .leftBrace place cursor).bind fun _ _ _ => .fail
  | succ levels ih =>
    have body : Places .statements (do
        statements endsBlock (statement (blockWithin levels)) (← remaining)) := by
      intro cursor orderly
      refine .step (remaining_apply cursor) ?_
      exact statements_places (statement_places ih) endsBlock _ cursor orderly
    intro cursor orderly
    refine .step (nextSpan_apply cursor) ?_
    refine (expect_reads .leftBrace place cursor).bind ?_
    rintro _ between ⟨opening, opened, skipped⟩
    refine (body.nested between (skipped.orderly orderly).right).bind ?_
    rintro stmts last ⟨inside, reads, stands⟩
    refine (expect_reads .rightBrace .closingBlock last).bind ?_
    rintro _ after ⟨closing, closed, ends⟩
    have whole := skipped.trans (reads.trans ends)
    refine .step (previousSpan_apply after) (.pure ⟨_, whole, ?_⟩)
    rw [whole.merge_eq orderly (append_ne_nil_of_kinds opened _)]
    exact .block opened closed stands

/-- The statements of a program stand on the tokens that were read, and so does the program. -/
theorem program_places (cursor : Cursor) (orderly : Orderly cursor.rest) :
    program.Ensures cursor fun result after =>
      ∃ slice, cursor.Reads after slice ∧ Stands .statements slice result.stmts ∧
        (result.stmts ≠ [] → result.span = extent slice) := by
  refine .step (nextSpan_apply cursor) (.step (remaining_apply cursor) ?_)
  refine (statements_places (statement_places (blockWithin_places maxNesting)) endsProgram _
    cursor orderly).bind ?_
  rintro stmts after ⟨slice, reads, stands⟩
  refine .step (previousSpan_apply after) (.pure ⟨slice, reads, stands, fun some => ?_⟩)
  have present : stmts.isEmpty = false := by simpa using some
  dsimp only
  rw [present, if_neg Bool.false_ne_true]
  exact reads.merge_eq orderly (stands.statements_ne_nil some)

end Parser

/-! ### Scripts -/

/-- The position after more of a text is not an earlier one. -/
theorem Position.past_le_append {text : List Char} (more : List Char)
    (short : (text ++ more).length < 2 ^ 32 - 1) : past text ≤ past (text ++ more) := by
  by_cases none : more = []
  · rw [none, List.append_nil]
    exact le_refl _
  · exact (before_past none short).le

/-- Tokens lie between two positions. -/
def LieBetween (low high : Position) (tokens : List Token) : Prop :=
  ∀ token ∈ tokens, low ≤ token.span.start ∧ token.span.stop.Before high

/-- Tokens up to a position and tokens from it on are in order if both are. -/
theorem Orderly.append {early late : List Token} {low middle high : Position} (one : Orderly early)
    (two : Orderly late) (ends : LieBetween low middle early)
    (begins : LieBetween middle high late) : Orderly (early ++ late) where
  forward := List.forall_mem_append.mpr ⟨one.forward, two.forward⟩
  apart := by
    refine List.pairwise_append.mpr ⟨one.apart, two.apart, fun first inFirst second inSecond => ?_⟩
    exact (ends first inFirst).2.trans_le (begins second inSecond).1

/-- The token of a lexeme is in order, and lies where the lexeme does. -/
theorem Lexeme.orderly_token? {lexeme : Lexeme} {text : List Char} (some : lexeme.text ≠ [])
    (short : (text ++ lexeme.text).length < 2 ^ 32 - 1) :
    Orderly (lexeme.token? (.past text)).toList ∧
      LieBetween (.past text) (.past (text ++ lexeme.text))
        (lexeme.token? (.past text)).toList := by
  rw [token?]
  rcases lexeme.kind? with _ | kind
  · exact ⟨⟨List.forall_mem_nil _, .nil⟩, List.forall_mem_nil _⟩
  · obtain ⟨early, last, split⟩ := (List.eq_nil_or_concat lexeme.text).resolve_left some
    have stop : (Span.covering (.past text) lexeme.text).stop = .past (text ++ early) := by
      rw [Span.covering, split, List.concat_eq_append, List.dropLast_concat, Position.past_append]
    rw [split, List.concat_eq_append, ← List.append_assoc] at short
    have inside : Position.past text ≤ .past (text ++ early) := by
      refine Position.past_le_append early ?_
      rw [List.length_append] at short
      omega
    have final : (Position.past (text ++ early)).Before (.past (text ++ lexeme.text)) := by
      rw [split, List.concat_eq_append, ← List.append_assoc]
      exact Position.before_past (by simp) short
    refine ⟨⟨List.forall_mem_singleton.mpr ?_, List.pairwise_singleton _ _⟩,
      List.forall_mem_singleton.mpr ⟨Position.le_refl _, ?_⟩⟩
    · exact stop.symm ▸ inside
    · exact stop.symm ▸ final

/-- The tokens of lexemes are in order, and lie where the lexemes do. -/
theorem orderly_tokensFrom {lexemes : List Lexeme} (text : List Char)
    (some : ∀ lexeme ∈ lexemes, lexeme.text ≠ [])
    (short : (text ++ lexemes.flatMap Lexeme.text).length < 2 ^ 32 - 1) :
    Orderly (tokensFrom (.past text) lexemes) ∧
      LieBetween (.past text) (.past (text ++ lexemes.flatMap Lexeme.text))
        (tokensFrom (.past text) lexemes) := by
  induction lexemes generalizing text with
  | nil => exact ⟨⟨List.forall_mem_nil _, .nil⟩, List.forall_mem_nil _⟩
  | cons lexeme rest ih =>
    obtain ⟨solid, others⟩ := List.forall_mem_cons.mp some
    rw [List.flatMap_cons, ← List.append_assoc] at short ⊢
    have fits : (text ++ lexeme.text).length < 2 ^ 32 - 1 := by
      rw [List.length_append] at short
      omega
    obtain ⟨one, lies⟩ := lexeme.orderly_token? solid fits
    obtain ⟨two, lies'⟩ := ih (text ++ lexeme.text) others short
    rw [tokensFrom, ← Position.past_append]
    refine ⟨one.append two lies lies', List.forall_mem_append.mpr ⟨?_, ?_⟩⟩
    · intro token member
      obtain ⟨start, stop⟩ := lies token member
      exact ⟨start, stop.trans_le (Position.past_le_append (rest.flatMap Lexeme.text) short)⟩
    · intro token member
      obtain ⟨start, stop⟩ := lies' token member
      exact ⟨Position.le_trans (Position.past_le_append lexeme.text fits) start, stop⟩

/-- The tokens of lexemes that begin a short script are in order, and then comes the end of the
input. -/
theorem orderly_tokensFrom_end {lexemes : List Lexeme}
    (some : ∀ lexeme ∈ lexemes, lexeme.text ≠ [])
    (short : (lexemes.flatMap Lexeme.text).length < 2 ^ 32 - 1) :
    Orderly (tokensFrom .first lexemes ++
      [.endOfInput (.past (lexemes.flatMap Lexeme.text))]) := by
  obtain ⟨orderly, lies⟩ := orderly_tokensFrom [] some short
  refine ⟨List.forall_mem_append.mpr ⟨orderly.forward, ?_⟩, List.pairwise_append.mpr
    ⟨orderly.apart, List.pairwise_singleton _ _, fun token member finish ends => ?_⟩⟩
  · exact List.forall_mem_singleton.mpr (Position.le_refl _)
  · rw [List.mem_singleton.mp ends]
    exact (lies token member).2

/-- The tokens of a short text are in order. -/
theorem orderly_tokensOf {text : List Char} (short : text.length < 2 ^ 32 - 1) :
    Orderly (tokensOf .first text) := by
  have orderly : Orderly (tokensFrom .first (lexemes text) ++
      [.endOfInput (.past ((lexemes text).flatMap Lexeme.text))]) :=
    orderly_tokensFrom_end text_ne_nil_of_mem_lexemes (by rwa [text_lexemes])
  rwa [text_lexemes] at orderly

/-- Every node of a script that is read stands on the tokens it was read from, so the spans are
nested as the nodes are and siblings come one after the other. -/
theorem SourceFile.compile_spans_exact {file : SourceFile} {program : Program}
    (short : file.text.length < 2 ^ 32 - 1) (compiled : file.compile = .ok program) :
    ∃ tokens finish, file.lex.tokens = tokens ++ [finish] ∧ finish.kind = .endOfInput ∧
      Stands .statements tokens program.stmts ∧
      (program.stmts ≠ [] → program.span = extent tokens ∧ program.spanTree.Sound) := by
  rcases file.compile_cases with ⟨-, refused⟩ | ⟨clean, parsed⟩
  · rw [refused] at compiled
    cases compiled
  · rw [parsed, parse_eq_ok_iff] at compiled
    obtain ⟨after, read⟩ := compiled
    rw [tokens_of_lex clean] at read ⊢
    have few : file.text.toList.length < 2 ^ 32 - 1 := by rwa [String.length_toList]
    have orderly := orderly_tokensOf few
    obtain ⟨slice, reads, stands, span⟩ :=
      Parser.program_places (.start (tokensOf .first file.text.toList)) orderly program after read
    have complete := complete_tokensFrom .first (lexemes file.text.toList)
      (file.text.toList.foldl Position.after .first)
    obtain ⟨left, -⟩ := complete.read (Parser.statements_of_program read)
    have split : tokensOf .first file.text.toList = slice ++ after.rest := reads.rest_eq
    rw [left] at split
    rw [split] at orderly ⊢
    refine ⟨slice, _, rfl, rfl, stands, fun some => ⟨span some, ?_⟩⟩
    have whole := (stands.fits orderly.left).node orderly.left (stands.statements_ne_nil some)
    rw [Program.spanTree, span some]
    exact whole.sound _ List.mem_cons_self

/-- A sum between parentheses stands on them, and a branch on its closing brace. -/
theorem SourceFile.compile_spans_exact_branch :
    ∃ program,
      compile ⟨"sum.bee", "x = (a + b) * f(1, -2);\nif (x) \x7b attack(a, b); \x7d"⟩ = .ok program ∧
      program.stmts.map Stmt.span = [⟨⟨1, 1⟩, ⟨1, 23⟩⟩, ⟨⟨2, 1⟩, ⟨2, 24⟩⟩] ∧
      ∃ tokens finish,
        (lex ⟨"sum.bee", "x = (a + b) * f(1, -2);\nif (x) \x7b attack(a, b); \x7d"⟩).tokens =
          tokens ++ [finish] ∧ finish.kind = .endOfInput ∧
        Stands .statements tokens program.stmts ∧
        (program.stmts ≠ [] → program.span = extent tokens ∧ program.spanTree.Sound) := by
  have spans : (match
      compile ⟨"sum.bee", "x = (a + b) * f(1, -2);\nif (x) \x7b attack(a, b); \x7d"⟩ with
      | .ok program => program.stmts.map Stmt.span
      | .error _ => []) = [⟨⟨1, 1⟩, ⟨1, 23⟩⟩, ⟨⟨2, 1⟩, ⟨2, 24⟩⟩] := by decide +kernel
  rcases compiled :
      compile ⟨"sum.bee", "x = (a + b) * f(1, -2);\nif (x) \x7b attack(a, b); \x7d"⟩ with
    errors | program
  · rw [compiled] at spans
    cases spans
  · rw [compiled] at spans
    exact ⟨program, rfl, spans, compile_spans_exact (by decide +kernel) compiled⟩

end Waggle
