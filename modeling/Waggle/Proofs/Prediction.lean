import Waggle.Proofs.Concatenation
import Waggle.Proofs.Tracking

/-!
# A parser stops at the first impossible token

The parser of each part of the grammar takes it as the grammar allows, whatever may follow
(`Parser.Predicts`), with one step for each equation of the part. Where a decision looks two tokens
ahead, it is compared with what may begin with both of them. For a script this means that the tokens
before the one that is refused begin some script, and those up to it begin none.
-/

namespace Waggle

namespace Parser

/-! ### Expressions -/

/-- A chain takes operators of its level, each with an operand after it. -/
theorem chain_tracks {level : Level} {operand : Parser Expr}
    (predicts : operand.Predicts (.expr level.operand)) {rest : Set (List TokenKind)}
    (admits : (Part.tail level).Admits rest) (levels : Nat) (left : Expr) (cursor : Cursor) :
    (chain level.operator? operand levels left).Tracks cursor ((Part.tail level).before rest)
      rest := by
  have ends (cursor : Cursor) (left : Expr) (none : level.operator? cursor.kind = none) :
      (Pure.pure left : Parser Expr).Tracks cursor ((Part.tail level).before rest) rest := by
    refine .pure (fun more inside => Part.mem_tail_before.mpr (.inl inside)) fun more inside => ?_
    rcases Part.mem_tail_before.mp inside with inside | ⟨op, fits, inside⟩
    · exact inside
    · have found := Level.operator?_eq_some_iff.mpr ⟨(TokenKind.cons_mem_before.mp inside).1, fits⟩
      cases none.symm.trans found
  have opens {op : BinaryOp} (fits : op.level = level) (more : List TokenKind) :
      .symbol op.sign :: more ∈ (Part.tail level).before rest ↔
        more ∈ (Part.expr level.operand).before ((Part.tail level).before rest) := by
    constructor
    · intro inside
      rcases Part.mem_tail_before.mp inside with inside | ⟨other, _, inside⟩
      · refine absurd inside (admits.not_mem ?_)
        rw [Part.absorbs, Tier.absorbs_chain, Level.operator?_eq_some_iff.mpr ⟨rfl, fits⟩]
        exact Bool.or_true _
      · exact (TokenKind.cons_mem_before.mp inside).2
    · exact fun inside => Part.mem_tail_before.mpr (.inr ⟨op, fits, more, inside, rfl⟩)
  induction levels generalizing left cursor with
  | zero =>
    refine .look (peek_apply cursor) ?_
    split
    · exact ends cursor left ‹_›
    · rename_i op found
      obtain ⟨sign, fits⟩ := Level.operator?_eq_some_iff.mp found
      exact .skipTo sign (by simp) (opens fits) .tooDeep
  | succ levels ih =>
    refine .look (peek_apply cursor) ?_
    split
    · exact ends cursor left ‹_›
    · rename_i op found
      obtain ⟨sign, fits⟩ := Level.operator?_eq_some_iff.mp found
      refine .skipTo sign (by simp) (opens fits) (.nested ?_)
      exact (predicts _ _ admits.operand).bind fun right after _ => ih (left.join op right) after

/-- A chained parser takes an operand and the chain after it. -/
theorem chained_predicts (level : Level) {operand : Parser Expr}
    (predicts : operand.Predicts (.expr level.operand)) :
    (chained level.operator? operand).Predicts (.expr (.chain level)) := by
  intro cursor rest admits
  have tail : (Part.tail level).Admits rest := admits.mono fun _ ends => ends
  rw [Part.chain_before]
  exact (predicts cursor _ tail.operand).bind fun left after _ =>
    chain_tracks predicts tail maxNesting left after

/-- A signed parser takes signs and what stands behind them. -/
theorem signed_predicts {primary : Parser Expr} (predicts : primary.Predicts (.expr .primary))
    (levels : Nat) : (signed primary levels).Predicts (.expr .signed) := by
  have unsigned (cursor : Cursor) (rest : Set (List TokenKind))
      (admits : (Part.expr .signed).Admits rest) (positive : cursor.kind ≠ .symbol .minus) :
      primary.Tracks cursor ((Part.expr .signed).before rest) rest := by
    rw [Part.signed_before]
    refine (predicts cursor rest (admits.mono fun _ ends => ends)).narrow
      Set.subset_union_right fun more inside => ?_
    rcases inside with inside | inside
    · exact absurd (TokenKind.cons_mem_before.mp inside).1 positive
    · exact inside
  have opens (rest : Set (List TokenKind)) (more : List TokenKind) :
      .symbol .minus :: more ∈ (Part.expr .signed).before rest ↔
        more ∈ (Part.expr .signed).before rest := by
    constructor
    · intro inside
      rw [Part.signed_before] at inside
      rcases inside with inside | inside
      · exact (TokenKind.cons_mem_before.mp inside).2
      · cases Part.begins_of_mem_before rfl inside
    · intro inside
      rw [Part.signed_before]
      exact .inl ⟨more, inside, rfl⟩
  induction levels with
  | zero =>
    intro cursor rest admits
    refine .look (peek_apply cursor) ?_
    split
    · exact .skipTo ‹_› (by simp) (opens rest) .tooDeep
    · exact unsigned cursor rest admits ‹_›
  | succ levels ih =>
    intro cursor rest admits
    refine .look (peek_apply cursor) ?_
    split
    · refine .look (nextSpan_apply cursor) (.skipTo ‹_› (by simp) (opens rest) ?_)
      exact (Tracks.nested (ih _ rest admits)).bind fun _ _ _ => .done
    · exact unsigned cursor rest admits ‹_›

/-- Items with commas between them are taken up to the last one. -/
theorem commaSeparated_tracks {expression : Parser Expr}
    (predicts : expression.Predicts .expression) {rest : Set (List TokenKind)}
    (admits : Part.items.Admits rest) (commas : Nat) (cursor : Cursor)
    (few : cursor.rest.length ≤ commas) :
    (commaSeparated expression commas).Tracks cursor
      (Part.expression.before (Part.items.before rest)) rest := by
  induction commas generalizing cursor with
  | zero =>
    refine (predicts cursor _ admits.item).bind fun head after ran => ?_
    have fewer := predicts.consumes rfl cursor head after ran
    omega
  | succ commas ih =>
    refine (predicts cursor _ admits.item).bind fun head after ran => ?_
    have fewer := predicts.consumes rfl cursor head after ran
    have less := after.length_advance_le
    rw [Part.items_before]
    refine .acceptOr (by simp) (fun more => admits.not_mem rfl) ?_ .done
    exact (ih after.advance (by omega)).bind fun _ _ _ => .done

/-- Arguments are taken up to the closing parenthesis. -/
theorem callArguments_tracks {expression : Parser Expr}
    (predicts : expression.Predicts .expression) {rest : Set (List TokenKind)}
    (some : rest.Nonempty) (cursor : Cursor) :
    (callArguments expression).Tracks cursor (argumentsBefore rest)
      ((TokenKind.symbol .rightParen).before rest) := by
  refine .look (peek_apply cursor) ?_
  split
  · rename_i found
    refine .pure Set.subset_union_left fun more inside => ?_
    rw [found] at inside ⊢
    rcases inside with inside | inside
    · exact inside
    · cases Part.begins_of_mem_before rfl inside
  · rename_i other
    refine .look (remaining_apply cursor) ?_
    refine (commaSeparated_tracks predicts (.token some rfl) _ cursor (Nat.le_refl _)).narrow
      Set.subset_union_right fun more inside => ?_
    rcases inside with inside | inside
    · exact absurd (TokenKind.cons_mem_before.mp inside).1 other
    · exact inside

/-- A primary parser takes a literal, a word, a call or an expression between parentheses. -/
theorem primary_predicts {expression : Parser Expr} (predicts : expression.Predicts .expression) :
    (primary expression).Predicts (.expr .primary) := by
  intro cursor rest admits
  refine .look (nextSpan_apply cursor) (.look (peek_apply cursor) ?_)
  split
  · rename_i value found
    obtain ⟨literal, kind, rfl⟩ := literal?_eq_some_iff.mp found
    refine .skipTo kind (by cases literal <;> simp [Literal.kind]) (fun more => ?_) .done
    exact Part.literal_mem_before literal
  · rename_i unvalued
    split
    · rename_i opening
      refine .skipTo opening (by simp) (fun more => Part.leftParen_mem_before) ?_
      refine (predicts _ _ (.token admits.some rfl)).bind fun inner between _ => ?_
      refine (Tracks.expect .rightParen .closingParentheses admits.some).bind fun _ after _ => ?_
      exact .look (previousSpan_apply after) .done
    · rename_i name word
      refine .look (peekSecond_apply cursor) ?_
      split
      · rename_i opening
        refine .skipTo word (by simp) (fun more => Part.identifier_mem_before name) ?_
        refine .skipTo (cursor.kind_advance.trans opening) (by simp)
          (fun more => TokenKind.cons_mem_union (admits.not_mem rfl)) ?_
        refine (callArguments_tracks predicts admits.some _).bind fun arguments between _ => ?_
        refine (Tracks.expect .rightParen .afterCallArguments admits.some).bind fun _ after _ => ?_
        exact .look (previousSpan_apply after) .done
      · rename_i other
        refine .skipTo word (by simp) (fun more => Part.identifier_mem_before name) ?_
        refine .pure Set.subset_union_left fun more => TokenKind.mem_of_cons_mem_union ?_
        rwa [cursor.kind_advance]
    · rename_i noParen noWord
      refine .fail (Part.before_nonempty _ admits.some) fun more inside => ?_
      rcases Part.mem_primary_before.mp inside with ⟨literal, inside⟩ | ⟨name, inside⟩ | inside
      · have valued := literal?_eq_some_iff.mpr
          ⟨literal, (TokenKind.cons_mem_before.mp inside).1, rfl⟩
        cases unvalued.symm.trans valued
      · exact noWord name (TokenKind.cons_mem_before.mp inside).1
      · exact noParen (TokenKind.cons_mem_before.mp inside).1

/-- An expression parser takes an expression. -/
theorem expressionWithin_predicts (levels : Nat) :
    (expressionWithin levels).Predicts .expression := by
  induction levels with
  | zero => exact fun cursor rest _ => .tooDeep
  | succ levels ih =>
    intro cursor rest admits
    have operand := signed_predicts (primary_predicts ih) maxNesting
    have operators := chained_predicts .equation
      (chained_predicts .sum (chained_predicts .product operand))
    rw [Part.expression_before]
    exact .nested (operators _ rest (admits.mono fun _ ends => ends))

/-- An expression parser takes an expression. -/
theorem expression_predicts : expression.Predicts .expression :=
  expressionWithin_predicts maxNesting

/-- Where an expression with a mark after it begins with a word, only what begins with the next two
tokens matters. -/
theorem expression_tracks_word {cursor : Cursor} {mark : TokenKind}
    {whole rest : Set (List TokenKind)} (some : rest.Nonempty)
    (ends : Part.expression.absorbs mark = false) (plain : mark.beginsExpression = false)
    (word : ∃ more, cursor.kind :: more ∈ (Part.expr .primary).before (mark.before rest))
    (into : Part.expression.before (mark.before rest) ⊆ whole)
    (back : ∀ more, cursor.kind :: cursor.secondKind :: more ∈ whole →
      cursor.kind :: cursor.secondKind :: more ∈ Part.expression.before (mark.before rest)) :
    expression.Tracks cursor whole (mark.before rest) := by
  obtain ⟨first, begins⟩ := word
  obtain ⟨more, inside⟩ := some
  refine (expression_predicts cursor _ (.token ⟨more, inside⟩ ends)).narrowTwo into back
    ⟨first, Part.primary_before_subset begins⟩ ⟨mark :: more, ⟨more, inside, rfl⟩, fun marked => ?_⟩
  exact absurd (plain.symm.trans (Part.begins_of_mem_before rfl marked)) Bool.false_ne_true

/-! ### Statements -/

section Statements

variable {rest : Set (List TokenKind)}

/-- Further coordinates are taken while there is room for them, and no more. -/
theorem moreCoordinates_tracks (keyword : Keyword) (admits : Part.coordinates.Admits rest)
    (room : Nat) (cursor : Cursor) :
    (moreCoordinates keyword room).Tracks cursor (coordinatesBefore rest room) rest := by
  have apart (more : List TokenKind) : .symbol .comma :: more ∉ rest := admits.not_mem rfl
  induction room generalizing cursor with
  | zero =>
    refine .look (peek_apply cursor) ?_
    split
    · rename_i comma
      exact .fail admits.some fun more => comma ▸ apart more
    · exact .done
  | succ room ih =>
    refine .acceptOr (by simp) apart ?_ .done
    refine (expression_predicts _ _ (admits.coordinate room)).bind fun head after _ => ?_
    exact (ih after).bind fun _ _ _ => .done

/-- Coordinates are taken, one to three of them. -/
theorem coordinates_predicts (keyword : Keyword) :
    (coordinates keyword).Predicts .coordinates := by
  intro cursor rest admits
  rw [Part.coordinates_before]
  refine (expression_predicts cursor _ (admits.coordinate 2)).bind fun head after _ => ?_
  exact (moreCoordinates_tracks keyword admits 2 after).bind fun _ _ _ => .done

/-- An expression between parentheses is taken with them. -/
theorem parenthesised_tracks (keyword : Keyword) (place : Place) (some : rest.Nonempty)
    (cursor : Cursor) :
    (parenthesised keyword place).Tracks cursor (parenthesisedBefore Part.expression.before rest)
      rest := by
  have closing := TokenKind.before_nonempty (.symbol .rightParen) some
  refine (Tracks.expect .leftParen _ (Part.before_nonempty _ closing)).bind fun _ opened _ => ?_
  refine (expression_predicts opened _ (.token some rfl)).bind fun inner between _ => ?_
  exact (Tracks.expect .rightParen place some).bind fun _ _ _ => .done

/-- The end of an action is taken. -/
theorem finishAction_tracks (keyword : Keyword) (some : rest.Nonempty) (cursor : Cursor) :
    (finishAction keyword).Tracks cursor ((TokenKind.symbol .rightParen).before
      ((TokenKind.symbol .semicolon).before rest)) rest :=
  (Tracks.expect .rightParen _ (TokenKind.before_nonempty _ some)).bind fun _ _ _ =>
    Tracks.expect .semicolon _ some

/-- A direction is taken, or a target with coordinates. -/
theorem motion_tracks (some : rest.Nonempty) (cursor : Cursor) :
    motion.Tracks cursor (motionBefore ((TokenKind.symbol .rightParen).before rest))
      ((TokenKind.symbol .rightParen).before rest) := by
  have closing := TokenKind.before_nonempty (.symbol .rightParen) some
  refine .look (peek_apply cursor) (.look (peekSecond_apply cursor) ?_)
  split
  · rename_i heading found second
    have word := direction?_eq_some_iff.mp found
    refine .skip word (by simp) (.pure ?_ ?_)
    · exact fun more inside => .inl ⟨heading, more, inside, rfl⟩
    · rw [cursor.kind_advance, second]
      rintro more (⟨_, inside⟩ | inside)
      · exact (TokenKind.cons_mem_before.mp inside).2
      · exact absurd inside Part.not_direction_mem_before
  · rename_i unclosed
    have offsets := Part.before_nonempty .coordinates closing
    have target : expression.Tracks cursor
        (motionBefore ((TokenKind.symbol .rightParen).before rest))
        ((TokenKind.symbol .comma).before
          (Part.coordinates.before ((TokenKind.symbol .rightParen).before rest))) := by
      -- A direction is a heading or begins a target, which the token after it tells.
      by_cases directed : ∃ heading, cursor.kind = .keyword (.direction heading)
      · obtain ⟨heading, word⟩ := directed
        obtain ⟨more, inside⟩ := TokenKind.before_nonempty (.symbol .comma) offsets
        refine expression_tracks_word offsets rfl rfl ⟨more, ?_⟩ Set.subset_union_right ?_
        · rw [word]
          exact (Part.literal_mem_before (.direction heading)).mpr inside
        · rintro more (⟨other, inside⟩ | inside)
          · obtain ⟨-, inside⟩ := TokenKind.cons_mem_before.mp inside
            have second := (TokenKind.cons_mem_before.mp inside).1
            exact absurd second (unclosed heading (direction?_eq_some_iff.mpr word))
          · exact inside
      · refine (expression_predicts cursor _ (.token offsets rfl)).narrow Set.subset_union_right ?_
        rintro more (⟨heading, inside⟩ | inside)
        · exact absurd ⟨heading, (TokenKind.cons_mem_before.mp inside).1⟩ directed
        · exact inside
    refine target.bind fun expr between _ => ?_
    refine .accept (by simp) (fun more => TokenKind.cons_mem_before_self) ?_ fun _ => ?_
    · exact (coordinates_predicts .move _ _ (.token some rfl)).bind fun _ _ _ => .done
    · exact .look (peek_apply between) (.failAt (SyntaxFault.expectedDirection_excused _))

/-- A target is taken, or an attacker and a target, and no more. -/
theorem opponents_tracks (some : rest.Nonempty) (cursor : Cursor) :
    opponents.Tracks cursor (opponentsBefore ((TokenKind.symbol .rightParen).before rest))
      ((TokenKind.symbol .rightParen).before rest) := by
  have closing := TokenKind.before_nonempty (.symbol .rightParen) some
  -- Whatever was read, a further comma is refused.
  have last (pair : Option Expr × Expr) (cursor : Cursor) :
      (do if (← peek) = .symbol .comma then fail .tooManyArguments else return pair :
        Parser (Option Expr × Expr)).Tracks cursor
          ((TokenKind.symbol .rightParen).before rest)
          ((TokenKind.symbol .rightParen).before rest) := by
    refine .look (peek_apply cursor) ?_
    split
    · rename_i comma
      refine .fail closing fun more inside => ?_
      cases comma.symm.trans (TokenKind.cons_mem_before.mp inside).1
    · exact .done
  have onward : Part.expression.Admits ((TokenKind.symbol .rightParen).before rest ∪
      (TokenKind.symbol .comma).before
        (Part.expression.before ((TokenKind.symbol .rightParen).before rest))) :=
    .union (.token some rfl) (.token (Part.before_nonempty _ closing) rfl)
  refine (expression_predicts cursor _ onward).bind fun first between _ => ?_
  refine .acceptOr (by simp) (fun more inside => ?_) ?_ ?_
  · cases (TokenKind.cons_mem_before.mp inside).1
  · rw [if_pos rfl]
    refine (expression_predicts between.advance _ (.token some rfl)).bind fun second after _ => ?_
    exact .look rfl (last _ after)
  · exact .look rfl (last _ between)

/-- A statement that acts on the world is taken if its arguments are. -/
theorem acting_tracks {α : Type} {keyword : Keyword} {inner : Parser α}
    {arguments : Set (List TokenKind) → Set (List TokenKind)} (some : rest.Nonempty)
    (filled : ∀ {rest}, rest.Nonempty → (arguments rest).Nonempty)
    (tracks : ∀ cursor, inner.Tracks cursor
      (arguments
        ((TokenKind.symbol .rightParen).before ((TokenKind.symbol .semicolon).before rest)))
      ((TokenKind.symbol .rightParen).before ((TokenKind.symbol .semicolon).before rest)))
    (build : α → Span → Stmt) (span : Span) (cursor : Cursor) :
    (do
      expect .leftParen (.afterKeyword keyword)
      let result ← inner
      finishAction keyword
      return build result (span.merge (← previousSpan)) : Parser Stmt).Tracks cursor
        (parenthesisedBefore arguments ((TokenKind.symbol .semicolon).before rest)) rest := by
  have closing := TokenKind.before_nonempty (.symbol .rightParen)
    (TokenKind.before_nonempty (.symbol .semicolon) some)
  refine (Tracks.expect .leftParen _ (filled closing)).bind fun _ opened _ => ?_
  refine (tracks opened).bind fun result between _ => ?_
  refine (finishAction_tracks keyword some between).bind fun _ after _ => ?_
  exact .look (previousSpan_apply after) .done

/-- A statement parser takes statements if its block parser takes blocks. -/
theorem statement_predicts {block : Place → Parser (Block Stmt)}
    (predicts : ∀ place, (block place).Predicts .block) :
    (statement block).Predicts .statement := by
  intro cursor rest admits
  have body : Part.block.Admits rest := admits.mono fun _ _ => rfl
  have bodies := Part.before_nonempty .block admits.some
  have ending := TokenKind.before_nonempty (.symbol .semicolon) admits.some
  refine .look (nextSpan_apply cursor) ?_
  refine .look (peek_apply cursor) (.look (peekSecond_apply cursor) ?_)
  split
  · rename_i found
    refine .skipKeyword found rfl ?_
    have branches : Part.block.Admits (alternativeBefore rest) :=
      body.union (.token bodies rfl)
    refine (parenthesised_tracks _ _ (Part.before_nonempty _ branches.some) _).bind
      fun condition opened _ => ?_
    refine (predicts _ _ _ branches).bind fun consequent between _ => ?_
    refine .acceptOr (by simp) (fun more => admits.not_mem (decide_eq_true rfl)) ?_ ?_
    · rw [if_pos rfl, map_eq_pure_bind, bind_assoc]
      refine (predicts (.afterKeyword .elseWord) _ rest body).bind fun alternative after _ => ?_
      exact .look rfl (.look (previousSpan_apply after) .done)
    · exact .look rfl (.look (previousSpan_apply between) .done)
  · rename_i found
    refine .skipKeyword found rfl ?_
    refine (parenthesised_tracks _ _ bodies _).bind fun condition opened _ => ?_
    refine (predicts _ _ _ body).bind fun stmts after _ => ?_
    exact .look (previousSpan_apply after) .done
  · rename_i found
    refine .skipKeyword found rfl ?_
    refine (parenthesised_tracks _ _ bodies _).bind fun condition opened _ => ?_
    refine (predicts _ _ _ body).bind fun stmts after _ => ?_
    exact .look (previousSpan_apply after) .done
  · rename_i found
    refine .skipKeyword found rfl ?_
    refine acting_tracks admits.some (fun closing => ?_) (motion_tracks ending)
      (fun result => .move result.1 result.2) cursor.span _
    exact (Part.before_nonempty _ (TokenKind.before_nonempty _
      (Part.before_nonempty _ closing))).inr
  · rename_i found
    refine .skipKeyword found rfl ?_
    exact acting_tracks admits.some (Part.before_nonempty _)
      (fun cursor => coordinates_predicts .moveTo cursor _ (.token ending rfl))
      .moveTo cursor.span _
  · rename_i found
    refine .skipKeyword found rfl ?_
    exact acting_tracks admits.some (fun closing => Part.before_nonempty _ closing.inl)
      (opponents_tracks ending) (fun result => .attack result.1 result.2) cursor.span _
  · rename_i name found second
    refine .skip found (by simp) ?_
    refine .skipTo (cursor.kind_advance.trans second) (by simp)
      (fun more => Part.assign_mem_before name) ?_
    refine (expression_predicts _ _ (.token admits.some rfl)).bind fun value between _ => ?_
    refine (Tracks.expect .semicolon .afterAssignment admits.some).bind fun _ after _ => ?_
    exact .look (previousSpan_apply after) .done
  · rename_i notIf notWhile notRepeat notMove notMoveTo notAttack notAssign
    have other (keyword : Keyword) (found : cursor.kind = .keyword keyword)
        (more : List TokenKind) : more ∉ keyword.statementBefore rest := by
      cases keyword with
      | ifWord => exact absurd found notIf
      | whileWord => exact absurd found notWhile
      | repeatWord => exact absurd found notRepeat
      | move => exact absurd found notMove
      | moveTo => exact absurd found notMoveTo
      | attack => exact absurd found notAttack
      | elseWord | truth | direction => exact fun inside => inside
    have into : Part.expression.before ((TokenKind.symbol .semicolon).before rest) ⊆
        Part.statement.before rest :=
      fun kinds inside => Part.mem_statement_before.mpr (.inr (.inr inside))
    have evaluated : expression.Tracks cursor (Part.statement.before rest)
        ((TokenKind.symbol .semicolon).before rest) := by
      -- A word is assigned to or begins an expression, which the token after it tells.
      by_cases worded : ∃ name, cursor.kind = .identifier name
      · obtain ⟨name, word⟩ := worded
        obtain ⟨more, inside⟩ := ending
        refine expression_tracks_word admits.some rfl rfl ⟨more, ?_⟩ into ?_
        · rw [word]
          exact (Part.identifier_mem_before name).mpr (.inl inside)
        · intro more
          refine Part.evaluate_mem_before (fun keyword found => other keyword found _) ?_
          intro name others found assigned
          exact notAssign name found (List.cons.inj assigned).1
      · refine (expression_predicts cursor _ (.token admits.some rfl)).narrow into fun more => ?_
        refine Part.evaluate_mem_before (fun keyword found => other keyword found _) ?_
        exact fun name _ found => absurd ⟨name, found⟩ worded
    refine evaluated.bind fun expr between _ => ?_
    refine (Tracks.expect .semicolon .afterExpression admits.some).bind fun _ after _ => ?_
    exact .look (previousSpan_apply after) .done

/-- Statements are taken up to a closing token. -/
theorem statements_tracks {statement : Parser Stmt} (predicts : statement.Predicts .statement)
    {closing : TokenKind → Bool} (admits : Part.statements.Admits rest)
    (closes : ∀ kind more, kind :: more ∈ rest → closing kind = true)
    (closed : ∀ kind, closing kind = true → kind.beginsStatement = false) (count : Nat)
    (cursor : Cursor) (few : cursor.rest.length ≤ count) :
    (statements closing statement count).Tracks cursor (Part.statements.before rest) rest := by
  have ends (cursor : Cursor) (last : cursor.kind.beginsStatement = false) :
      (Pure.pure [] : Parser (List Stmt)).Tracks cursor (Part.statements.before rest) rest := by
    rw [Part.statements_before]
    refine .pure Set.subset_union_left fun more inside => ?_
    rcases inside with inside | inside
    · exact inside
    · exact absurd (last.symm.trans (Part.begins_of_mem_before rfl inside)) Bool.false_ne_true
  induction count generalizing cursor with
  | zero =>
    refine ends cursor ?_
    rw [Cursor.kind, List.eq_nil_of_length_eq_zero (Nat.le_zero.mp few)]
    rfl
  | succ count ih =>
    refine .look (peek_apply cursor) ?_
    split
    · exact ends cursor (closed _ ‹_›)
    · rename_i opened
      have head : statement.Tracks cursor (Part.statements.before rest)
          (Part.statements.before rest) := by
        refine (predicts cursor _ admits.statement).narrow (fun kinds inside => ?_) fun more => ?_
        · rw [Part.statements_before]
          exact .inr inside
        · intro inside
          rw [Part.statements_before] at inside
          rcases inside with inside | inside
          · exact absurd (closes _ _ inside) opened
          · exact inside
      refine head.bind fun stmt between ran => ?_
      have fewer := predicts.consumes rfl cursor stmt between ran
      exact (ih between (by omega)).bind fun _ _ _ => .done

/-- A block parser takes a block. -/
theorem blockWithin_predicts (levels : Nat) (place : Place) :
    (blockWithin levels place).Predicts .block := by
  induction levels generalizing place with
  | zero =>
    intro cursor rest admits
    rw [Part.block_before]
    have closing := TokenKind.before_nonempty (.symbol .rightBrace) admits.some
    exact (Tracks.expect .leftBrace place (Part.before_nonempty _ closing)).bind
      fun _ _ _ => .tooDeep
  | succ levels ih =>
    intro cursor rest admits
    rw [Part.block_before]
    have closing := TokenKind.before_nonempty (.symbol .rightBrace) admits.some
    refine .look (nextSpan_apply cursor) ?_
    refine (Tracks.expect .leftBrace place (Part.before_nonempty _ closing)).bind
      fun _ opened _ => ?_
    have closes (kind : TokenKind) (more : List TokenKind)
        (inside : kind :: more ∈ (TokenKind.symbol .rightBrace).before rest) :
        endsBlock kind = true := by
      rw [(TokenKind.cons_mem_before.mp inside).1]
      rfl
    have closed (kind : TokenKind) (ends : endsBlock kind = true) :
        kind.beginsStatement = false := by
      refine Bool.eq_false_iff.mpr fun begins => ?_
      rw [TokenKind.not_endsBlock begins] at ends
      cases ends
    refine (Tracks.nested (.look (remaining_apply _) (statements_tracks (statement_predicts ih)
      (.token admits.some rfl) closes closed _ _ (Nat.le_refl _)))).bind fun stmts between _ => ?_
    refine (Tracks.expect .rightBrace .closingBlock admits.some).bind fun _ after _ => ?_
    exact .look (previousSpan_apply after) .done

/-- A program parser takes statements up to the end of the input. -/
theorem program_tracks (cursor : Cursor) :
    program.Tracks cursor (Part.statements.before {[.endOfInput]}) {[.endOfInput]} := by
  have admits : Part.statements.Admits {[.endOfInput]} := by
    refine ⟨⟨_, rfl⟩, ?_⟩
    rintro _ rfl
    rfl
  have closes (kind : TokenKind) (more : List TokenKind)
      (inside : kind :: more ∈ ({[.endOfInput]} : Set (List TokenKind))) :
      endsProgram kind = true :=
    decide_eq_true (List.cons.inj inside).1
  have closed (kind : TokenKind) (ends : endsProgram kind = true) :
      kind.beginsStatement = false := by
    rw [of_decide_eq_true ends]
    rfl
  refine .look (nextSpan_apply cursor) (.look (remaining_apply cursor) ?_)
  refine (statements_tracks (statement_predicts (blockWithin_predicts maxNesting)) admits closes
    closed _ cursor (Nat.le_refl _)).bind fun stmts after _ => ?_
  exact .look (previousSpan_apply after) .done

end Statements

end Parser

/-! ### Scripts -/

/-- Some script can begin with these tokens, however deep it is nested. -/
def BeginsScript (kinds : List TokenKind) : Prop :=
  ∃ stmts : Derivation .statements, kinds <+: stmts.written

/-- Some script, with the end of the input after it, can begin with these tokens. -/
def BeginsWholeScript (kinds : List TokenKind) : Prop :=
  ∃ stmts : Derivation .statements, kinds <+: stmts.written ++ [.endOfInput]

/-- A program parser that blames a token has passed tokens that a script can begin with, but with
that token none can. -/
theorem Parser.program_blames {tokens : List Token} {finish : Token}
    (ended : finish.kind = .endOfInput) {error : SyntaxError}
    (stopped : program (.start (tokens ++ [finish])) = .error error)
    (blames : error.fault.BlamesToken) :
    ∃ seen token unseen, tokens ++ [finish] = seen ++ token :: unseen ∧ error.span = token.span ∧
      BeginsScript (seen.map Token.kind) ∧
      ¬BeginsWholeScript ((seen ++ [token]).map Token.kind) := by
  have tracks := program_tracks (.start (tokens ++ [finish]))
  rw [Tracks, stopped] at tracks
  obtain ⟨seen, stuck, passes, span, ⟨more, stmts, _, rfl, viable⟩, dead⟩ := tracks blames
  have split : tokens ++ [finish] = seen ++ stuck.rest := passes.rest_eq
  -- The end of the input was not passed, so a token is left.
  have left : ∃ token unseen, stuck.rest = token :: unseen := by
    rcases ahead : stuck.rest with _ | ⟨token, unseen⟩
    · rw [ahead, List.append_nil] at split
      refine absurd (List.mem_map.mpr ⟨finish, ?_, ended⟩) passes.inside
      rw [← split]
      exact List.mem_append_right _ List.mem_cons_self
    · exact ⟨token, unseen, rfl⟩
  obtain ⟨token, unseen, ahead⟩ := left
  refine ⟨seen, token, unseen, ahead ▸ split, ?_, ⟨stmts, ?_⟩, ?_⟩
  · rw [span, Cursor.span, ahead]
  · -- What completes the tokens ends with the end of the input, which they do not have.
    rcases List.eq_nil_or_concat more with rfl | ⟨others, last, rfl⟩
    · rw [List.append_nil] at viable
      refine absurd ?_ passes.inside
      rw [← viable]
      exact List.mem_append_right _ List.mem_cons_self
    · rw [List.concat_eq_append, ← List.append_assoc] at viable
      exact ⟨others, (List.append_inj_left' viable rfl).symm⟩
  · rintro ⟨other, more, whole⟩
    refine dead more ⟨other, _, rfl, ?_⟩
    rw [← whole, Cursor.kind, ahead]
    simp

/-- A script is refused at the first token that no script can have there: the tokens before it
begin some script, and those up to it begin none. -/
theorem SourceFile.refused_at_first_impossible {file : SourceFile} {errors : Diagnostics}
    {error : Diagnostic} (clean : file.lex.diagnostics = .empty)
    (refused : file.compile = .error errors) (found : error ∈ errors.stored)
    (blames : error.code = .unexpectedToken ∨ error.code = .tooManyArguments) :
    ∃ seen token unseen, file.lex.tokens = seen ++ token :: unseen ∧ error.span = token.span ∧
      BeginsScript (seen.map Token.kind) ∧
      ¬BeginsWholeScript ((seen ++ [token]).map Token.kind) := by
  rcases file.compile_cases with ⟨some, -⟩ | ⟨-, parsed⟩
  · rw [clean] at some
    cases some
  · have ran : Parser.program.run (.start file.lex.tokens) =
        Parser.program (.start file.lex.tokens) := rfl
    rw [parsed, parse, ran] at refused
    rcases read : Parser.program (.start file.lex.tokens) with fault | ⟨program, after⟩
    · rw [read] at refused
      cases refused
      obtain rfl := List.mem_singleton.mp found
      rw [tokens_of_lex clean] at read ⊢
      exact Parser.program_blames rfl read blames
    · rw [read] at refused
      cases refused

/-- The fourth coordinate of a move is refused at the comma before it. -/
theorem SourceFile.refused_at_first_impossible_coordinate :
    ∃ errors error, compile ⟨"far.bee", "if (x) \x7b move(x, 1, 2, 3, 4); \x7d"⟩ = .error errors ∧
      error ∈ errors.stored ∧ error.code = .tooManyArguments ∧
      ∃ seen token unseen,
        (lex ⟨"far.bee", "if (x) \x7b move(x, 1, 2, 3, 4); \x7d"⟩).tokens =
          seen ++ token :: unseen ∧ error.span = token.span ∧
        BeginsScript (seen.map Token.kind) ∧
        ¬BeginsWholeScript ((seen ++ [token]).map Token.kind) := by
  have codes : (match compile ⟨"far.bee", "if (x) \x7b move(x, 1, 2, 3, 4); \x7d"⟩ with
      | .error errors => errors.stored.map Diagnostic.code
      | .ok _ => []) = [ErrorCode.tooManyArguments] := by decide +kernel
  rcases refused : compile ⟨"far.bee", "if (x) \x7b move(x, 1, 2, 3, 4); \x7d"⟩ with
    errors | program
  · rw [refused] at codes
    obtain ⟨error, found, code⟩ := List.mem_map.mp (codes ▸ List.mem_cons_self)
    exact ⟨errors, error, rfl, found, code,
      refused_at_first_impossible (by decide +kernel) refused found (.inr code)⟩
  · rw [refused] at codes
    cases codes

end Waggle
