import Waggle.Proofs.Lookahead
import Waggle.Proofs.Reading

/-!
# What has a derivation is read

Wherever the tokens of a derivation are ahead, its part ends before the tokens after it, and there
is room for its charge, the parser of the part succeeds and stops right after it. The proof is by
induction on the derivation. A parser that recurses on a number of levels never runs out of them:
together with the levels that are open, they are at least as many as may be open at once.
-/

open Waggle.Parser

namespace Waggle

/-- A derivation can be read at a cursor, up to the tokens `rest`. -/
structure Derivation.Ahead {part : Part} (derivation : Derivation part) (cursor : Cursor)
    (rest : List TokenKind) : Prop where
  /-- The tokens of the derivation are the next ones. -/
  kinds_eq : cursor.kinds = derivation.written ++ rest
  /-- The part ends before the tokens after it. -/
  stops : part.Stops rest
  /-- The levels that are open leave room for those of the derivation. -/
  room : cursor.depth + derivation.charge ≤ maxNesting

/-- The parser of a tier, which reads at most `signs` signs before a primary expression. -/
def Tier.parser (expression : Parser Expr) (signs : Nat) : Tier → Parser Expr
  | .primary => Parser.primary expression
  | .signed => Parser.signed (Parser.primary expression) signs
  | .chain .product => chained product? (operand expression)
  | .chain .sum => chained sum? (chained product? (operand expression))
  | .chain .equation => operators expression

/-- The parser of a chain reads operands with operators of its level between them. -/
theorem Tier.parser_chain (expression : Parser Expr) (signs : Nat) (level : Level) :
    (Tier.chain level).parser expression signs =
      chained level.operator? (level.operand.parser expression maxNesting) := by
  cases level <;> rfl

namespace Derivation

/-- A parser with levels left reads a derivation wherever it is ahead. -/
def ReadBy {α : Type} {part : Part} (derivation : Derivation part) (parser : Nat → Parser α) :
    Prop :=
  ∀ levels cursor rest, derivation.Ahead cursor rest → maxNesting ≤ cursor.depth + levels →
    (parser levels).Gives cursor (fun _ => True) rest

/-- The parsers of a part read a derivation wherever it is ahead. -/
def Read : {part : Part} → Derivation part → Prop
  | .expr tier, expr => ∀ levels signs cursor rest, expr.Ahead cursor rest →
    maxNesting ≤ cursor.depth + levels → maxNesting ≤ cursor.depth + signs →
    (tier.parser (expressionWithin levels) signs).Gives cursor (fun _ => True) rest
  | .tail level, tail => ∀ levels steps left cursor rest, tail.Ahead cursor rest →
    maxNesting ≤ cursor.depth + levels → maxNesting ≤ cursor.depth + steps →
    (Parser.chain level.operator? (level.operand.parser (expressionWithin levels) maxNesting) steps
      left).Gives cursor (fun _ => True) rest
  | .expression, expr => expr.ReadBy expressionWithin
  | .items, items => ∀ (head : Derivation .expression) levels commas cursor rest,
    head.ReadBy expressionWithin → cursor.kinds = head.written ++ (items.written ++ rest) →
    Part.items.Stops rest → cursor.depth + max head.charge items.charge ≤ maxNesting →
    maxNesting ≤ cursor.depth + levels → cursor.kinds.length ≤ commas →
    (commaSeparated (expressionWithin levels) commas).Gives cursor (fun _ => True) rest
  | .coordinates, position => ∀ keyword, position.ReadBy fun _ => Parser.coordinates keyword
  | .statement, stmt => stmt.ReadBy fun levels => statement (blockWithin levels)
  | .statements, stmts => ∀ levels closing count cursor rest, stmts.Ahead cursor rest →
    closing (rest.headD .endOfInput) = true →
    (∀ kind, closing kind = true → endsBlock kind = true) → cursor.kinds.length ≤ count →
    maxNesting ≤ cursor.depth + levels →
    (statements closing (statement (blockWithin levels)) count).Gives cursor (fun _ => True) rest
  | .block, body => ∀ place, body.ReadBy fun levels => blockWithin levels place

/-- A chain is read if its operands and operators are. -/
theorem chain_read {level : Level} {first : Derivation (.expr level.operand)}
    {tail : Derivation (.tail level)} (head : first.Read) (more : tail.Read) :
    (chain first tail).Read := by
  intro levels signs cursor rest ahead enough _
  have room := ahead.room
  simp only [charge] at room
  have here : first.Ahead cursor (tail.written ++ rest) :=
    ⟨by rw [ahead.kinds_eq, written, List.append_assoc], tail.stops_operand ahead.stops, by omega⟩
  rw [Tier.parser_chain]
  refine (head levels maxNesting cursor _ here enough (Nat.le_add_left _ _)).bind ?_
  intro left after _ kinds depth
  exact more levels maxNesting left after rest ⟨kinds, ahead.stops, by omega⟩ (by omega)
    (Nat.le_add_left _ _)

/-- No operator is read where none follows. -/
theorem noOperator_read {level : Level} : (noOperator : Derivation (.tail level)).Read := by
  intro levels steps left cursor rest ahead _ _
  have found : level.operator? cursor.kind = none := by
    rw [cursor.kind_eq, ahead.kinds_eq]
    have stops := ahead.stops
    rw [Part.Stops, Part.absorbs, Tier.absorbs_chain, Bool.or_eq_false_iff,
      Option.isSome_eq_false_iff, Option.isNone_iff_eq_none] at stops
    exact stops.2
  cases steps with
  | zero =>
    refine .step (peek_apply cursor) rfl ?_
    rw [found]
    exact .pure trivial ahead.kinds_eq
  | succ steps =>
    refine .step (peek_apply cursor) rfl ?_
    rw [found]
    exact .pure trivial ahead.kinds_eq

/-- An operator is read with its operand and the operators after it, one level deeper. -/
theorem operator_read {level : Level} {op : BinaryOp} (fits : op.level = level)
    {operand : Derivation (.expr level.operand)} {tail : Derivation (.tail level)}
    (head : operand.Read) (more : tail.Read) : (operator op fits operand tail).Read := by
  intro levels steps left cursor rest ahead enough deep
  have room := ahead.room
  simp only [charge] at room
  have kinds : cursor.kinds = .symbol op.sign :: (operand.written ++ (tail.written ++ rest)) := by
    rw [ahead.kinds_eq, written, List.cons_append, List.append_assoc]
  have found : level.operator? cursor.kind = some op :=
    Level.operator?_eq_some_iff.mpr ⟨Cursor.kind_of_kinds kinds, fits⟩
  cases steps with
  | zero => omega
  | succ steps =>
    refine .step (peek_apply cursor) rfl ?_
    rw [found]
    refine (Gives.skip kinds).bind fun _ skipped _ left' depth => ?_
    refine .nested (by omega) fun within same deeper => ?_
    have here : operand.Ahead within (tail.written ++ rest) :=
      ⟨same.trans left', tail.stops_operand ahead.stops, by omega⟩
    refine (head levels maxNesting within _ here (by omega) (Nat.le_add_left _ _)).bind ?_
    intro right after _ remaining depth'
    exact more levels steps _ after rest ⟨remaining, ahead.stops, by omega⟩ (by omega) (by omega)

/-- A sign is read with its operand, one level deeper. -/
theorem minus_read {operand : Derivation (.expr .signed)} (inner : operand.Read) :
    (minus operand).Read := by
  intro levels signs cursor rest ahead enough deep
  have room := ahead.room
  simp only [charge] at room
  have kinds : cursor.kinds = .symbol .minus :: (operand.written ++ rest) := ahead.kinds_eq
  cases signs with
  | zero => omega
  | succ signs =>
    refine .step (peek_apply cursor) rfl ?_
    rw [if_pos (Cursor.kind_of_kinds kinds)]
    refine .step (nextSpan_apply cursor) rfl ?_
    refine (Gives.skip kinds).bind fun _ skipped _ left depth => ?_
    have given : (nested (Parser.signed (Parser.primary (expressionWithin levels)) signs)).Gives
        skipped (fun _ => True) rest := by
      refine .nested (by omega) fun within same deeper => ?_
      have here : operand.Ahead within rest := ⟨same.trans left, ahead.stops, by omega⟩
      exact inner levels signs within rest here (by omega) (by omega)
    exact given.bind fun _ after _ remaining _ => .pure trivial remaining

/-- A primary expression is read where a sign may stand. -/
theorem unsigned_read {inner : Derivation (.expr .primary)} (within : inner.Read) :
    (unsigned inner).Read := by
  intro levels signs cursor rest ahead enough deep
  have here : inner.Ahead cursor rest := ⟨ahead.kinds_eq, ahead.stops, ahead.room⟩
  have given := within levels signs cursor rest here enough deep
  obtain ⟨kind, more, writtenEq, begins⟩ := inner.starts.exists_cons rfl
  have kinds : cursor.kinds = kind :: (more ++ rest) := by
    rw [ahead.kinds_eq, written, writtenEq, List.cons_append]
  have plain : cursor.kind ≠ .symbol .minus := by
    rw [Cursor.kind_of_kinds kinds]
    rintro rfl
    cases begins
  cases signs with
  | zero =>
    refine .step (peek_apply cursor) rfl ?_
    rw [if_neg plain]
    exact given
  | succ signs =>
    refine .step (peek_apply cursor) rfl ?_
    rw [if_neg plain]
    exact given

/-- A literal is read. -/
theorem literal_read (token : Literal) : (literal token).Read := by
  intro levels signs cursor rest ahead _ _
  have kinds : cursor.kinds = token.kind :: rest := ahead.kinds_eq
  have found : literal? cursor.kind = some token.value :=
    literal?_eq_some_iff.mpr ⟨token, Cursor.kind_of_kinds kinds, rfl⟩
  refine .step (nextSpan_apply cursor) rfl (.step (peek_apply cursor) rfl ?_)
  rw [found]
  exact (Gives.skip kinds).bind fun _ after _ left _ => .pure trivial left

/-- A name is read as a reference where no parenthesis follows. -/
theorem reference_read (name : String) : (reference name).Read := by
  intro levels signs cursor rest ahead _ _
  have kinds : cursor.kinds = .identifier name :: rest := ahead.kinds_eq
  have alone : cursor.secondKind ≠ .symbol .leftParen := by
    rw [Cursor.secondKind_of_kinds kinds]
    intro opening
    have stops := ahead.stops
    rw [Part.Stops, opening] at stops
    cases stops
  refine .step (nextSpan_apply cursor) rfl (.step (peek_apply cursor) rfl ?_)
  rw [Cursor.kind_of_kinds kinds]
  refine .step (peekSecond_apply cursor) rfl ?_
  rw [if_neg alone]
  exact (Gives.skip kinds).bind fun _ after _ left _ => .pure trivial left

/-- A call is read if its arguments are. -/
theorem calling_read {name : String} {arguments rest : List TokenKind} {levels : Nat}
    {cursor : Cursor}
    (kinds : cursor.kinds = .identifier name :: .symbol .leftParen ::
      (arguments ++ .symbol .rightParen :: rest))
    (inside : ∀ opened : Cursor, opened.kinds = arguments ++ .symbol .rightParen :: rest →
      opened.depth = cursor.depth → (callArguments (expressionWithin levels)).Gives opened
        (fun _ => True) (.symbol .rightParen :: rest)) :
    (Parser.primary (expressionWithin levels)).Gives cursor (fun _ => True) rest := by
  have second : cursor.secondKind = .symbol .leftParen := Cursor.secondKind_of_kinds kinds
  refine .step (nextSpan_apply cursor) rfl (.step (peek_apply cursor) rfl ?_)
  rw [Cursor.kind_of_kinds kinds]
  refine .step (peekSecond_apply cursor) rfl ?_
  rw [if_pos second]
  refine (Gives.skip kinds).bind fun _ named _ left depth => ?_
  refine (Gives.skip left).bind fun _ opened _ left' depth' => ?_
  refine (inside opened left' (by omega)).bind fun _ between _ closing _ => ?_
  refine (Gives.expect .afterCallArguments closing).bind fun _ after _ remaining _ => ?_
  exact .step (previousSpan_apply after) rfl (.pure trivial remaining)

/-- A call without arguments is read. -/
theorem callNone_read (name : String) : (callNone name).Read := by
  intro levels signs cursor rest ahead _ _
  have called : cursor.kinds = .identifier name :: .symbol .leftParen ::
      ([] ++ .symbol .rightParen :: rest) := ahead.kinds_eq
  refine calling_read called fun opened kinds _ => ?_
  refine .step (peek_apply opened) rfl ?_
  rw [if_pos (Cursor.kind_of_kinds kinds)]
  exact .pure trivial kinds

/-- A call with arguments is read. -/
theorem call_read (name : String) {first : Derivation .expression} {tail : Derivation .items}
    (head : first.Read) (more : tail.Read) : (call name first tail).Read := by
  intro levels signs cursor rest ahead enough _
  have room := ahead.room
  simp only [charge] at room
  have kinds : cursor.kinds = .identifier name :: .symbol .leftParen ::
      ((first.written ++ tail.written) ++ .symbol .rightParen :: rest) := by
    rw [ahead.kinds_eq]
    simp [written]
  refine calling_read kinds fun opened left depth => ?_
  obtain ⟨kind, others, writtenEq, begins⟩ := first.starts.exists_cons rfl
  have inside : opened.kind ≠ .symbol .rightParen := by
    rw [writtenEq] at left
    rw [Cursor.kind_of_kinds left]
    rintro rfl
    cases begins
  refine .step (peek_apply opened) rfl ?_
  rw [if_neg inside]
  refine .step (remaining_apply opened) rfl ?_
  exact more first levels _ opened _ head (by rw [left, List.append_assoc]) rfl (by omega)
    (by omega) (Nat.le_of_eq (List.length_map _))

/-- An expression between parentheses is read. -/
theorem parens_read {inner : Derivation .expression} (within : inner.Read) :
    (parens inner).Read := by
  intro levels signs cursor rest ahead enough _
  have room := ahead.room
  simp only [charge] at room
  have kinds : cursor.kinds =
      .symbol .leftParen :: (inner.written ++ .symbol .rightParen :: rest) := by
    rw [ahead.kinds_eq]
    simp [written]
  refine .step (nextSpan_apply cursor) rfl (.step (peek_apply cursor) rfl ?_)
  rw [Cursor.kind_of_kinds kinds]
  refine (Gives.skip kinds).bind fun _ opened _ left depth => ?_
  refine (within levels opened _ ⟨left, rfl, by omega⟩ (by omega)).bind ?_
  intro _ between _ closing _
  refine (Gives.expect .closingParentheses closing).bind fun _ after _ remaining _ => ?_
  exact .step (previousSpan_apply after) rfl (.pure trivial remaining)

/-- An expression is read one level deeper than where it stands. -/
theorem expression_read {inner : Derivation (.expr (.chain .equation))} (within : inner.Read) :
    (expression inner).Read := by
  intro levels cursor rest ahead enough
  have room := ahead.room
  simp only [charge] at room
  cases levels with
  | zero => omega
  | succ levels =>
    refine .nested (by omega) fun deeper same depth => ?_
    have here : inner.Ahead deeper rest := ⟨same.trans ahead.kinds_eq, ahead.stops, by omega⟩
    exact within levels maxNesting deeper rest here (by omega) (Nat.le_add_left _ _)

/-- The last item is read without a comma after it. -/
theorem noItem_read : noItem.Read := by
  intro head levels commas cursor rest first kinds stops room enough _
  have here : head.Ahead cursor rest :=
    ⟨kinds, noItem.stops_item stops, by simpa only [charge, Nat.max_zero] using room⟩
  cases commas with
  | zero =>
    exact (first levels cursor rest here enough).bind fun _ after _ left _ => .pure trivial left
  | succ commas =>
    refine (first levels cursor rest here enough).bind fun _ between _ left _ => ?_
    refine (Gives.acceptNot left stops.ne_comma).bind ?_
    rintro _ after rfl remaining _
    exact .pure trivial remaining

/-- An item is read before a comma and those after it. -/
theorem item_read {next : Derivation .expression} {tail : Derivation .items}
    (second : next.Read) (more : tail.Read) : (item next tail).Read := by
  intro head levels commas cursor rest first kinds stops room enough few
  have whole : cursor.kinds =
      head.written ++ .symbol .comma :: (next.written ++ (tail.written ++ rest)) := by
    rw [kinds, written, List.cons_append, List.append_assoc]
  simp only [charge] at room
  rw [whole, List.length_append, List.length_cons] at few
  cases commas with
  | zero => omega
  | succ commas =>
    refine (first levels cursor _ ⟨whole, rfl, by omega⟩ enough).bind ?_
    intro _ between _ left depth
    refine (Gives.accept left).bind ?_
    rintro _ after rfl remaining depth'
    rw [if_pos rfl]
    have given := more next levels commas after rest second remaining stops (by omega) (by omega)
      (by rw [remaining]; omega)
    exact given.bind fun _ last _ ended _ => .pure trivial ended

/-- A coordinate ends before further ones. -/
theorem stops_further (further : List (Derivation .expression)) {rest : List TokenKind}
    (stops : Part.coordinates.Stops rest) : Part.Stops .expression
      ((further.flatMap fun one => .symbol .comma :: one.written) ++ rest) := by
  cases further with
  | nil => exact (Bool.or_eq_false_iff.mp stops).2
  | cons another others => rfl

/-- Further coordinates are read if there is room for them. -/
theorem moreCoordinates_read (keyword : Keyword) (room : Nat)
    (further : List (Derivation .expression)) (few : further.length ≤ room)
    (each : ∀ one ∈ further, one.Read) {cursor : Cursor} {rest : List TokenKind}
    (kinds : cursor.kinds =
      (further.flatMap fun one => .symbol .comma :: one.written) ++ rest)
    (stops : Part.coordinates.Stops rest)
    (deep : ∀ one ∈ further, cursor.depth + one.charge ≤ maxNesting) :
    (moreCoordinates keyword room).Gives cursor (fun _ => True) rest := by
  have alone : rest.headD .endOfInput ≠ .symbol .comma := Part.Stops.ne_comma stops
  induction room generalizing further cursor with
  | zero =>
    obtain rfl := List.eq_nil_of_length_eq_zero (Nat.le_zero.mp few)
    refine .step (peek_apply cursor) rfl ?_
    rw [if_neg (by rwa [cursor.kind_eq, kinds])]
    exact .pure trivial kinds
  | succ room ih =>
    cases further with
    | nil =>
      refine (Gives.acceptNot kinds alone).bind ?_
      rintro _ after rfl left _
      exact .pure trivial left
    | cons one further =>
      rw [List.flatMap_cons, List.append_assoc, List.cons_append] at kinds
      refine (Gives.accept kinds).bind ?_
      rintro _ between rfl left depth
      rw [if_pos rfl]
      have first := deep one (by simp)
      refine (each one (by simp) maxNesting between _ ⟨left, stops_further further stops, by omega⟩
        (Nat.le_add_left _ _)).bind fun _ after _ left' depth' => ?_
      have given := ih further (Nat.le_of_succ_le_succ few)
        (fun other member => each other (by simp [member])) left'
        (fun other member => by have := deep other (by simp [member]); omega)
      exact given.bind fun _ last _ ended _ => .pure trivial ended

/-- Coordinates are read if each of them is. -/
theorem coordinates_read {position : Derivation .coordinates} (x : Derivation .expression)
    (further : List (Derivation .expression)) (few : further.length ≤ 2)
    (writtenEq : position.written =
      x.written ++ further.flatMap fun one => .symbol .comma :: one.written)
    (each : ∀ one ∈ x :: further, one.Read)
    (shallow : ∀ one ∈ x :: further, one.charge ≤ position.charge) : position.Read := by
  intro keyword levels cursor rest ahead _
  have room := ahead.room
  have first := shallow x (by simp)
  have here : x.Ahead cursor _ :=
    ⟨by rw [ahead.kinds_eq, writtenEq, List.append_assoc], stops_further further ahead.stops,
      by omega⟩
  refine (each x (by simp) maxNesting cursor _ here (Nat.le_add_left _ _)).bind ?_
  intro _ between _ left depth
  have given := moreCoordinates_read keyword 2 further few
    (fun one member => each one (by simp [member])) left ahead.stops
    (fun one member => by have := shallow one (by simp [member]); omega)
  exact given.bind fun _ after _ ended _ => .pure trivial ended

/-- A statement of a keyword, an expression between parentheses and a block is read if what comes
after them is. -/
theorem headed_read {keyword : Keyword} {guard : Derivation .expression}
    {body : Derivation .block} (head : guard.Read) (more : body.Read) {levels : Nat}
    {cursor : Cursor} {rest last : List TokenKind}
    (kinds : cursor.kinds = inParens keyword guard.written ++ (body.written ++ rest))
    (room : cursor.depth + max guard.charge body.charge ≤ maxNesting)
    (enough : maxNesting ≤ cursor.depth + levels) (place : Place)
    {next : Expr → Block Stmt → Parser Stmt}
    (onward : ∀ expr stmts (after : Cursor), after.kinds = rest → after.depth = cursor.depth →
      (next expr stmts).Gives after (fun _ => True) last) :
    (do
      skip
      let expr ← parenthesised keyword place
      let stmts ← blockWithin levels (.beforeBody keyword)
      next expr stmts : Parser Stmt).Gives cursor (fun _ => True) last := by
  simp only [inParens, List.cons_append, List.append_assoc, List.nil_append] at kinds
  refine (Gives.skip kinds).bind fun _ skipped _ left depth => ?_
  have given : (parenthesised keyword place).Gives skipped (fun _ => True)
      (body.written ++ rest) := by
    refine (Gives.expect (.afterKeyword keyword) left).bind fun _ opened _ left depth' => ?_
    refine (head maxNesting opened _ ⟨left, rfl, by omega⟩ (Nat.le_add_left _ _)).bind ?_
    intro _ between _ left _
    refine (Gives.expect place left).bind fun _ after _ left _ => ?_
    exact .pure trivial left
  refine given.bind fun expr between _ left depth' => ?_
  refine (more (.beforeBody keyword) levels between rest ⟨left, rfl, by omega⟩ (by omega)).bind ?_
  exact fun stmts after _ left depth => onward expr stmts after left (by omega)

/-- A statement that acts on the world is read if its arguments are. -/
theorem acting_read {α : Type} {keyword : Keyword} {arguments rest : List TokenKind}
    {cursor : Cursor}
    (kinds : cursor.kinds = inParens keyword arguments ++ .symbol .semicolon :: rest)
    {inner : Parser α} {build : α → Span → Stmt} (span : Span)
    (inside : ∀ opened : Cursor, opened.kinds =
        arguments ++ .symbol .rightParen :: .symbol .semicolon :: rest →
      opened.depth = cursor.depth →
      inner.Gives opened (fun _ => True) (.symbol .rightParen :: .symbol .semicolon :: rest)) :
    (do
      skip
      expect .leftParen (.afterKeyword keyword)
      let result ← inner
      finishAction keyword
      return build result (span.merge (← previousSpan)) : Parser Stmt).Gives cursor
        (fun _ => True) rest := by
  simp only [inParens, List.cons_append, List.append_assoc, List.nil_append] at kinds
  refine (Gives.skip kinds).bind fun _ skipped _ left depth => ?_
  refine (Gives.expect (.afterKeyword keyword) left).bind fun _ opened _ left depth' => ?_
  refine (inside opened left (by omega)).bind fun result between _ left _ => ?_
  have closing : (finishAction keyword).Gives between (fun _ => True) rest := by
    refine (Gives.expect (.afterArguments keyword) left).bind fun _ closed _ left _ => ?_
    exact Gives.expect (.afterStatement keyword) left
  refine closing.bind fun _ after _ left _ => ?_
  exact .step (previousSpan_apply after) rfl (.pure trivial left)

/-- A branch without an alternative is read. -/
theorem branch_read {condition : Derivation .expression} {consequent : Derivation .block}
    (head : condition.Read) (more : consequent.Read) : (branch condition consequent).Read := by
  intro levels cursor rest ahead enough
  have kinds : cursor.kinds =
      inParens .ifWord condition.written ++ (consequent.written ++ rest) := by
    rw [ahead.kinds_eq, written, List.append_assoc]
  have alone : rest.headD .endOfInput ≠ .keyword .elseWord := of_decide_eq_false ahead.stops
  refine .look ?_
  rw [Cursor.kind_of_kinds kinds]
  refine headed_read head more kinds ahead.room enough .afterCondition ?_
  intro expr stmts between left _
  refine (Gives.acceptNot left alone).bind ?_
  rintro _ after rfl left _
  exact .step rfl rfl (.step (previousSpan_apply after) rfl (.pure trivial left))

/-- A branch with an alternative is read. -/
theorem branchElse_read {condition : Derivation .expression}
    {consequent alternative : Derivation .block} (head : condition.Read)
    (more : consequent.Read) (last : alternative.Read) :
    (branchElse condition consequent alternative).Read := by
  intro levels cursor rest ahead enough
  have kinds : cursor.kinds = inParens .ifWord condition.written ++
      (consequent.written ++ .keyword .elseWord :: (alternative.written ++ rest)) := by
    rw [ahead.kinds_eq, written]
    simp only [List.append_assoc, List.cons_append]
  have room := ahead.room
  simp only [charge] at room
  refine .look ?_
  rw [Cursor.kind_of_kinds kinds]
  refine headed_read head more kinds (by omega) enough .afterCondition ?_
  intro expr stmts between left depth
  refine (Gives.accept left).bind ?_
  rintro _ otherwise rfl left depth'
  rw [if_pos rfl]
  rw [map_eq_pure_bind, bind_assoc]
  refine (last (.afterKeyword .elseWord) levels otherwise rest ⟨left, rfl, by omega⟩
    (by omega)).bind fun others after _ left _ => ?_
  exact .step rfl rfl (.step (previousSpan_apply after) rfl (.pure trivial left))

/-- A loop with a condition is read. -/
theorem whileLoop_read {condition : Derivation .expression} {body : Derivation .block}
    (head : condition.Read) (more : body.Read) : (whileLoop condition body).Read := by
  intro levels cursor rest ahead enough
  have kinds : cursor.kinds = inParens .whileWord condition.written ++ (body.written ++ rest) := by
    rw [ahead.kinds_eq, written, List.append_assoc]
  refine .look ?_
  rw [Cursor.kind_of_kinds kinds]
  refine headed_read head more kinds ahead.room enough .afterCondition ?_
  exact fun expr stmts after left _ => .step (previousSpan_apply after) rfl (.pure trivial left)

/-- A loop with a count is read. -/
theorem repeatLoop_read {count : Derivation .expression} {body : Derivation .block}
    (head : count.Read) (more : body.Read) : (repeatLoop count body).Read := by
  intro levels cursor rest ahead enough
  have kinds : cursor.kinds = inParens .repeatWord count.written ++ (body.written ++ rest) := by
    rw [ahead.kinds_eq, written, List.append_assoc]
  refine .look ?_
  rw [Cursor.kind_of_kinds kinds]
  refine headed_read head more kinds ahead.room enough .afterCount ?_
  exact fun expr stmts after left _ => .step (previousSpan_apply after) rfl (.pure trivial left)

/-- A step in a direction is read. -/
theorem moveStep_read (heading : Direction) : (moveStep heading).Read := by
  intro levels cursor rest ahead _
  have kinds : cursor.kinds = inParens .move [.keyword (.direction heading)] ++
      .symbol .semicolon :: rest := ahead.kinds_eq
  refine .look ?_
  rw [Cursor.kind_of_kinds kinds]
  refine acting_read kinds cursor.span ?_
  intro opened left _
  refine .step (peek_apply opened) rfl (.step (peekSecond_apply opened) rfl ?_)
  rw [Cursor.kind_of_kinds left, Cursor.secondKind_of_kinds left]
  exact (Gives.skip left).bind fun _ after _ left _ => .pure trivial left

/-- A move of a target by coordinates is read. -/
theorem moveBy_read {target : Derivation .expression} {offset : Derivation .coordinates}
    (head : target.Read) (more : offset.Read) : (moveBy target offset).Read := by
  intro levels cursor rest ahead _
  have kinds : cursor.kinds =
      inParens .move (target.written ++ .symbol .comma :: offset.written) ++
        .symbol .semicolon :: rest := by
    rw [ahead.kinds_eq, written, List.append_assoc, List.singleton_append]
  have room := ahead.room
  simp only [charge] at room
  refine .look ?_
  rw [Cursor.kind_of_kinds kinds]
  refine acting_read kinds cursor.span ?_
  intro opened left depth
  rw [List.append_assoc, List.cons_append] at left
  refine .step (peek_apply opened) rfl (.step (peekSecond_apply opened) rfl ?_)
  split
  · rename_i heading named second
    have word := direction?_eq_some_iff.mp named
    have alone := Cursor.kinds_eq_cons_cons word (by simp) second (by simp)
    exact (not_direction_target target (left.symm.trans alone)).elim
  · refine (head maxNesting opened _ ⟨left, rfl, by omega⟩ (Nat.le_add_left _ _)).bind ?_
    intro _ between _ left depth'
    refine (Gives.accept left).bind ?_
    rintro _ comma rfl left depth''
    rw [if_pos rfl]
    refine (more .move maxNesting comma _ ⟨left, rfl, by omega⟩ (Nat.le_add_left _ _)).bind ?_
    exact fun _ after _ left _ => .pure trivial left

/-- A move to a position is read. -/
theorem moveTo_read {position : Derivation .coordinates} (within : position.Read) :
    (moveTo position).Read := by
  intro levels cursor rest ahead _
  have kinds : cursor.kinds = inParens .moveTo position.written ++ .symbol .semicolon :: rest := by
    rw [ahead.kinds_eq, written, List.append_assoc, List.singleton_append]
  have room := ahead.room
  simp only [charge] at room
  refine .look ?_
  rw [Cursor.kind_of_kinds kinds]
  refine acting_read kinds cursor.span ?_
  intro opened left depth
  exact within .moveTo maxNesting opened _ ⟨left, rfl, by omega⟩ (Nat.le_add_left _ _)

/-- An attack on a target is read. -/
theorem attack_read {target : Derivation .expression} (within : target.Read) :
    (attack target).Read := by
  intro levels cursor rest ahead _
  have kinds : cursor.kinds = inParens .attack target.written ++ .symbol .semicolon :: rest := by
    rw [ahead.kinds_eq, written, List.append_assoc, List.singleton_append]
  have room := ahead.room
  simp only [charge] at room
  refine .look ?_
  rw [Cursor.kind_of_kinds kinds]
  refine acting_read kinds cursor.span ?_
  intro opened left depth
  refine (within maxNesting opened _ ⟨left, rfl, by omega⟩ (Nat.le_add_left _ _)).bind ?_
  intro _ between _ left _
  refine (Gives.acceptNot left (by simp)).bind ?_
  rintro _ after rfl left _
  refine .step rfl rfl (.step (peek_apply after) rfl ?_)
  rw [Cursor.kind_of_kinds left, if_neg (by simp)]
  exact .pure trivial left

/-- An attack by an attacker is read. -/
theorem attackBy_read {attacker target : Derivation .expression} (head : attacker.Read)
    (more : target.Read) : (attackBy attacker target).Read := by
  intro levels cursor rest ahead _
  have kinds : cursor.kinds =
      inParens .attack (attacker.written ++ .symbol .comma :: target.written) ++
        .symbol .semicolon :: rest := by
    rw [ahead.kinds_eq, written, List.append_assoc, List.singleton_append]
  have room := ahead.room
  simp only [charge] at room
  refine .look ?_
  rw [Cursor.kind_of_kinds kinds]
  refine acting_read kinds cursor.span ?_
  intro opened left depth
  rw [List.append_assoc, List.cons_append] at left
  refine (head maxNesting opened _ ⟨left, rfl, by omega⟩ (Nat.le_add_left _ _)).bind ?_
  intro _ between _ left depth'
  refine (Gives.accept left).bind ?_
  rintro _ comma rfl left depth''
  rw [if_pos rfl]
  refine (more maxNesting comma _ ⟨left, rfl, by omega⟩ (Nat.le_add_left _ _)).bind ?_
  intro _ after _ left _
  refine .step rfl rfl (.step (peek_apply after) rfl ?_)
  rw [Cursor.kind_of_kinds left, if_neg (by simp)]
  exact .pure trivial left

/-- An assignment is read. -/
theorem assign_read (name : String) {value : Derivation .expression} (within : value.Read) :
    (assign name value).Read := by
  intro levels cursor rest ahead _
  have kinds : cursor.kinds = .identifier name :: .symbol .assign ::
      (value.written ++ .symbol .semicolon :: rest) := by
    rw [ahead.kinds_eq, written]
    simp only [List.cons_append, List.append_assoc, List.nil_append]
  have room := ahead.room
  simp only [charge] at room
  refine .look ?_
  rw [Cursor.kind_of_kinds kinds, Cursor.secondKind_of_kinds kinds]
  refine (Gives.skip kinds).bind fun _ named _ left depth => ?_
  refine (Gives.skip left).bind fun _ assigned _ left depth' => ?_
  refine (within maxNesting assigned _ ⟨left, rfl, by omega⟩ (Nat.le_add_left _ _)).bind ?_
  intro _ between _ left _
  refine (Gives.expect .afterAssignment left).bind fun _ after _ left _ => ?_
  exact .step (previousSpan_apply after) rfl (.pure trivial left)

/-- An expression on its own is read. -/
theorem evaluate_read {expr : Derivation .expression} (within : expr.Read) :
    (evaluate expr).Read := by
  intro levels cursor rest ahead _
  have kinds : cursor.kinds = expr.written ++ .symbol .semicolon :: rest := by
    rw [ahead.kinds_eq, written, List.append_assoc, List.singleton_append]
  have leads : Lead.of cursor.kinds = .evaluate := by rw [ahead.kinds_eq, lead_eq, lead]
  have room := ahead.room
  simp only [charge] at room
  refine .look ?_
  split
  case h_8 =>
    refine (within maxNesting cursor _ ⟨kinds, rfl, room⟩ (Nat.le_add_left _ _)).bind ?_
    intro _ between _ left _
    refine (Gives.expect .afterExpression left).bind fun _ after _ left _ => ?_
    exact .step (previousSpan_apply after) rfl (.pure trivial left)
  case h_7 name found second =>
    rw [Cursor.kinds_eq_cons_cons found (by simp) second (by simp)] at leads
    cases leads
  all_goals
    rename_i found
    rw [Cursor.kinds_eq_cons found (by simp)] at leads
    cases leads

/-- No statement is read where the statements end. -/
theorem noStatement_read : noStatement.Read := by
  intro levels closing count cursor rest ahead ends _ _ _
  cases count with
  | zero => exact .pure trivial ahead.kinds_eq
  | succ count =>
    have kinds : cursor.kinds = rest := ahead.kinds_eq
    refine .step (peek_apply cursor) rfl ?_
    rw [if_pos (by rwa [cursor.kind_eq, kinds])]
    exact .pure trivial kinds

/-- A statement is read before those after it. -/
theorem andThen_read {head : Derivation .statement} {tail : Derivation .statements}
    (first : head.Read) (more : tail.Read) : (andThen head tail).Read := by
  intro levels closing count cursor rest ahead ends blocks few enough
  have kinds : cursor.kinds = head.written ++ (tail.written ++ rest) := by
    rw [ahead.kinds_eq, written, List.append_assoc]
  have room := ahead.room
  simp only [charge] at room
  obtain ⟨kind, others, writtenEq, begins⟩ := head.starts.exists_cons rfl
  have nonempty : cursor.kinds = kind :: (others ++ (tail.written ++ rest)) := by
    rw [kinds, writtenEq, List.cons_append]
  cases count with
  | zero =>
    rw [nonempty, List.length_cons] at few
    omega
  | succ count =>
    refine .step (peek_apply cursor) rfl ?_
    have open' : ¬closing cursor.kind = true := by
      rw [Cursor.kind_of_kinds nonempty]
      intro closed
      exact absurd ((blocks kind closed).symm.trans (TokenKind.not_endsBlock begins)) (by simp)
    rw [if_neg open']
    have here : head.Ahead cursor (tail.written ++ rest) :=
      ⟨kinds, tail.stops_statement ahead.stops, by omega⟩
    refine (first levels cursor _ here enough).bind fun _ between _ left depth => ?_
    have fewer : between.kinds.length ≤ count := by
      rw [nonempty, List.length_cons, List.length_append] at few
      rw [left]
      omega
    have given := more levels closing count between rest ⟨left, ahead.stops, by omega⟩ ends blocks
      fewer (by omega)
    exact given.bind fun _ after _ left _ => .pure trivial left

/-- A block is read with its statements one level deeper. -/
theorem block_read {body : Derivation .statements} (within : body.Read) : (block body).Read := by
  intro place levels cursor rest ahead enough
  have kinds : cursor.kinds =
      .symbol .leftBrace :: (body.written ++ .symbol .rightBrace :: rest) := by
    rw [ahead.kinds_eq]
    simp [written]
  have room := ahead.room
  simp only [charge] at room
  cases levels with
  | zero => omega
  | succ levels =>
    refine .step (nextSpan_apply cursor) rfl ?_
    refine (Gives.expect place kinds).bind fun _ opened _ left depth => ?_
    have given : (nested do
        statements endsBlock (statement (blockWithin levels)) (← remaining)).Gives opened
          (fun _ => True) (.symbol .rightBrace :: rest) := by
      refine .nested (by omega) fun deeper same depth' => ?_
      refine .step (remaining_apply deeper) rfl ?_
      have here : body.Ahead deeper (.symbol .rightBrace :: rest) :=
        ⟨same.trans left, rfl, by omega⟩
      exact within levels endsBlock _ deeper _ here rfl (fun _ ends => ends)
        (Nat.le_of_eq (List.length_map _)) (by omega)
    refine given.bind fun _ between _ left _ => ?_
    refine (Gives.expect .closingBlock left).bind fun _ after _ left _ => ?_
    exact .step (previousSpan_apply after) rfl (.pure trivial left)

/-- Every derivation is read by the parsers of its part. -/
theorem read {part : Part} (derivation : Derivation part) : derivation.Read := by
  induction derivation with
  | chain _ _ first tail => exact chain_read first tail
  | noOperator => exact noOperator_read
  | operator _ fits _ _ operand tail => exact operator_read fits operand tail
  | minus _ operand => exact minus_read operand
  | unsigned _ inner => exact unsigned_read inner
  | literal token => exact literal_read token
  | reference name => exact reference_read name
  | callNone name => exact callNone_read name
  | call name _ _ first tail => exact call_read name first tail
  | parens _ inner => exact parens_read inner
  | expression _ inner => exact expression_read inner
  | noItem => exact noItem_read
  | item _ _ head tail => exact item_read head tail
  | one x first =>
    exact coordinates_read x [] (by simp) (by simp [written]) (by simp [first]) (by simp [charge])
  | two x y first second =>
    refine coordinates_read x [y] (by simp) (by simp [written]) (by simp [first, second]) ?_
    simp only [charge, List.mem_cons, List.not_mem_nil, or_false, forall_eq_or_imp, forall_eq]
    omega
  | three x y z first second third =>
    refine coordinates_read x [y, z] (by simp) (by simp [written])
      (by simp [first, second, third]) ?_
    simp only [charge, List.mem_cons, List.not_mem_nil, or_false, forall_eq_or_imp, forall_eq]
    omega
  | branch _ _ condition consequent => exact branch_read condition consequent
  | branchElse _ _ _ condition consequent alternative =>
    exact branchElse_read condition consequent alternative
  | whileLoop _ _ condition body => exact whileLoop_read condition body
  | repeatLoop _ _ count body => exact repeatLoop_read count body
  | moveStep heading => exact moveStep_read heading
  | moveBy _ _ target offset => exact moveBy_read target offset
  | moveTo _ position => exact moveTo_read position
  | attack _ target => exact attack_read target
  | attackBy _ _ attacker target => exact attackBy_read attacker target
  | assign name _ value => exact assign_read name value
  | evaluate _ expr => exact evaluate_read expr
  | noStatement => exact noStatement_read
  | andThen _ _ head tail => exact andThen_read head tail
  | block _ body => exact block_read body

end Derivation

/-- A list of tokens with a derivation up to the end of the input is read as a program. -/
theorem Parser.program_complete {tokens : List Token} {stmts : Derivation .statements}
    {rest : List TokenKind} (kinds : tokens.map Token.kind = stmts.written ++ rest)
    (ended : rest.headD .endOfInput = .endOfInput) (deep : stmts.charge ≤ maxNesting) :
    ∃ result after, program (.start tokens) = .ok (result, after) := by
  have here : stmts.Ahead (.start tokens) rest := by
    refine ⟨kinds, ?_, ?_⟩
    · rw [Part.Stops, ended]
      rfl
    · simpa only [Cursor.start, Nat.zero_add] using deep
  have closes : endsProgram (rest.headD .endOfInput) = true := by
    rw [ended]
    rfl
  have blocks : ∀ kind, endsProgram kind = true → endsBlock kind = true := by
    intro kind ends
    rw [endsProgram, decide_eq_true_eq] at ends
    rw [ends]
    rfl
  have given : program.Gives (.start tokens) (fun _ => True) rest := by
    refine .step (nextSpan_apply _) rfl (.step (remaining_apply _) rfl ?_)
    refine (stmts.read maxNesting endsProgram _ _ rest here closes blocks
      (Nat.le_of_eq (List.length_map _)) (Nat.le_add_left _ _)).bind ?_
    exact fun _ after _ left _ => .step (previousSpan_apply after) rfl (.pure trivial left)
  obtain ⟨result, after, ran, _⟩ := given
  exact ⟨result, after, ran⟩

end Waggle
