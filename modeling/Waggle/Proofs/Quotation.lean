import Waggle.Proofs.Reading

/-!
# Faults quote tokens that are there

A fault quotes the token that it was found at. Wherever a parser stops in a list of tokens, what its
fault quotes is the kind of one of them or the end of the input (`Parser.Quotes`), since parsers
only move forward and quote only what they have looked at. There is one lemma for each parser, and
they end in `seen_of_program`.
-/

namespace Waggle

/-- The token that a fault quotes, if it quotes one. -/
def SyntaxFault.quoted? : SyntaxFault → Option TokenKind
  | .expectedSymbol _ _ found | .expectedExpression found | .expectedDirection found => some found
  | .tooManyArguments | .tooManyCoordinates _ | .nestingTooDeep => none

/-- The kinds that can be seen in a list of tokens. -/
def Seen (tokens : List Token) (kind : TokenKind) : Prop :=
  kind = .endOfInput ∨ kind ∈ tokens.map Token.kind

/-- The next kind is seen in the tokens. -/
theorem Cursor.seen_kind {cursor : Cursor} {tokens : List Token}
    (within : cursor.rest <:+ tokens) : Seen tokens cursor.kind := by
  obtain ⟨previous, _ | ⟨token, rest⟩, depth⟩ := cursor
  · exact .inl rfl
  · exact .inr (List.mem_map_of_mem (within.subset List.mem_cons_self))

/-- Stepping over a token stays within the tokens. -/
theorem Cursor.advance_suffix (cursor : Cursor) : cursor.advance.rest <:+ cursor.rest := by
  obtain ⟨previous, _ | ⟨token, rest⟩, depth⟩ := cursor
  · exact List.suffix_refl _
  · exact List.suffix_cons token rest

namespace Parser

variable {α β : Type} {tokens : List Token}

/-- Wherever it begins in a list of tokens, a parser stops within them, and what it quotes in a
fault is seen there. -/
def Quotes (tokens : List Token) (parser : Parser α) : Prop :=
  ∀ cursor, cursor.rest <:+ tokens →
    match parser cursor with
    | .ok (_, after) => after.rest <:+ tokens
    | .error error => ∀ found ∈ error.fault.quoted?, Seen tokens found

namespace Quotes

/-- Two parsers are run one after the other. -/
theorem bind {first : Parser α} {next : α → Parser β} (head : Quotes tokens first)
    (tail : ∀ result, Quotes tokens (next result)) : Quotes tokens (first >>= next) := by
  intro cursor within
  have begun := head cursor within
  rw [bind_apply]
  rcases ran : first cursor with error | ⟨result, between⟩
  · rw [ran] at begun
    exact begun
  · rw [ran] at begun
    exact tail result between begun

/-- A result that is given is no fault. -/
theorem pure (value : α) : Quotes tokens (Pure.pure value : Parser α) := fun _ within => within

/-- The next kind that is looked at is seen. -/
theorem peek {next : TokenKind → Parser β}
    (tail : ∀ found, Seen tokens found → Quotes tokens (next found)) :
    Quotes tokens (Parser.peek >>= next) := by
  intro cursor within
  rw [bind_apply, peek_apply]
  exact tail cursor.kind (Cursor.seen_kind within) cursor within

/-- Looking at the second token stays where it is. -/
theorem peekSecond : Quotes tokens Parser.peekSecond := fun _ within => within

/-- Telling the place of the next token stays where it is. -/
theorem nextSpan : Quotes tokens Parser.nextSpan := fun _ within => within

/-- Telling the place of the last token stays where it is. -/
theorem previousSpan : Quotes tokens Parser.previousSpan := fun _ within => within

/-- Counting the tokens stays where it is. -/
theorem remaining : Quotes tokens Parser.remaining := fun _ within => within

/-- A token is stepped over. -/
theorem skip : Quotes tokens Parser.skip :=
  fun cursor within => cursor.advance_suffix.trans within

/-- A fault may quote what is seen. -/
theorem failAt {fault : SyntaxFault} (honest : ∀ found ∈ fault.quoted?, Seen tokens found)
    (span : Span) : Quotes tokens (Parser.failAt fault span : Parser α) := fun _ _ => honest

/-- A fault at the next token may quote what is seen. -/
theorem fail {fault : SyntaxFault} (honest : ∀ found ∈ fault.quoted?, Seen tokens found) :
    Quotes tokens (Parser.fail fault : Parser α) :=
  nextSpan.bind fun span => failAt honest span

/-- A fault that quotes nothing is all right. -/
theorem plain {fault : SyntaxFault} (silent : fault.quoted? = none) :
    Quotes tokens (Parser.fail fault : Parser α) :=
  fail (by rw [silent]; nofun)

/-- A fault may quote a token that is seen. -/
theorem quote {fault : SyntaxFault} {found : TokenKind} (seen : Seen tokens found)
    (quoted : fault.quoted? = some found) : Quotes tokens (Parser.fail fault : Parser α) :=
  fail fun _ same => Option.some.inj (quoted.symm.trans same) ▸ seen

/-- A token is accepted or stays where it is. -/
theorem accept (kind : TokenKind) : Quotes tokens (Parser.accept kind) := by
  refine .peek fun found _ => ?_
  split
  · exact skip.bind fun _ => .pure true
  · exact .pure false

/-- What stands in the place of a symbol is quoted. -/
theorem expect (symbol : Symbol) (place : Place) : Quotes tokens (Parser.expect symbol place) := by
  refine .peek fun found seen => ?_
  split
  · exact skip
  · exact .quote seen rfl

/-- A level of its own makes no difference. -/
theorem nested {inner : Parser α} (quotes : Quotes tokens inner) :
    Quotes tokens (Parser.nested inner) := by
  have enter : Quotes tokens Parser.enter := by
    intro cursor within
    rw [enter_apply]
    by_cases deep : maxNesting ≤ cursor.depth
    · rw [if_pos deep]
      nofun
    · rw [if_neg deep]
      exact within
  have leave : Quotes tokens Parser.leave := fun _ within => within
  exact enter.bind fun _ => quotes.bind fun result => leave.bind fun _ => .pure result

end Quotes

/-! ### Expressions -/

section Expressions

/-- A chain quotes what its operands do. -/
theorem chain_quotes (operator? : TokenKind → Option BinaryOp) {operand : Parser Expr}
    (quotes : Quotes tokens operand) (levels : Nat) (left : Expr) :
    Quotes tokens (chain operator? operand levels left) := by
  induction levels generalizing left with
  | zero =>
    refine .peek fun kind _ => ?_
    split
    · exact .pure left
    · exact Quotes.skip.bind fun _ => .plain rfl
  | succ levels ih =>
    refine .peek fun kind _ => ?_
    split
    · exact .pure left
    · exact Quotes.skip.bind fun _ => .nested (quotes.bind fun right => ih _)

/-- A chained parser quotes what its operands do. -/
theorem chained_quotes (operator? : TokenKind → Option BinaryOp) {operand : Parser Expr}
    (quotes : Quotes tokens operand) : Quotes tokens (chained operator? operand) :=
  quotes.bind fun first => chain_quotes operator? quotes maxNesting first

/-- A sign quotes what its operand does. -/
theorem signed_quotes {primary : Parser Expr} (quotes : Quotes tokens primary) (levels : Nat) :
    Quotes tokens (signed primary levels) := by
  induction levels with
  | zero =>
    refine .peek fun kind _ => ?_
    split
    · exact Quotes.skip.bind fun _ => .plain rfl
    · exact quotes
  | succ levels ih =>
    refine .peek fun kind _ => ?_
    split
    · refine Quotes.nextSpan.bind fun start => Quotes.skip.bind fun _ => ?_
      exact ih.nested.bind fun operand => .pure _
    · exact quotes

/-- A list of items quotes what the items do. -/
theorem commaSeparated_quotes {item : Parser Expr} (quotes : Quotes tokens item) (commas : Nat) :
    Quotes tokens (commaSeparated item commas) := by
  induction commas with
  | zero => exact quotes.bind fun head => .pure _
  | succ commas ih =>
    refine quotes.bind fun head => (Quotes.accept _).bind fun accepted => ?_
    split
    · exact ih.bind fun rest => .pure _
    · exact .pure _

/-- Arguments quote what expressions do. -/
theorem callArguments_quotes {expression : Parser Expr} (quotes : Quotes tokens expression) :
    Quotes tokens (callArguments expression) := by
  refine .peek fun kind _ => ?_
  split
  · exact .pure []
  · exact Quotes.remaining.bind fun count => commaSeparated_quotes quotes count

/-- Where no expression begins, the token is quoted. -/
theorem primary_quotes {expression : Parser Expr} (quotes : Quotes tokens expression) :
    Quotes tokens (primary expression) := by
  refine Quotes.nextSpan.bind fun start => .peek fun kind seen => ?_
  split
  · exact Quotes.skip.bind fun _ => .pure _
  · split
    · refine Quotes.skip.bind fun _ => quotes.bind fun inner => ?_
      exact (Quotes.expect _ _).bind fun _ => Quotes.previousSpan.bind fun last => .pure _
    · refine Quotes.peekSecond.bind fun second => ?_
      split
      · refine Quotes.skip.bind fun _ => Quotes.skip.bind fun _ => ?_
        refine (callArguments_quotes quotes).bind fun arguments => ?_
        exact (Quotes.expect _ _).bind fun _ => Quotes.previousSpan.bind fun last => .pure _
      · exact Quotes.skip.bind fun _ => .pure _
    · exact .quote seen rfl

/-- An expression within a number of levels quotes what is seen. -/
theorem expressionWithin_quotes (levels : Nat) : Quotes tokens (expressionWithin levels) := by
  induction levels with
  | zero => exact .plain rfl
  | succ levels ih =>
    have operands : Quotes tokens (operand (expressionWithin levels)) :=
      signed_quotes (primary_quotes ih) maxNesting
    exact (chained_quotes _ (chained_quotes _ (chained_quotes _ operands))).nested

/-- An expression quotes what is seen. -/
theorem expression_quotes : Quotes tokens expression := expressionWithin_quotes maxNesting

end Expressions

/-! ### Statements -/

section Statements

/-- Further coordinates quote what expressions do. -/
theorem moreCoordinates_quotes (keyword : Keyword) (room : Nat) :
    Quotes tokens (moreCoordinates keyword room) := by
  induction room with
  | zero =>
    refine .peek fun kind _ => ?_
    split
    · exact .plain rfl
    · exact .pure []
  | succ room ih =>
    refine (Quotes.accept _).bind fun accepted => ?_
    split
    · exact expression_quotes.bind fun head => ih.bind fun rest => .pure _
    · exact .pure []

/-- Coordinates quote what expressions do. -/
theorem coordinates_quotes (keyword : Keyword) : Quotes tokens (coordinates keyword) :=
  expression_quotes.bind fun _ => (moreCoordinates_quotes keyword 2).bind fun _ => .pure _

/-- An expression between parentheses quotes what is seen. -/
theorem parenthesised_quotes (keyword : Keyword) (place : Place) :
    Quotes tokens (parenthesised keyword place) :=
  (Quotes.expect _ _).bind fun _ => expression_quotes.bind fun inner =>
    (Quotes.expect _ _).bind fun _ => .pure inner

/-- The end of an action quotes what stands in its place. -/
theorem finishAction_quotes (keyword : Keyword) : Quotes tokens (finishAction keyword) :=
  (Quotes.expect _ _).bind fun _ => Quotes.expect _ _

/-- Where no motion goes on, the token is quoted. -/
theorem motion_quotes : Quotes tokens motion := by
  refine .peek fun kind _ => Quotes.peekSecond.bind fun second => ?_
  split
  · exact Quotes.skip.bind fun _ => .pure _
  · refine expression_quotes.bind fun target => (Quotes.accept _).bind fun accepted => ?_
    split
    · exact (coordinates_quotes .move).bind fun offset => .pure _
    · refine .peek fun found seen => .failAt (fun _ same => ?_) _
      exact Option.some.inj same ▸ seen

/-- Opponents quote what expressions do. -/
theorem opponents_quotes : Quotes tokens opponents := by
  have closed (pair : Option Expr × Expr) : Quotes tokens (do
      if (← peek) = .symbol .comma then fail .tooManyArguments else return pair) := by
    refine .peek fun kind _ => ?_
    split
    · exact .plain rfl
    · exact .pure pair
  refine expression_quotes.bind fun first => (Quotes.accept _).bind fun accepted => ?_
  split
  · exact expression_quotes.bind fun second => closed _
  · exact closed _

/-- Statements up to a closing token quote what each of them does. -/
theorem statements_quotes (closing : TokenKind → Bool) {statement : Parser Stmt}
    (quotes : Quotes tokens statement) (count : Nat) :
    Quotes tokens (statements closing statement count) := by
  induction count with
  | zero => exact .pure []
  | succ count ih =>
    refine .peek fun kind _ => ?_
    split
    · exact .pure []
    · exact quotes.bind fun head => ih.bind fun rest => .pure _

/-- A statement quotes what its parts do. -/
theorem statement_quotes {block : Place → Parser (Block Stmt)}
    (quotes : ∀ place, Quotes tokens (block place)) : Quotes tokens (statement block) := by
  have finished (build : Span → Stmt) (start : Span) :
      Quotes tokens (do return build (start.merge (← previousSpan)) : Parser Stmt) :=
    Quotes.previousSpan.bind fun last => .pure _
  refine Quotes.nextSpan.bind fun start => .peek fun kind _ => ?_
  refine Quotes.peekSecond.bind fun second => ?_
  split
  · refine Quotes.skip.bind fun _ => (parenthesised_quotes _ _).bind fun condition => ?_
    refine (quotes _).bind fun consequent => (Quotes.accept _).bind fun accepted => ?_
    split
    · simp only [map_eq_pure_bind, bind_assoc, pure_bind]
      exact (quotes _).bind fun alternative => finished _ start
    · exact finished _ start
  · refine Quotes.skip.bind fun _ => (parenthesised_quotes _ _).bind fun condition => ?_
    exact (quotes _).bind fun body => finished _ start
  · refine Quotes.skip.bind fun _ => (parenthesised_quotes _ _).bind fun count => ?_
    exact (quotes _).bind fun body => finished _ start
  · refine Quotes.skip.bind fun _ => (Quotes.expect _ _).bind fun _ => ?_
    exact motion_quotes.bind fun found => (finishAction_quotes _).bind fun _ => finished _ start
  · refine Quotes.skip.bind fun _ => (Quotes.expect _ _).bind fun _ => ?_
    exact (coordinates_quotes _).bind fun place =>
      (finishAction_quotes _).bind fun _ => finished _ start
  · refine Quotes.skip.bind fun _ => (Quotes.expect _ _).bind fun _ => ?_
    exact opponents_quotes.bind fun found => (finishAction_quotes _).bind fun _ => finished _ start
  · refine Quotes.skip.bind fun _ => Quotes.skip.bind fun _ => ?_
    exact expression_quotes.bind fun value => (Quotes.expect _ _).bind fun _ => finished _ start
  · exact expression_quotes.bind fun expr => (Quotes.expect _ _).bind fun _ => finished _ _

/-- A block within a number of levels quotes what its statements do. -/
theorem blockWithin_quotes (levels : Nat) (place : Place) :
    Quotes tokens (blockWithin levels place) := by
  induction levels generalizing place with
  | zero => exact (Quotes.expect _ _).bind fun _ => .plain rfl
  | succ levels ih =>
    have inside (count : Nat) : Quotes tokens (statements endsBlock _ count) :=
      statements_quotes endsBlock (statement_quotes ih) count
    refine Quotes.nextSpan.bind fun start => (Quotes.expect _ _).bind fun _ => ?_
    refine (Quotes.remaining.bind inside).nested.bind fun stmts => ?_
    refine (Quotes.expect _ _).bind fun _ => ?_
    exact Quotes.previousSpan.bind fun last => .pure _

/-- A program quotes what its statements do. -/
theorem program_quotes : Quotes tokens program := by
  refine Quotes.nextSpan.bind fun start => Quotes.remaining.bind fun count => ?_
  refine (statements_quotes _ (statement_quotes (blockWithin_quotes maxNesting)) count).bind ?_
  exact fun stmts => Quotes.previousSpan.bind fun last => .pure _

end Statements

/-- Where a list of tokens is no program, what the fault quotes is the end of the input or one of
them. -/
theorem seen_of_program {error : SyntaxError} (stopped : program (.start tokens) = .error error) :
    ∀ found ∈ error.fault.quoted?, Seen tokens found := by
  have quotes := program_quotes (.start tokens) (List.suffix_refl tokens)
  rwa [stopped] at quotes

end Parser

end Waggle
