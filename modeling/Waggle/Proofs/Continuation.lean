import Mathlib.Data.Set.Basic
import Waggle.Proofs.Lookahead

/-!
# How tokens may go on

`part.before rest` holds what is written as a part of the grammar and then goes on as `rest` allows.
For each part there is an equation that says this in terms of smaller parts, or of a first token and
what comes after it. Nothing is unfolded beyond these equations where a reader of tokens is
compared with the grammar.

A part is followed soundly only by what it would not take into itself: `part.Admits rest` says that
this holds of everything in `rest` and that there is something in it.
-/

namespace Waggle

/-- A token and what may come after it. -/
def TokenKind.before (kind : TokenKind) (rest : Set (List TokenKind)) : Set (List TokenKind) :=
  { kinds | ∃ more ∈ rest, kind :: more = kinds }

/-- A part and what may come after it. -/
def Part.before (part : Part) (rest : Set (List TokenKind)) : Set (List TokenKind) :=
  { kinds | ∃ (derivation : Derivation part), ∃ more ∈ rest, derivation.written ++ more = kinds }

variable {rest : Set (List TokenKind)} {kinds : List TokenKind}

/-- Tokens go on after a first one as that one allows. -/
@[simp] theorem TokenKind.cons_mem_before {kind first : TokenKind} :
    first :: kinds ∈ kind.before rest ↔ first = kind ∧ kinds ∈ rest := by
  constructor
  · rintro ⟨more, inside, same⟩
    obtain ⟨rfl, rfl⟩ := List.cons.inj same
    exact ⟨rfl, inside⟩
  · rintro ⟨rfl, inside⟩
    exact ⟨kinds, inside, rfl⟩

/-- A token begins what comes after it. -/
theorem TokenKind.cons_mem_before_self {kind : TokenKind} :
    kind :: kinds ∈ kind.before rest ↔ kinds ∈ rest := by
  rw [cons_mem_before, eq_self_iff_true, true_and]

/-- A token that begins nothing else begins what comes after it. -/
theorem TokenKind.cons_mem_union {kind : TokenKind} {other : Set (List TokenKind)}
    (apart : kind :: kinds ∉ other) : kind :: kinds ∈ other ∪ kind.before rest ↔ kinds ∈ rest := by
  constructor
  · rintro (inside | inside)
    · exact absurd inside apart
    · exact (cons_mem_before.mp inside).2
  · exact fun inside => .inr ⟨kinds, inside, rfl⟩

/-- Another token begins what does not begin with the first one. -/
theorem TokenKind.mem_of_cons_mem_union {kind first : TokenKind} {other : Set (List TokenKind)}
    (different : first ≠ kind) (inside : first :: kinds ∈ other ∪ kind.before rest) :
    first :: kinds ∈ other := by
  rcases inside with inside | inside
  · exact inside
  · exact absurd (cons_mem_before.mp inside).1 different

/-- What may come after a part may come after any derivation of it. -/
theorem Part.mem_before {part : Part} (derivation : Derivation part) (inside : kinds ∈ rest) :
    derivation.written ++ kinds ∈ part.before rest := ⟨derivation, kinds, inside, rfl⟩

namespace Part

/-! ### Equations -/

/-- An expression is an equation. -/
theorem expression_before :
    Part.expression.before rest = (Part.expr (.chain .equation)).before rest := by
  ext kinds
  constructor
  · rintro ⟨derivation, more, inside, rfl⟩
    cases derivation with
    | expression inner => exact mem_before inner inside
  · rintro ⟨inner, more, inside, rfl⟩
    exact ⟨.expression inner, more, inside, rfl⟩

/-- A chain is an operand and operators with their operands. -/
theorem chain_before (level : Level) :
    (Part.expr (.chain level)).before rest =
      (Part.expr level.operand).before ((Part.tail level).before rest) := by
  ext kinds
  constructor
  · rintro ⟨derivation, more, inside, rfl⟩
    cases derivation with
    | chain first others =>
      rw [Derivation.written, List.append_assoc]
      exact mem_before first (mem_before others inside)
  · rintro ⟨first, _, ⟨others, more, inside, rfl⟩, rfl⟩
    exact ⟨.chain first others, more, inside, List.append_assoc _ _ _⟩

/-- There is no operator, or one with its operand and further ones. -/
theorem mem_tail_before {level : Level} :
    kinds ∈ (Part.tail level).before rest ↔ kinds ∈ rest ∨ ∃ op : BinaryOp, op.level = level ∧
      kinds ∈ (TokenKind.symbol op.sign).before
        ((Part.expr level.operand).before ((Part.tail level).before rest)) := by
  constructor
  · rintro ⟨derivation, more, inside, rfl⟩
    cases derivation with
    | noOperator => exact .inl inside
    | operator op fits operand others =>
      refine .inr ⟨op, fits, _, mem_before operand (mem_before others inside), ?_⟩
      simp
  · rintro (inside | ⟨op, fits, _, ⟨operand, _, ⟨others, more, inside, rfl⟩, rfl⟩, rfl⟩)
    · exact mem_before .noOperator inside
    · exact ⟨.operator op fits operand others, more, inside, by simp⟩

/-- A signed expression is a sign and another one, or it has no sign. -/
theorem signed_before :
    (Part.expr .signed).before rest =
      (TokenKind.symbol .minus).before ((Part.expr .signed).before rest) ∪
        (Part.expr .primary).before rest := by
  ext kinds
  constructor
  · rintro ⟨derivation, more, inside, rfl⟩
    cases derivation with
    | minus operand => exact .inl ⟨_, mem_before operand inside, rfl⟩
    | unsigned inner => exact .inr (mem_before inner inside)
  · rintro (⟨_, ⟨operand, more, inside, rfl⟩, rfl⟩ | ⟨inner, more, inside, rfl⟩)
    · exact ⟨.minus operand, more, inside, rfl⟩
    · exact ⟨.unsigned inner, more, inside, rfl⟩

/-- There are no further items, or one after a comma and others. -/
theorem items_before :
    Part.items.before rest =
      rest ∪ (TokenKind.symbol .comma).before
        (Part.expression.before (Part.items.before rest)) := by
  ext kinds
  constructor
  · rintro ⟨derivation, more, inside, rfl⟩
    cases derivation with
    | noItem => exact .inl inside
    | item head others =>
      refine .inr ⟨_, mem_before head (mem_before others inside), ?_⟩
      simp
  · rintro (inside | ⟨_, ⟨head, _, ⟨others, more, inside, rfl⟩, rfl⟩, rfl⟩)
    · exact mem_before .noItem inside
    · exact ⟨.item head others, more, inside, by simp⟩

end Part

/-- The arguments of a call from after its opening parenthesis on. -/
def argumentsBefore (rest : Set (List TokenKind)) : Set (List TokenKind) :=
  (TokenKind.symbol .rightParen).before rest ∪
    Part.expression.before (Part.items.before ((TokenKind.symbol .rightParen).before rest))

/-- Up to a number of further coordinates, each after a comma. -/
def coordinatesBefore (rest : Set (List TokenKind)) : (room : Nat) → Set (List TokenKind)
  | 0 => rest
  | room + 1 => rest ∪ (TokenKind.symbol .comma).before
      (Part.expression.before (coordinatesBefore rest room))

/-- What stands between the parentheses of a move. -/
def motionBefore (rest : Set (List TokenKind)) : Set (List TokenKind) :=
  { kinds | ∃ heading : Direction, kinds ∈ (TokenKind.keyword (.direction heading)).before rest } ∪
    Part.expression.before ((TokenKind.symbol .comma).before (Part.coordinates.before rest))

/-- What stands between the parentheses of an attack. -/
def opponentsBefore (rest : Set (List TokenKind)) : Set (List TokenKind) :=
  Part.expression.before
    (rest ∪ (TokenKind.symbol .comma).before (Part.expression.before rest))

/-- What stands in parentheses after a keyword. -/
def parenthesisedBefore (inner : Set (List TokenKind) → Set (List TokenKind))
    (rest : Set (List TokenKind)) : Set (List TokenKind) :=
  (TokenKind.symbol .leftParen).before (inner ((TokenKind.symbol .rightParen).before rest))

/-- A branch may have an alternative. -/
def alternativeBefore (rest : Set (List TokenKind)) : Set (List TokenKind) :=
  rest ∪ (TokenKind.keyword .elseWord).before (Part.block.before rest)

namespace Part

/-- A literal, a word, a call or an expression between parentheses. -/
theorem mem_primary_before :
    kinds ∈ (Part.expr .primary).before rest ↔
      (∃ literal : Literal, kinds ∈ literal.kind.before rest) ∨
      (∃ name, kinds ∈ (TokenKind.identifier name).before
        (rest ∪ (TokenKind.symbol .leftParen).before (argumentsBefore rest))) ∨
      kinds ∈ parenthesisedBefore Part.expression.before rest := by
  constructor
  · rintro ⟨derivation, more, inside, rfl⟩
    cases derivation with
    | literal token => exact .inl ⟨token, more, inside, rfl⟩
    | reference name => exact .inr (.inl ⟨name, more, .inl inside, rfl⟩)
    | callNone name =>
      exact .inr (.inl ⟨name, _, .inr ⟨_, .inl ⟨more, inside, rfl⟩, rfl⟩, rfl⟩)
    | call name first others =>
      refine .inr (.inl ⟨name, _, .inr ⟨_, .inr (mem_before first (mem_before others
        ⟨more, inside, rfl⟩)), rfl⟩, ?_⟩)
      simp
    | parens inner =>
      refine .inr (.inr ⟨_, mem_before inner ⟨more, inside, rfl⟩, ?_⟩)
      simp
  · rintro (⟨token, more, inside, rfl⟩ | ⟨name, _, inside | ⟨_, ⟨more, inside, rfl⟩ |
      ⟨first, _, ⟨others, _, ⟨more, inside, rfl⟩, rfl⟩, rfl⟩, rfl⟩, rfl⟩ |
      ⟨_, ⟨inner, _, ⟨more, inside, rfl⟩, rfl⟩, rfl⟩)
    · exact ⟨.literal token, more, inside, rfl⟩
    · exact ⟨.reference name, _, inside, rfl⟩
    · exact ⟨.callNone name, more, inside, rfl⟩
    · exact ⟨.call name first others, more, inside, by simp⟩
    · exact ⟨.parens inner, more, inside, by simp⟩

/-- There are one, two or three coordinates. -/
theorem coordinates_before :
    Part.coordinates.before rest = Part.expression.before (coordinatesBefore rest 2) := by
  ext kinds
  constructor
  · rintro ⟨derivation, more, inside, rfl⟩
    cases derivation with
    | one x => exact ⟨x, more, .inl inside, rfl⟩
    | two x y =>
      refine ⟨x, _, .inr ⟨_, mem_before y (.inl inside), rfl⟩, ?_⟩
      simp
    | three x y z =>
      refine ⟨x, _, .inr ⟨_, mem_before y (.inr ⟨_, mem_before z inside, rfl⟩), rfl⟩, ?_⟩
      simp
  · rintro ⟨x, _, inside | ⟨_, ⟨y, _, inside | ⟨_, ⟨z, more, inside, rfl⟩, rfl⟩, rfl⟩, rfl⟩, rfl⟩
    · exact ⟨.one x, _, inside, rfl⟩
    · exact ⟨.two x y, _, inside, by simp⟩
    · exact ⟨.three x y z, more, inside, by simp⟩

/-- A block is statements between braces. -/
theorem block_before :
    Part.block.before rest = (TokenKind.symbol .leftBrace).before
      (Part.statements.before ((TokenKind.symbol .rightBrace).before rest)) := by
  ext kinds
  constructor
  · rintro ⟨derivation, more, inside, rfl⟩
    cases derivation with
    | block body =>
      refine ⟨_, mem_before body ⟨more, inside, rfl⟩, ?_⟩
      simp
  · rintro ⟨_, ⟨body, _, ⟨more, inside, rfl⟩, rfl⟩, rfl⟩
    exact ⟨.block body, more, inside, by simp⟩

/-- There are no statements, or one and others. -/
theorem statements_before :
    Part.statements.before rest = rest ∪ Part.statement.before (Part.statements.before rest) := by
  ext kinds
  constructor
  · rintro ⟨derivation, more, inside, rfl⟩
    cases derivation with
    | noStatement => exact .inl inside
    | andThen head others =>
      refine .inr ⟨head, _, mem_before others inside, ?_⟩
      simp
  · rintro (inside | ⟨head, _, ⟨others, more, inside, rfl⟩, rfl⟩)
    · exact mem_before .noStatement inside
    · exact ⟨.andThen head others, more, inside, by simp⟩

end Part

/-- What comes after the first token of a statement that begins with a keyword, by that keyword. -/
def Keyword.statementBefore (rest : Set (List TokenKind)) : Keyword → Set (List TokenKind)
  | .ifWord =>
    parenthesisedBefore Part.expression.before (Part.block.before (alternativeBefore rest))
  | .whileWord | .repeatWord =>
    parenthesisedBefore Part.expression.before (Part.block.before rest)
  | .move => parenthesisedBefore motionBefore ((TokenKind.symbol .semicolon).before rest)
  | .moveTo =>
    parenthesisedBefore Part.coordinates.before ((TokenKind.symbol .semicolon).before rest)
  | .attack => parenthesisedBefore opponentsBefore ((TokenKind.symbol .semicolon).before rest)
  | _ => ∅

namespace Part

/-- A statement begins with a keyword of its own, or it is an assignment or an expression. -/
theorem mem_statement_before :
    kinds ∈ Part.statement.before rest ↔
      (∃ keyword : Keyword,
        kinds ∈ (TokenKind.keyword keyword).before (keyword.statementBefore rest)) ∨
      (∃ name, kinds ∈ (TokenKind.identifier name).before ((TokenKind.symbol .assign).before
        (Part.expression.before ((TokenKind.symbol .semicolon).before rest)))) ∨
      kinds ∈ Part.expression.before ((TokenKind.symbol .semicolon).before rest) := by
  constructor
  · rintro ⟨derivation, more, inside, rfl⟩
    cases derivation with
    | branch condition consequent =>
      refine .inl ⟨.ifWord, _, ⟨_, mem_before condition ⟨_, mem_before consequent
        (.inl inside), rfl⟩, rfl⟩, ?_⟩
      simp [inParens]
    | branchElse condition consequent alternative =>
      refine .inl ⟨.ifWord, _, ⟨_, mem_before condition ⟨_, mem_before consequent
        (.inr ⟨_, mem_before alternative inside, rfl⟩), rfl⟩, rfl⟩, ?_⟩
      simp [inParens]
    | whileLoop condition body =>
      refine .inl ⟨.whileWord, _, ⟨_, mem_before condition ⟨_, mem_before body inside, rfl⟩, rfl⟩,
        ?_⟩
      simp [inParens]
    | repeatLoop count body =>
      refine .inl ⟨.repeatWord, _, ⟨_, mem_before count ⟨_, mem_before body inside, rfl⟩, rfl⟩, ?_⟩
      simp [inParens]
    | moveStep heading =>
      exact .inl ⟨.move, _, ⟨_, .inl ⟨heading, _, ⟨_, ⟨more, inside, rfl⟩, rfl⟩, rfl⟩, rfl⟩, rfl⟩
    | moveBy target offset =>
      refine .inl ⟨.move, _, ⟨_, .inr (mem_before target ⟨_, mem_before offset
        ⟨_, ⟨more, inside, rfl⟩, rfl⟩, rfl⟩), rfl⟩, ?_⟩
      simp [inParens]
    | moveTo position =>
      refine .inl ⟨.moveTo, _, ⟨_, mem_before position ⟨_, ⟨more, inside, rfl⟩, rfl⟩, rfl⟩, ?_⟩
      simp [inParens]
    | attack target =>
      refine .inl ⟨.attack, _, ⟨_, mem_before target (.inl ⟨_, ⟨more, inside, rfl⟩, rfl⟩), rfl⟩, ?_⟩
      simp [inParens]
    | attackBy attacker target =>
      refine .inl ⟨.attack, _, ⟨_, mem_before attacker (.inr ⟨_, mem_before target
        ⟨_, ⟨more, inside, rfl⟩, rfl⟩, rfl⟩), rfl⟩, ?_⟩
      simp [inParens]
    | assign name value =>
      refine .inr (.inl ⟨name, _, ⟨_, mem_before value ⟨more, inside, rfl⟩, rfl⟩, ?_⟩)
      simp
    | evaluate expr =>
      refine .inr (.inr ⟨expr, _, ⟨more, inside, rfl⟩, ?_⟩)
      simp
  · rintro (⟨keyword, _, inside, rfl⟩ |
      ⟨name, _, ⟨_, ⟨value, _, ⟨more, inside, rfl⟩, rfl⟩, rfl⟩, rfl⟩ |
      ⟨expr, _, ⟨more, inside, rfl⟩, rfl⟩)
    · cases keyword with
      | ifWord =>
        obtain ⟨_, ⟨condition, _, ⟨_, ⟨consequent, _, inside | ⟨_, ⟨alternative, more, inside, rfl⟩,
          rfl⟩, rfl⟩, rfl⟩, rfl⟩, rfl⟩ := inside
        · exact ⟨.branch condition consequent, _, inside, by simp [inParens]⟩
        · exact ⟨.branchElse condition consequent alternative, more, inside, by simp [inParens]⟩
      | whileWord =>
        obtain ⟨_, ⟨condition, _, ⟨_, ⟨body, more, inside, rfl⟩, rfl⟩, rfl⟩, rfl⟩ := inside
        exact ⟨.whileLoop condition body, more, inside, by simp [inParens]⟩
      | repeatWord =>
        obtain ⟨_, ⟨count, _, ⟨_, ⟨body, more, inside, rfl⟩, rfl⟩, rfl⟩, rfl⟩ := inside
        exact ⟨.repeatLoop count body, more, inside, by simp [inParens]⟩
      | move =>
        obtain ⟨_, ⟨heading, _, ⟨_, ⟨more, inside, rfl⟩, rfl⟩, rfl⟩ | ⟨target, _, ⟨_, ⟨offset, _,
          ⟨_, ⟨more, inside, rfl⟩, rfl⟩, rfl⟩, rfl⟩, rfl⟩, rfl⟩ := inside
        · exact ⟨.moveStep heading, more, inside, by simp [inParens]⟩
        · exact ⟨.moveBy target offset, more, inside, by simp [inParens]⟩
      | moveTo =>
        obtain ⟨_, ⟨position, _, ⟨_, ⟨more, inside, rfl⟩, rfl⟩, rfl⟩, rfl⟩ := inside
        exact ⟨.moveTo position, more, inside, by simp [inParens]⟩
      | attack =>
        obtain ⟨_, ⟨target, _, ⟨_, ⟨more, inside, rfl⟩, rfl⟩ |
          ⟨_, ⟨second, _, ⟨_, ⟨more, inside, rfl⟩, rfl⟩, rfl⟩, rfl⟩, rfl⟩, rfl⟩ := inside
        · exact ⟨.attack target, more, inside, by simp [inParens]⟩
        · exact ⟨.attackBy target second, more, inside, by simp [inParens]⟩
      | elseWord | truth | direction => exact inside.elim
    · exact ⟨.assign name value, more, inside, by simp⟩
    · exact ⟨.evaluate expr, more, inside, by simp⟩

end Part

/-! ### First tokens -/

namespace Part

/-- What has to be written begins with a token that it may begin with. -/
theorem begins_of_mem_before {part : Part} (solid : part.nullable = false) {kind : TokenKind}
    (inside : kind :: kinds ∈ part.before rest) : part.begins kind = true := by
  obtain ⟨derivation, more, _, same⟩ := inside
  obtain ⟨first, others, written, begins⟩ := derivation.starts.exists_cons solid
  rw [written, List.cons_append] at same
  exact (List.cons.inj same).1 ▸ begins

/-- A literal is a primary expression on its own. -/
theorem literal_mem_before (literal : Literal) :
    literal.kind :: kinds ∈ (Part.expr .primary).before rest ↔ kinds ∈ rest := by
  rw [mem_primary_before]
  constructor
  · rintro (⟨_, inside⟩ | ⟨_, inside⟩ | inside)
    · exact (TokenKind.cons_mem_before.mp inside).2
    · cases literal <;> cases (TokenKind.cons_mem_before.mp inside).1
    · cases literal <;> cases (TokenKind.cons_mem_before.mp inside).1
  · exact fun inside => .inl ⟨literal, kinds, inside, rfl⟩

/-- A word is a primary expression on its own, or the arguments of a call follow. -/
theorem identifier_mem_before (name : String) :
    .identifier name :: kinds ∈ (Part.expr .primary).before rest ↔
      kinds ∈ rest ∪ (TokenKind.symbol .leftParen).before (argumentsBefore rest) := by
  rw [mem_primary_before]
  constructor
  · rintro (⟨literal, inside⟩ | ⟨_, inside⟩ | inside)
    · cases literal <;> cases (TokenKind.cons_mem_before.mp inside).1
    · exact (TokenKind.cons_mem_before.mp inside).2
    · cases (TokenKind.cons_mem_before.mp inside).1
  · exact fun inside => .inr (.inl ⟨name, kinds, inside, rfl⟩)

/-- After an opening parenthesis come an expression and the closing one. -/
theorem leftParen_mem_before :
    .symbol .leftParen :: kinds ∈ (Part.expr .primary).before rest ↔
      kinds ∈ Part.expression.before ((TokenKind.symbol .rightParen).before rest) := by
  rw [mem_primary_before]
  constructor
  · rintro (⟨literal, inside⟩ | ⟨_, inside⟩ | inside)
    · cases literal <;> cases (TokenKind.cons_mem_before.mp inside).1
    · cases (TokenKind.cons_mem_before.mp inside).1
    · exact (TokenKind.cons_mem_before.mp inside).2
  · exact fun inside => .inr (.inr ⟨kinds, inside, rfl⟩)

/-- A primary expression is an expression. -/
theorem primary_before_subset :
    (Part.expr .primary).before rest ⊆ Part.expression.before rest := by
  rintro _ ⟨inner, more, inside, rfl⟩
  refine ⟨.expression (.chain (.chain (.chain (.unsigned inner) .noOperator) .noOperator)
    .noOperator), more, inside, ?_⟩
  simp only [Derivation.written, List.append_nil]

/-- After a keyword that begins no expression comes what belongs to it. -/
theorem keyword_mem_before {keyword : Keyword}
    (own : (TokenKind.keyword keyword).beginsExpression = false) :
    .keyword keyword :: kinds ∈ Part.statement.before rest ↔
      kinds ∈ keyword.statementBefore rest := by
  rw [mem_statement_before]
  constructor
  · rintro (⟨other, inside⟩ | ⟨_, inside⟩ | inside)
    · obtain ⟨same, inside⟩ := TokenKind.cons_mem_before.mp inside
      cases same
      exact inside
    · cases (TokenKind.cons_mem_before.mp inside).1
    · exact absurd (own.symm.trans (begins_of_mem_before rfl inside)) Bool.false_ne_true
  · exact fun inside => .inl ⟨keyword, kinds, inside, rfl⟩

/-- No expression statement goes on with `=` after a word. -/
theorem not_assign_mem_before {name : String} {mark : TokenKind}
    (different : mark ≠ .symbol .assign) :
    .identifier name :: .symbol .assign :: kinds ∉ Part.expression.before (mark.before rest) := by
  rintro ⟨expr, _, ⟨more, _, rfl⟩, same⟩
  rcases expr.second_of_word same (by simp) (by simp) with marked | absorbed
  · exact different marked.symm
  · cases absorbed

/-- After a word and `=` comes the value that is assigned. -/
theorem assign_mem_before (name : String) :
    .identifier name :: .symbol .assign :: kinds ∈ Part.statement.before rest ↔
      kinds ∈ Part.expression.before ((TokenKind.symbol .semicolon).before rest) := by
  rw [mem_statement_before]
  constructor
  · rintro (⟨_, inside⟩ | ⟨_, inside⟩ | inside)
    · cases (TokenKind.cons_mem_before.mp inside).1
    · exact (TokenKind.cons_mem_before.mp (TokenKind.cons_mem_before.mp inside).2).2
    · exact absurd inside (not_assign_mem_before (by simp))
  · exact fun inside => .inr (.inl ⟨name, _, ⟨kinds, inside, rfl⟩, rfl⟩)

/-- A statement without a keyword of its own that is no assignment is an expression. -/
theorem evaluate_mem_before {kind : TokenKind}
    (other : ∀ keyword, kind = .keyword keyword → kinds ∉ keyword.statementBefore rest)
    (unassigned : ∀ name more, kind = .identifier name → kinds ≠ .symbol .assign :: more)
    (inside : kind :: kinds ∈ Part.statement.before rest) :
    kind :: kinds ∈ Part.expression.before ((TokenKind.symbol .semicolon).before rest) := by
  rcases mem_statement_before.mp inside with ⟨keyword, inside⟩ | ⟨name, inside⟩ | inside
  · obtain ⟨found, inside⟩ := TokenKind.cons_mem_before.mp inside
    exact absurd inside (other keyword found)
  · obtain ⟨found, more, -, rfl⟩ := TokenKind.cons_mem_before.mp inside
    exact absurd rfl (unassigned name more found)
  · exact inside

/-- A direction that is closed at once is no target with coordinates. -/
theorem not_direction_mem_before {heading : Direction} :
    .keyword (.direction heading) :: .symbol .rightParen :: kinds ∉
      Part.expression.before ((TokenKind.symbol .comma).before rest) := by
  rintro ⟨target, _, ⟨more, _, rfl⟩, same⟩
  exact target.not_direction_target same

end Part

/-! ### What may follow -/

/-- Every part can be written. -/
theorem Part.exists_derivation (part : Part) : Nonempty (Derivation part) := by
  have primary : Derivation (.expr .primary) := .reference ""
  have chain (level : Level) : Derivation (.expr (.chain level)) := by
    have product : Derivation (.expr (.chain .product)) := .chain (.unsigned primary) .noOperator
    cases level with
    | equation => exact .chain (.chain product .noOperator) .noOperator
    | sum => exact .chain product .noOperator
    | product => exact product
  have expression : Derivation .expression := .expression (chain .equation)
  cases part with
  | expr tier =>
    cases tier with
    | chain level => exact ⟨chain level⟩
    | signed => exact ⟨.unsigned primary⟩
    | primary => exact ⟨primary⟩
  | expression => exact ⟨expression⟩
  | tail level => exact ⟨.noOperator⟩
  | items => exact ⟨.noItem⟩
  | coordinates => exact ⟨.one expression⟩
  | statement => exact ⟨.evaluate expression⟩
  | statements => exact ⟨.noStatement⟩
  | block => exact ⟨.block .noStatement⟩

/-- Something is written as a part before something. -/
theorem Part.before_nonempty (part : Part) (some : rest.Nonempty) :
    (part.before rest).Nonempty := by
  obtain ⟨derivation⟩ := part.exists_derivation
  obtain ⟨more, inside⟩ := some
  exact ⟨_, mem_before derivation inside⟩

/-- Something begins with a token before something. -/
theorem TokenKind.before_nonempty (kind : TokenKind) (some : rest.Nonempty) :
    (kind.before rest).Nonempty := by
  obtain ⟨more, inside⟩ := some
  exact ⟨_, more, inside, rfl⟩

/-- No expression goes on with the end of the input. -/
theorem Tier.absorbs_endOfInput (tier : Tier) : tier.absorbs .endOfInput = false := by
  cases tier with
  | chain level => cases level <;> rfl
  | signed | primary => rfl

/-- No part goes on with the end of the input. -/
theorem Part.absorbs_endOfInput (part : Part) : part.absorbs .endOfInput = false := by
  cases part with
  | expr tier => exact tier.absorbs_endOfInput
  | tail level => exact (Tier.chain level).absorbs_endOfInput
  | _ => rfl

/-- A part may be followed as some tokens say, and there are such. -/
structure Part.Admits (part : Part) (rest : Set (List TokenKind)) : Prop where
  /-- There are some. -/
  some : rest.Nonempty
  /-- The part ends before them. -/
  stops : ∀ more ∈ rest, part.Stops more

namespace Part.Admits

variable {part : Part}

/-- A part may be followed by a token that it does not go on with. -/
theorem token {kind : TokenKind} (some : rest.Nonempty) (ends : part.absorbs kind = false) :
    part.Admits (kind.before rest) where
  some := kind.before_nonempty some
  stops := by
    rintro _ ⟨more, _, rfl⟩
    exact ends

/-- A part may be followed in one of two ways. -/
theorem union {other : Set (List TokenKind)} (one : part.Admits rest) (two : part.Admits other) :
    part.Admits (rest ∪ other) where
  some := one.some.inl
  stops := by
    rintro more (inside | inside)
    · exact one.stops more inside
    · exact two.stops more inside

/-- A part may be followed as one that goes on with more tokens. -/
theorem mono {wider : Part} (admits : wider.Admits rest)
    (within : ∀ kind, wider.absorbs kind = false → part.absorbs kind = false) :
    part.Admits rest where
  some := admits.some
  stops more inside := within _ (admits.stops more inside)

/-- A token that a part goes on with does not come after it. -/
theorem not_mem (admits : part.Admits rest) {kind : TokenKind} (goesOn : part.absorbs kind = true) :
    kind :: kinds ∉ rest := by
  intro inside
  have stops := admits.stops _ inside
  rw [Stops, List.headD_cons, goesOn] at stops
  cases stops

/-- An operand may be followed by the operators of its level. -/
theorem operand {level : Level} (admits : (Part.tail level).Admits rest) :
    (Part.expr level.operand).Admits ((Part.tail level).before rest) where
  some := before_nonempty _ admits.some
  stops := by
    rintro _ ⟨tail, more, inside, rfl⟩
    exact tail.stops_operand (admits.stops more inside)

/-- An expression may be followed by further items. -/
theorem item (admits : Part.items.Admits rest) :
    Part.expression.Admits (Part.items.before rest) where
  some := before_nonempty _ admits.some
  stops := by
    rintro _ ⟨items, more, inside, rfl⟩
    exact items.stops_item (admits.stops more inside)

/-- An expression may be followed by further coordinates. -/
theorem coordinate (admits : Part.coordinates.Admits rest) (room : Nat) :
    Part.expression.Admits (coordinatesBefore rest room) := by
  have alone : Part.expression.Admits rest :=
    admits.mono fun _ ends => (Bool.or_eq_false_iff.mp ends).2
  induction room with
  | zero => exact alone
  | succ room ih => exact alone.union (.token (before_nonempty _ ih.some) rfl)

/-- A statement may be followed by further statements. -/
theorem statement (admits : Part.statements.Admits rest) :
    Part.statement.Admits (Part.statements.before rest) where
  some := before_nonempty _ admits.some
  stops := by
    rintro _ ⟨stmts, more, inside, rfl⟩
    exact stmts.stops_statement (admits.stops more inside)

end Part.Admits

end Waggle
