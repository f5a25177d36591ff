import Mathlib.Data.List.Forall2
import Waggle.Proofs.Grammar
import Waggle.Proofs.Reading

/-!
# Moving a script about

A relocation gives every place of a script another one, in a way that agrees with merging. What is
read at the new places is what was read at the old ones with its spans moved, and so is what is
wrong with it: a parser copies spans and merges them, and does nothing else with them. There is one
lemma for each parser, all of the same form (`Parser.Moves`), and they end in `program_moves`.

A relocation need not be defined everywhere. It covers a set of spans that is closed under merging,
and everything that is read from spans of that set has its own span in it.
-/

namespace Waggle

/-- A way to move the spans of a script. -/
structure Relocation where
  /-- Where a span is moved to. -/
  move : Span → Span
  /-- The spans that can be moved. -/
  Covers : Span → Prop
  /-- Two spans can be moved together. -/
  covers_merge : ∀ {left right}, Covers left → Covers right → Covers (left.merge right)
  /-- They are then moved together. -/
  move_merge : ∀ {left right}, Covers left → Covers right →
    move (left.merge right) = (move left).merge (move right)

mutual

/-- An expression with its spans moved. -/
def Expr.relocate (move : Span → Span) : Expr → Expr
  | .literal value span => .literal value (move span)
  | .reference name span => .reference name (move span)
  | .binary op left right span =>
    .binary op (left.relocate move) (right.relocate move) (move span)
  | .negate operand span => .negate (operand.relocate move) (move span)
  | .call callee arguments span =>
    .call ⟨callee.name, move callee.span⟩ (relocateAll move arguments) (move span)

/-- Expressions with their spans moved. -/
def relocateAll (move : Span → Span) : List Expr → List Expr
  | [] => []
  | expr :: rest => expr.relocate move :: relocateAll move rest

end

/-- A motion with its spans moved. -/
def Motion.relocate (move : Span → Span) : Motion → Motion
  | .step direction => .step direction
  | .offset coordinates => .offset (relocateAll move coordinates)

mutual

/-- A statement with its spans moved. -/
def Stmt.relocate (move : Span → Span) : Stmt → Stmt
  | .assign name value span =>
    .assign ⟨name.name, move name.span⟩ (value.relocate move) (move span)
  | .branch condition consequent none span =>
    .branch (condition.relocate move)
      ⟨relocateStmts move consequent.stmts, move consequent.span⟩ none (move span)
  | .branch condition consequent (some alternative) span =>
    .branch (condition.relocate move)
      ⟨relocateStmts move consequent.stmts, move consequent.span⟩
      (some ⟨relocateStmts move alternative.stmts, move alternative.span⟩) (move span)
  | .whileLoop condition body span =>
    .whileLoop (condition.relocate move) ⟨relocateStmts move body.stmts, move body.span⟩
      (move span)
  | .repeatLoop count body span =>
    .repeatLoop (count.relocate move) ⟨relocateStmts move body.stmts, move body.span⟩ (move span)
  | .evaluate expr span => .evaluate (expr.relocate move) (move span)
  | .move target motion span =>
    .move (target.map (Expr.relocate move)) (motion.relocate move) (move span)
  | .moveTo coordinates span => .moveTo (relocateAll move coordinates) (move span)
  | .attack attacker target span =>
    .attack (attacker.map (Expr.relocate move)) (target.relocate move) (move span)

/-- Statements with their spans moved. -/
def relocateStmts (move : Span → Span) : List Stmt → List Stmt
  | [] => []
  | stmt :: rest => stmt.relocate move :: relocateStmts move rest

end

/-- A block with its spans moved. -/
def Block.relocate (move : Span → Span) (block : Block Stmt) : Block Stmt :=
  ⟨relocateStmts move block.stmts, move block.span⟩

/-- A program with its spans moved. -/
def Program.relocate (move : Span → Span) (program : Program) : Program :=
  ⟨relocateStmts move program.stmts, move program.span⟩

/-- An expression that is moved has the span that its own is moved to. -/
@[simp] theorem Expr.span_relocate (move : Span → Span) (expr : Expr) :
    (expr.relocate move).span = move expr.span := by
  cases expr <;> simp only [relocate, span]

/-- An expression that is moved to another span is the same at the new one. -/
@[simp] theorem Expr.relocate_withSpan (move : Span → Span) (span : Span) (expr : Expr) :
    (expr.withSpan span).relocate move = (expr.relocate move).withSpan (move span) := by
  cases expr <;> simp only [relocate, withSpan]

/-- A branch is moved with its blocks. -/
theorem Stmt.relocate_branch (move : Span → Span) (condition : Expr) (consequent : Block Stmt)
    (alternative : Option (Block Stmt)) (span : Span) :
    (Stmt.branch condition consequent alternative span).relocate move =
      .branch (condition.relocate move) (consequent.relocate move)
        (alternative.map (Block.relocate move)) (move span) := by
  cases alternative <;> simp only [relocate, Block.relocate, Option.map_none, Option.map_some]

/-- Nothing is left of a statement list without statements wherever it is moved. -/
@[simp] theorem isEmpty_relocateStmts (move : Span → Span) (stmts : List Stmt) :
    (relocateStmts move stmts).isEmpty = stmts.isEmpty := by
  cases stmts <;> simp [relocateStmts]

namespace Relocation

variable (R : Relocation)

/-- A token at the new place of another one; the texts do not matter. -/
structure Carries (token moved : Token) : Prop where
  /-- The kind is the same. -/
  kind_eq : moved.kind = token.kind
  /-- The span is moved. -/
  span_eq : moved.span = R.move token.span
  /-- The span can be moved. -/
  covers : R.Covers token.span

/-- A cursor at the new places of another one. -/
structure Shifts (cursor moved : Cursor) : Prop where
  /-- The last token was at the new place. -/
  previous_eq : moved.previous = R.move cursor.previous
  /-- The place of the last token can be moved. -/
  covers : R.Covers cursor.previous
  /-- The tokens ahead are at the new places. -/
  rest : List.Forall₂ R.Carries cursor.rest moved.rest
  /-- The same number of levels is open. -/
  depth_eq : moved.depth = cursor.depth

namespace Shifts

variable {R} {cursor moved : Cursor} (shifts : R.Shifts cursor moved)
include shifts

/-- The next tokens are of one kind. -/
theorem kind_eq : moved.kind = cursor.kind := by
  rcases cursor with ⟨previous, rest, depth⟩
  rcases moved with ⟨previous', rest', depth'⟩
  rcases shifts.rest with _ | ⟨carries, others⟩
  · rfl
  · exact carries.kind_eq

/-- The tokens after the next are of one kind. -/
theorem secondKind_eq : moved.secondKind = cursor.secondKind := by
  rcases cursor with ⟨previous, rest, depth⟩
  rcases moved with ⟨previous', rest', depth'⟩
  rcases shifts.rest with _ | ⟨_, _ | ⟨carries, others⟩⟩
  · rfl
  · rfl
  · exact carries.kind_eq

/-- The place of the next token is moved. -/
theorem span_eq : moved.span = R.move cursor.span ∧ R.Covers cursor.span := by
  have previous := shifts.previous_eq
  have covers := shifts.covers
  rcases cursor with ⟨previous, rest, depth⟩
  rcases moved with ⟨previous', rest', depth'⟩
  rcases shifts.rest with _ | ⟨carries, others⟩
  · exact ⟨previous, covers⟩
  · exact ⟨carries.span_eq, carries.covers⟩

/-- Stepping over a token keeps the cursors together. -/
theorem advance : R.Shifts cursor.advance moved.advance := by
  have previous := shifts.previous_eq
  have covers := shifts.covers
  have depth := shifts.depth_eq
  rcases cursor with ⟨previous, rest, depth⟩
  rcases moved with ⟨previous', rest', depth'⟩
  rcases shifts.rest with _ | ⟨carries, others⟩
  · exact ⟨previous, covers, .nil, depth⟩
  · exact ⟨carries.span_eq, carries.covers, others, depth⟩

/-- Opening or closing as many levels keeps the cursors together. -/
theorem withDepth (change : Nat → Nat) :
    R.Shifts { cursor with depth := change cursor.depth }
      { moved with depth := change moved.depth } :=
  ⟨shifts.previous_eq, shifts.covers, shifts.rest, congrArg change shifts.depth_eq⟩

end Shifts

end Relocation

namespace Parser

/-- What is read at the new places is what is read at the old ones, and so is what is wrong: the
results are related by `carry`, and the results at the old places are `fine`. -/
def Moves {α : Type} (R : Relocation) (parser moved : Parser α) (carry : α → α)
    (fine : α → Prop) : Prop :=
  ∀ cursor cursor', R.Shifts cursor cursor' →
    match parser cursor with
    | .ok (result, after) => fine result ∧
      ∃ after', moved cursor' = .ok (carry result, after') ∧ R.Shifts after after'
    | .error error => R.Covers error.span ∧
      moved cursor' = .error ⟨error.fault, R.move error.span⟩

/-- An expression is read with its spans moved. -/
def MovesExpr (R : Relocation) (parser : Parser Expr) : Prop :=
  Moves R parser parser (Expr.relocate R.move) fun expr => R.Covers expr.span

namespace Moves

variable {α β : Type} {R : Relocation}

/-- Two parts are read one after the other. -/
theorem bind {first first' : Parser α} {next next' : α → Parser β} {carry : α → α}
    {fine : α → Prop} {carry' : β → β} {fine' : β → Prop} (head : Moves R first first' carry fine)
    (tail : ∀ result, fine result → Moves R (next result) (next' (carry result)) carry' fine') :
    Moves R (first >>= next) (first' >>= next') carry' fine' := by
  intro cursor cursor' shifts
  have begun := head cursor cursor' shifts
  rw [bind_apply, bind_apply]
  rcases ran : first cursor with error | ⟨result, between⟩
  · rw [ran] at begun
    obtain ⟨covers, failed⟩ := begun
    rw [failed]
    exact ⟨covers, rfl⟩
  · rw [ran] at begun
    obtain ⟨holds, between', ran', together⟩ := begun
    rw [ran']
    exact tail result holds between between' together

/-- A result that is given stays where it is. -/
theorem pure {value : α} {carry : α → α} {fine : α → Prop} {value' : α}
    (same : value' = carry value) (holds : fine value) :
    Moves R (Pure.pure value) (Pure.pure value') carry fine := by
  intro cursor cursor' shifts
  subst same
  exact ⟨holds, cursor', rfl, shifts⟩

/-- The next tokens are of one kind. -/
theorem peek : Moves R peek peek id fun _ => True := by
  intro cursor cursor' shifts
  refine ⟨trivial, cursor', ?_, shifts⟩
  rw [peek_apply, shifts.kind_eq]
  rfl

/-- The tokens after the next are of one kind. -/
theorem peekSecond : Moves R peekSecond peekSecond id fun _ => True := by
  intro cursor cursor' shifts
  refine ⟨trivial, cursor', ?_, shifts⟩
  rw [peekSecond_apply, shifts.secondKind_eq]
  rfl

/-- As many tokens are left. -/
theorem remaining : Moves R remaining remaining id fun _ => True := by
  intro cursor cursor' shifts
  refine ⟨trivial, cursor', ?_, shifts⟩
  rw [remaining_apply, ← shifts.rest.length_eq]
  rfl

/-- The place of the next token is moved. -/
theorem nextSpan : Moves R nextSpan nextSpan R.move R.Covers := by
  intro cursor cursor' shifts
  obtain ⟨moved, covers⟩ := shifts.span_eq
  refine ⟨covers, cursor', ?_, shifts⟩
  rw [nextSpan_apply, moved]

/-- The place of the last token is moved. -/
theorem previousSpan : Moves R previousSpan previousSpan R.move R.Covers := by
  intro cursor cursor' shifts
  refine ⟨shifts.covers, cursor', ?_, shifts⟩
  rw [previousSpan_apply, shifts.previous_eq]

/-- A token is stepped over. -/
theorem skip : Moves R skip skip id fun _ => True :=
  fun _ cursor' shifts => ⟨trivial, cursor'.advance, rfl, shifts.advance⟩

/-- A fault at a place is a fault at the new one. -/
theorem failAt (fault : SyntaxFault) {span : Span} (covers : R.Covers span) {carry : α → α}
    {fine : α → Prop} : Moves R (failAt fault span) (failAt fault (R.move span)) carry fine :=
  fun _ _ _ => ⟨covers, rfl⟩

/-- A fault at the next token is one at its new place. -/
theorem fail (fault : SyntaxFault) {carry : α → α} {fine : α → Prop} :
    Moves R (fail fault) (fail fault) carry fine :=
  nextSpan.bind fun _ covers => failAt fault covers

/-- A token is accepted at both places or at neither. -/
theorem accept (kind : TokenKind) : Moves R (accept kind) (accept kind) id fun _ => True := by
  refine peek.bind fun found _ => ?_
  rw [id_eq]
  split
  · exact skip.bind fun _ _ => pure rfl trivial
  · exact pure rfl trivial

/-- A symbol is found at both places or missing at both. -/
theorem expect (symbol : Symbol) (place : Place) :
    Moves R (expect symbol place) (expect symbol place) id fun _ => True := by
  refine peek.bind fun found _ => ?_
  rw [id_eq]
  split
  · exact skip
  · exact fail _

/-- A level is opened at both places or at neither. -/
theorem enter : Moves R enter enter id fun _ => True := by
  intro cursor cursor' shifts
  obtain ⟨moved, covers⟩ := shifts.span_eq
  have same := shifts.depth_eq
  rw [enter_apply, enter_apply, moved]
  by_cases deep : maxNesting ≤ cursor.depth
  · rw [if_pos deep, if_pos (same ▸ deep)]
    exact ⟨covers, rfl⟩
  · rw [if_neg deep, if_neg (same ▸ deep)]
    exact ⟨trivial, _, rfl, shifts.withDepth (· + 1)⟩

/-- A level is closed. -/
theorem leave : Moves R leave leave id fun _ => True :=
  fun _ _ shifts => ⟨trivial, _, rfl, shifts.withDepth (· - 1)⟩

/-- What is read within a level of its own is moved as without it. -/
theorem nested {inner inner' : Parser α} {carry : α → α} {fine : α → Prop}
    (moves : Moves R inner inner' carry fine) :
    Moves R (nested inner) (nested inner') carry fine :=
  enter.bind fun _ _ => moves.bind fun _ holds => leave.bind fun _ _ => pure rfl holds

end Moves

section Expressions

variable {R : Relocation}

/-- An operator with its operands is moved. -/
theorem join_relocate (op : BinaryOp) {left right : Expr} (first : R.Covers left.span)
    (second : R.Covers right.span) :
    (left.join op right).relocate R.move =
      (left.relocate R.move).join op (right.relocate R.move) := by
  simp only [Expr.join, Expr.relocate, Expr.span_relocate, R.move_merge first second]

/-- A chain is read with its spans moved. -/
theorem chain_moves (operator? : TokenKind → Option BinaryOp) {operand : Parser Expr}
    (moves : MovesExpr R operand) (levels : Nat) {left : Expr} (covers : R.Covers left.span) :
    Moves R (chain operator? operand levels left)
      (chain operator? operand levels (left.relocate R.move)) (Expr.relocate R.move)
      fun expr => R.Covers expr.span := by
  induction levels generalizing left with
  | zero =>
    refine Moves.peek.bind fun kind _ => ?_
    rw [id_eq]
    split
    · exact .pure rfl covers
    · exact Moves.skip.bind fun _ _ => .fail _
  | succ levels ih =>
    refine Moves.peek.bind fun kind _ => ?_
    rw [id_eq]
    split
    · exact .pure rfl covers
    · rename_i op found
      refine Moves.skip.bind fun _ _ => Moves.nested ?_
      refine moves.bind fun right covers' => ?_
      rw [← join_relocate op covers covers']
      exact ih (R.covers_merge covers covers')

/-- A chained parser reads with spans moved. -/
theorem chained_moves (operator? : TokenKind → Option BinaryOp) {operand : Parser Expr}
    (moves : MovesExpr R operand) : MovesExpr R (chained operator? operand) :=
  moves.bind fun _ covers => chain_moves operator? moves maxNesting covers

/-- A sign is read with its operand and its spans moved. -/
theorem signed_moves {primary : Parser Expr} (moves : MovesExpr R primary) (levels : Nat) :
    MovesExpr R (signed primary levels) := by
  induction levels with
  | zero =>
    refine Moves.peek.bind fun kind _ => ?_
    rw [id_eq]
    split
    · exact Moves.skip.bind fun _ _ => .fail _
    · exact moves
  | succ levels ih =>
    refine Moves.peek.bind fun kind _ => ?_
    rw [id_eq]
    split
    · refine Moves.nextSpan.bind fun start covers => Moves.skip.bind fun _ _ => ?_
      refine ih.nested.bind fun operand covers' => ?_
      refine .pure ?_ (R.covers_merge covers covers')
      simp only [Expr.relocate, Expr.span_relocate, R.move_merge covers covers']
    · exact moves

/-- Items are read with their spans moved. -/
theorem commaSeparated_moves {item : Parser Expr} (moves : MovesExpr R item) (commas : Nat) :
    Moves R (commaSeparated item commas) (commaSeparated item commas) (relocateAll R.move)
      fun _ => True := by
  induction commas with
  | zero => exact moves.bind fun head _ => .pure rfl trivial
  | succ commas ih =>
    refine moves.bind fun head _ => ?_
    refine (Moves.accept _).bind fun accepted _ => ?_
    rw [id_eq]
    split
    · exact ih.bind fun rest _ => .pure rfl trivial
    · exact .pure rfl trivial

/-- Arguments are read with their spans moved. -/
theorem callArguments_moves {expression : Parser Expr} (moves : MovesExpr R expression) :
    Moves R (callArguments expression) (callArguments expression) (relocateAll R.move)
      fun _ => True := by
  refine Moves.peek.bind fun kind _ => ?_
  rw [id_eq]
  split
  · exact .pure rfl trivial
  · exact Moves.remaining.bind fun count _ => commaSeparated_moves moves count

/-- A primary expression is read with its spans moved. -/
theorem primary_moves {expression : Parser Expr} (moves : MovesExpr R expression) :
    MovesExpr R (primary expression) := by
  refine Moves.nextSpan.bind fun start covers => ?_
  refine Moves.peek.bind fun kind _ => ?_
  rw [id_eq]
  split
  · exact Moves.skip.bind fun _ _ => .pure rfl covers
  · split
    · refine Moves.skip.bind fun _ _ => moves.bind fun inner _ => ?_
      refine (Moves.expect _ _).bind fun _ _ => Moves.previousSpan.bind fun last covers' => ?_
      refine .pure ?_ ?_
      · rw [Expr.relocate_withSpan, R.move_merge covers covers']
      · cases inner <;> exact R.covers_merge covers covers'
    · refine Moves.peekSecond.bind fun second _ => ?_
      rw [id_eq]
      split
      · refine Moves.skip.bind fun _ _ => Moves.skip.bind fun _ _ => ?_
        refine (callArguments_moves moves).bind fun arguments _ => ?_
        refine (Moves.expect _ _).bind fun _ _ => Moves.previousSpan.bind fun last covers' => ?_
        refine .pure ?_ (R.covers_merge covers covers')
        simp only [Expr.relocate, R.move_merge covers covers']
      · exact Moves.skip.bind fun _ _ => .pure rfl covers
    · exact .fail _

/-- An expression within a number of levels is read with its spans moved. -/
theorem expressionWithin_moves (levels : Nat) : MovesExpr R (expressionWithin levels) := by
  induction levels with
  | zero => exact .fail _
  | succ levels ih =>
    have operands : MovesExpr R (operand (expressionWithin levels)) :=
      signed_moves (primary_moves ih) maxNesting
    exact (chained_moves _ (chained_moves _ (chained_moves _ operands))).nested

/-- An expression is read with its spans moved. -/
theorem expression_moves : MovesExpr R expression := expressionWithin_moves maxNesting

end Expressions

section Statements

variable {R : Relocation}

/-- Further coordinates are read with their spans moved. -/
theorem moreCoordinates_moves (keyword : Keyword) (room : Nat) :
    Moves R (moreCoordinates keyword room) (moreCoordinates keyword room) (relocateAll R.move)
      fun _ => True := by
  induction room with
  | zero =>
    refine Moves.peek.bind fun kind _ => ?_
    rw [id_eq]
    split
    · exact .fail _
    · exact .pure rfl trivial
  | succ room ih =>
    refine (Moves.accept _).bind fun accepted _ => ?_
    rw [id_eq]
    split
    · exact expression_moves.bind fun head _ => ih.bind fun rest _ => .pure rfl trivial
    · exact .pure rfl trivial

/-- Coordinates are read with their spans moved. -/
theorem coordinates_moves (keyword : Keyword) :
    Moves R (coordinates keyword) (coordinates keyword) (relocateAll R.move) fun _ => True :=
  expression_moves.bind fun _ _ =>
    (moreCoordinates_moves keyword 2).bind fun _ _ => .pure rfl trivial

/-- An expression between parentheses is read with its spans moved. -/
theorem parenthesised_moves (keyword : Keyword) (place : Place) :
    MovesExpr R (parenthesised keyword place) :=
  (Moves.expect _ _).bind fun _ _ => expression_moves.bind fun _ covers =>
    (Moves.expect _ _).bind fun _ _ => .pure rfl covers

/-- The end of an action is found at both places or missing at both. -/
theorem finishAction_moves (keyword : Keyword) :
    Moves R (finishAction keyword) (finishAction keyword) id fun _ => True :=
  (Moves.expect _ _).bind fun _ _ => Moves.expect _ _

/-- A motion is read with its spans moved. -/
theorem motion_moves :
    Moves R motion motion
      (fun found => (found.1.map (Expr.relocate R.move), found.2.relocate R.move))
      fun _ => True := by
  refine Moves.peek.bind fun kind _ => Moves.peekSecond.bind fun second _ => ?_
  rw [id_eq, id_eq]
  split
  · exact Moves.skip.bind fun _ _ => .pure rfl trivial
  · refine expression_moves.bind fun target covers => ?_
    refine (Moves.accept _).bind fun accepted _ => ?_
    rw [id_eq]
    split
    · exact (coordinates_moves .move).bind fun offset _ => .pure rfl trivial
    · refine Moves.peek.bind fun kind _ => ?_
      rw [id_eq, Expr.span_relocate]
      exact .failAt _ covers

/-- Opponents are read with their spans moved. -/
theorem opponents_moves :
    Moves R opponents opponents
      (fun found => (found.1.map (Expr.relocate R.move), found.2.relocate R.move))
      fun _ => True := by
  have closed (pair : Option Expr × Expr) :
      Moves R (do if (← peek) = .symbol .comma then fail .tooManyArguments else return pair)
        (do
          if (← peek) = .symbol .comma then fail .tooManyArguments
          else return (pair.1.map (Expr.relocate R.move), pair.2.relocate R.move))
        (fun found => (found.1.map (Expr.relocate R.move), found.2.relocate R.move))
        fun _ => True := by
    refine Moves.peek.bind fun kind _ => ?_
    rw [id_eq]
    split
    · exact .fail _
    · exact .pure rfl trivial
  refine expression_moves.bind fun first _ => ?_
  refine (Moves.accept _).bind fun accepted _ => ?_
  rw [id_eq]
  split
  · refine expression_moves.bind fun second _ => ?_
    exact closed (some first, second)
  · exact closed (none, first)

/-- Statements up to a closing token are read with their spans moved. -/
theorem statements_moves (closing : TokenKind → Bool) {statement : Parser Stmt}
    (moves : Moves R statement statement (Stmt.relocate R.move) fun _ => True) (count : Nat) :
    Moves R (statements closing statement count) (statements closing statement count)
      (relocateStmts R.move) fun _ => True := by
  induction count with
  | zero => exact .pure rfl trivial
  | succ count ih =>
    refine Moves.peek.bind fun kind _ => ?_
    rw [id_eq]
    split
    · exact .pure rfl trivial
    · exact moves.bind fun head _ => ih.bind fun rest _ => .pure rfl trivial

/-- A block is read with its spans moved. -/
def MovesBlock (R : Relocation) (block : Place → Parser (Block Stmt)) : Prop :=
  ∀ place, Moves R (block place) (block place) (Block.relocate R.move) fun _ => True

/-- The span of a statement is moved where its last token is. -/
theorem finish_moves {start : Span} (covers : R.Covers start) {build build' : Span → Stmt}
    (same : ∀ span, (build span).relocate R.move = build' (R.move span)) :
    Moves R (do return build (start.merge (← previousSpan)))
      (do return build' ((R.move start).merge (← previousSpan))) (Stmt.relocate R.move)
      fun _ => True := by
  refine Moves.previousSpan.bind fun last covers' => .pure ?_ trivial
  rw [same, R.move_merge covers covers']

/-- A statement is read with its spans moved. -/
theorem statement_moves {block : Place → Parser (Block Stmt)} (moves : MovesBlock R block) :
    Moves R (statement block) (statement block) (Stmt.relocate R.move) fun _ => True := by
  refine Moves.nextSpan.bind fun start covers => ?_
  refine Moves.peek.bind fun kind _ => Moves.peekSecond.bind fun second _ => ?_
  rw [id_eq, id_eq]
  split
  · refine Moves.skip.bind fun _ _ => (parenthesised_moves _ _).bind fun condition _ => ?_
    refine (moves _).bind fun consequent _ => ?_
    have ended (alternative : Option (Block Stmt)) :
        Moves R (do return .branch condition consequent alternative (start.merge (← previousSpan)))
          (do
            return .branch (condition.relocate R.move) (consequent.relocate R.move)
              (alternative.map (Block.relocate R.move))
              ((R.move start).merge (← previousSpan)))
          (Stmt.relocate R.move) fun _ => True :=
      finish_moves covers fun span => Stmt.relocate_branch ..
    refine (Moves.accept _).bind fun accepted _ => ?_
    rw [id_eq]
    split
    · simp only [map_eq_pure_bind, bind_assoc, pure_bind]
      exact (moves _).bind fun block _ => ended (some block)
    · exact ended none
  · refine Moves.skip.bind fun _ _ => (parenthesised_moves _ _).bind fun condition _ => ?_
    refine (moves _).bind fun body _ => finish_moves covers fun span => ?_
    simp only [Stmt.relocate, Block.relocate]
  · refine Moves.skip.bind fun _ _ => (parenthesised_moves _ _).bind fun count _ => ?_
    refine (moves _).bind fun body _ => finish_moves covers fun span => ?_
    simp only [Stmt.relocate, Block.relocate]
  · refine Moves.skip.bind fun _ _ => (Moves.expect _ _).bind fun _ _ => ?_
    refine motion_moves.bind fun found _ => (finishAction_moves _).bind fun _ _ => ?_
    refine finish_moves covers fun span => ?_
    simp only [Stmt.relocate]
  · refine Moves.skip.bind fun _ _ => (Moves.expect _ _).bind fun _ _ => ?_
    refine (coordinates_moves _).bind fun place _ => (finishAction_moves _).bind fun _ _ => ?_
    refine finish_moves covers fun span => ?_
    simp only [Stmt.relocate]
  · refine Moves.skip.bind fun _ _ => (Moves.expect _ _).bind fun _ _ => ?_
    refine opponents_moves.bind fun found _ => (finishAction_moves _).bind fun _ _ => ?_
    refine finish_moves covers fun span => ?_
    simp only [Stmt.relocate]
  · refine Moves.skip.bind fun _ _ => Moves.skip.bind fun _ _ => ?_
    refine expression_moves.bind fun value _ => (Moves.expect _ _).bind fun _ _ => ?_
    refine finish_moves covers fun span => ?_
    simp only [Stmt.relocate]
  · refine expression_moves.bind fun expr covers' => (Moves.expect _ _).bind fun _ _ => ?_
    rw [Expr.span_relocate]
    refine finish_moves covers' fun span => ?_
    simp only [Stmt.relocate]

/-- A block within a number of levels is read with its spans moved. -/
theorem blockWithin_moves (levels : Nat) : MovesBlock R (blockWithin levels) := by
  induction levels with
  | zero => exact fun place => (Moves.expect _ _).bind fun _ _ => .fail _
  | succ levels ih =>
    intro place
    refine Moves.nextSpan.bind fun start covers => (Moves.expect _ _).bind fun _ _ => ?_
    have inside := Moves.remaining.bind fun count _ =>
      statements_moves (R := R) endsBlock (statement_moves ih) count
    refine inside.nested.bind fun stmts _ => (Moves.expect _ _).bind fun _ _ => ?_
    refine Moves.previousSpan.bind fun last covers' => .pure ?_ trivial
    rw [Block.relocate, R.move_merge covers covers']

/-- A program is read with its spans moved. -/
theorem program_moves :
    Moves R program program (Program.relocate R.move) fun _ => True := by
  refine Moves.nextSpan.bind fun start covers => Moves.remaining.bind fun count _ => ?_
  refine (statements_moves _ (statement_moves (blockWithin_moves maxNesting)) count).bind ?_
  intro stmts _
  refine Moves.previousSpan.bind fun last covers' => .pure ?_ trivial
  rw [Program.relocate, isEmpty_relocateStmts]
  split
  · rfl
  · rw [R.move_merge covers covers']

end Statements

end Parser

/-! ### The spans of a program

Where the tokens have spans of a set that is closed under merging, so has all that is read from
them.
-/

mutual

/-- The spans in an expression. -/
def Expr.spans : Expr → List Span
  | .literal _ span | .reference _ span => [span]
  | .binary _ left right span => span :: (left.spans ++ right.spans)
  | .negate operand span => span :: operand.spans
  | .call callee arguments span => span :: callee.span :: spansOfAll arguments

/-- The spans in expressions. -/
def spansOfAll : List Expr → List Span
  | [] => []
  | expr :: rest => expr.spans ++ spansOfAll rest

end

/-- The spans in a motion. -/
def Motion.spans : Motion → List Span
  | .step _ => []
  | .offset coordinates => spansOfAll coordinates

mutual

/-- The spans in a statement. -/
def Stmt.spans : Stmt → List Span
  | .assign name value span => span :: name.span :: value.spans
  | .branch condition consequent none span =>
    span :: consequent.span :: (condition.spans ++ spansOfStmts consequent.stmts)
  | .branch condition consequent (some alternative) span =>
    span :: consequent.span :: alternative.span ::
      (condition.spans ++ (spansOfStmts consequent.stmts ++ spansOfStmts alternative.stmts))
  | .whileLoop condition body span =>
    span :: body.span :: (condition.spans ++ spansOfStmts body.stmts)
  | .repeatLoop count body span => span :: body.span :: (count.spans ++ spansOfStmts body.stmts)
  | .evaluate expr span => span :: expr.spans
  | .move target motion span => span :: (target.toList.flatMap Expr.spans ++ motion.spans)
  | .moveTo coordinates span => span :: spansOfAll coordinates
  | .attack attacker target span => span :: (attacker.toList.flatMap Expr.spans ++ target.spans)

/-- The spans in statements. -/
def spansOfStmts : List Stmt → List Span
  | [] => []
  | stmt :: rest => stmt.spans ++ spansOfStmts rest

end

section Spans

variable (move : Span → Span)

mutual

/-- The spans of an expression that is moved are moved. -/
theorem Expr.spans_relocate (expr : Expr) :
    (expr.relocate move).spans = expr.spans.map move := by
  match expr with
  | .literal _ _ | .reference _ _ =>
    simp only [Expr.relocate, Expr.spans, List.map_cons, List.map_nil]
  | .binary _ left right _ =>
    simp only [Expr.relocate, Expr.spans, List.map_cons, List.map_append, left.spans_relocate,
      right.spans_relocate]
  | .negate operand _ =>
    simp only [Expr.relocate, Expr.spans, List.map_cons, operand.spans_relocate]
  | .call _ arguments _ =>
    simp only [Expr.relocate, Expr.spans, List.map_cons, spansOfAll_relocateAll arguments]

/-- The spans of expressions that are moved are moved. -/
theorem spansOfAll_relocateAll (exprs : List Expr) :
    spansOfAll (relocateAll move exprs) = (spansOfAll exprs).map move := by
  match exprs with
  | [] => simp only [relocateAll, spansOfAll, List.map_nil]
  | expr :: rest =>
    simp only [relocateAll, spansOfAll, List.map_append, expr.spans_relocate,
      spansOfAll_relocateAll rest]

end

/-- The spans of a motion that is moved are moved. -/
theorem Motion.spans_relocate (motion : Motion) :
    (motion.relocate move).spans = motion.spans.map move := by
  cases motion <;> simp only [relocate, spans, spansOfAll_relocateAll, List.map_nil]

/-- The spans of an expression that may be missing are moved. -/
theorem flatMap_spans_relocate (expr : Option Expr) :
    (expr.map (Expr.relocate move)).toList.flatMap Expr.spans =
      (expr.toList.flatMap Expr.spans).map move := by
  cases expr with
  | none => rfl
  | some expr => simp [expr.spans_relocate]

mutual

/-- The spans of a statement that is moved are moved. -/
theorem Stmt.spans_relocate (stmt : Stmt) :
    (stmt.relocate move).spans = stmt.spans.map move := by
  match stmt with
  | .branch _ consequent none _ =>
    simp only [Stmt.relocate, Stmt.spans, List.map_cons, List.map_append, Expr.spans_relocate,
      spansOfStmts_relocateStmts consequent.stmts]
  | .branch _ consequent (some alternative) _ =>
    simp only [Stmt.relocate, Stmt.spans, List.map_cons, List.map_append, Expr.spans_relocate,
      spansOfStmts_relocateStmts consequent.stmts, spansOfStmts_relocateStmts alternative.stmts]
  | .whileLoop _ body _ | .repeatLoop _ body _ =>
    simp only [Stmt.relocate, Stmt.spans, List.map_cons, List.map_append, Expr.spans_relocate,
      spansOfStmts_relocateStmts body.stmts]
  | .assign .. | .evaluate .. | .move .. | .moveTo .. | .attack .. =>
    simp only [Stmt.relocate, Stmt.spans, List.map_cons, List.map_append, Expr.spans_relocate,
      Motion.spans_relocate, spansOfAll_relocateAll, flatMap_spans_relocate]

/-- The spans of statements that are moved are moved. -/
theorem spansOfStmts_relocateStmts (stmts : List Stmt) :
    spansOfStmts (relocateStmts move stmts) = (spansOfStmts stmts).map move := by
  match stmts with
  | [] => simp only [relocateStmts, spansOfStmts, List.map_nil]
  | stmt :: rest =>
    simp only [relocateStmts, spansOfStmts, List.map_append, stmt.spans_relocate,
      spansOfStmts_relocateStmts rest]

end

end Spans

open Classical in
/-- Every span that can be moved stays, and every other one is changed. -/
noncomputable def Relocation.guard (R : Relocation) : Relocation where
  move span :=
    if R.Covers span then span else ⟨⟨span.start.line, span.start.column + 1⟩, span.stop⟩
  Covers := R.Covers
  covers_merge := R.covers_merge
  move_merge first second := by
    rw [if_pos first, if_pos second, if_pos (R.covers_merge first second)]

/-- A span that stays is one that can be moved. -/
theorem Relocation.covers_of_guard {R : Relocation} {span : Span}
    (stays : R.guard.move span = span) : R.Covers span := by
  by_contra missing
  have changed : R.guard.move span = ⟨⟨span.start.line, span.start.column + 1⟩, span.stop⟩ :=
    if_neg missing
  have column := congrArg (fun span => span.start.column) (changed.symm.trans stays)
  simp at column

/-- Every span in a program can be moved if those of its tokens can. -/
theorem Parser.program_covers {R : Relocation} (cursor : Cursor)
    (previous : R.Covers cursor.previous) (tokens : ∀ token ∈ cursor.rest, R.Covers token.span) :
    program.Ensures cursor fun result _ => ∀ span ∈ spansOfStmts result.stmts, R.Covers span := by
  -- Nothing that is read changes where the spans outside of the set are changed.
  intro result after read
  have stays {span : Span} (covers : R.Covers span) : span = R.guard.move span :=
    (if_pos covers).symm
  have shifts : R.guard.Shifts cursor cursor :=
    ⟨stays previous, previous, List.forall₂_same.mpr fun token member =>
      ⟨rfl, stays (tokens token member), tokens token member⟩, rfl⟩
  have moves := program_moves cursor cursor shifts
  rw [read] at moves
  obtain ⟨-, after', same, -⟩ := moves
  have stmts : result.stmts = relocateStmts R.guard.move result.stmts :=
    congrArg (fun ran => ran.1.stmts) (Except.ok.inj same)
  have spans := congrArg spansOfStmts stmts
  rw [spansOfStmts_relocateStmts] at spans
  intro span member
  have each := List.map_inj_left.mp ((List.map_id _).trans spans) span member
  exact Relocation.covers_of_guard each.symm

end Waggle
