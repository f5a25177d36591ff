import Waggle.Proofs.Grammar

/-!
# What may begin a part and what may follow it

The grammar is settled by the next two tokens. Every part tells by its first token that it is there,
and which tokens after it would be taken into it: `Stops` says that none of them follows. Where two
kinds of statements begin alike, the second token sets them apart, because an expression that begins
with a word goes on with an operator or a parenthesis.
-/

namespace Waggle

namespace TokenKind

/-- Whether a primary expression may begin with a token. -/
def beginsPrimary : TokenKind → Bool
  | .number _ | .identifier _ | .keyword (.truth _) | .keyword (.direction _) => true
  | .symbol .leftParen => true
  | _ => false

/-- Whether an expression may begin with a token. -/
def beginsExpression : TokenKind → Bool
  | .symbol .minus => true
  | kind => kind.beginsPrimary

/-- Whether a statement may begin with a token. -/
def beginsStatement : TokenKind → Bool
  | .keyword .ifWord | .keyword .whileWord | .keyword .repeatWord => true
  | .keyword .move | .keyword .moveTo | .keyword .attack => true
  | kind => kind.beginsExpression

/-- What begins a primary expression begins an expression. -/
theorem beginsExpression_of_primary {kind : TokenKind} (begins : kind.beginsPrimary = true) :
    kind.beginsExpression = true := by
  unfold beginsExpression
  split
  · rfl
  · exact begins

/-- What begins an expression begins a statement. -/
theorem beginsStatement_of_expression {kind : TokenKind} (begins : kind.beginsExpression = true) :
    kind.beginsStatement = true := by
  unfold beginsStatement
  split
  case h_7 => exact begins
  all_goals rfl

/-- No block ends before a statement. -/
theorem not_endsBlock {kind : TokenKind} (begins : kind.beginsStatement = true) :
    Parser.endsBlock kind = false := by
  refine Bool.eq_false_iff.mpr fun ends => ?_
  rw [Parser.endsBlock, Bool.or_eq_true, decide_eq_true_eq, decide_eq_true_eq] at ends
  rcases ends with rfl | rfl <;> cases begins

end TokenKind

/-- The levels of the operators in an expression of a tier that are not within parentheses. -/
def Tier.levels : Tier → List Level
  | .chain .equation => [.equation, .sum, .product]
  | .chain .sum => [.sum, .product]
  | .chain .product => [.product]
  | .signed | .primary => []

/-- A chain has the operators of its level and those of its operands. -/
theorem Tier.levels_chain (level : Level) :
    (Tier.chain level).levels = level :: level.operand.levels := by
  cases level <;> rfl

/-- Whether an expression of a tier goes on with a token that follows it: a name goes on as a call
with a parenthesis, and a chain goes on with an operator. -/
def Tier.absorbs (tier : Tier) (kind : TokenKind) : Bool :=
  kind = .symbol .leftParen || tier.levels.any fun level => (level.operator? kind).isSome

/-- A chain goes on with what its operands go on with and with the operators of its level. -/
theorem Tier.absorbs_chain (level : Level) (kind : TokenKind) :
    (Tier.chain level).absorbs kind =
      (level.operand.absorbs kind || (level.operator? kind).isSome) := by
  unfold Tier.absorbs
  rw [Tier.levels_chain, List.any_cons, Bool.or_left_comm, Bool.or_comm]

/-- An expression goes on with the operators of any level. -/
theorem Level.absorbs_operator {level : Level} {kind : TokenKind}
    (operator : (level.operator? kind).isSome = true) :
    (Tier.chain .equation).absorbs kind = true := by
  have member : level ∈ (Tier.chain .equation).levels := by cases level <;> decide
  unfold Tier.absorbs
  rw [Bool.or_eq_true, List.any_eq_true]
  exact .inr ⟨level, member, operator⟩

namespace Part

/-- Whether a part may be written as no token at all. -/
def nullable : Part → Bool
  | .tail _ | .items | .statements => true
  | _ => false

/-- Whether a part may begin with a token. -/
def begins : Part → TokenKind → Bool
  | .expr .primary, kind => kind.beginsPrimary
  | .expr _, kind | .expression, kind | .coordinates, kind => kind.beginsExpression
  | .tail level, kind => (level.operator? kind).isSome
  | .items, kind => kind = .symbol .comma
  | .statement, kind | .statements, kind => kind.beginsStatement
  | .block, kind => kind = .symbol .leftBrace

/-- Whether a part goes on with a token that follows it. -/
def absorbs : Part → TokenKind → Bool
  | .expr tier, kind => tier.absorbs kind
  | .tail level, kind => (Tier.chain level).absorbs kind
  | .expression, kind => (Tier.chain .equation).absorbs kind
  | .items, kind | .coordinates, kind =>
    kind = .symbol .comma || (Tier.chain .equation).absorbs kind
  | .statement, kind => kind = .keyword .elseWord
  | .statements, kind => !Parser.endsBlock kind
  | .block, _ => false

/-- Whether a part is an expression. -/
def isExpression : Part → Bool
  | .expr _ | .expression => true
  | _ => false

/-- Tokens begin as those of a part may. -/
def Starts (part : Part) : List TokenKind → Prop
  | [] => part.nullable = true
  | kind :: _ => part.begins kind = true

/-- A part ends before tokens, because it does not go on with the first of them. -/
def Stops (part : Part) (rest : List TokenKind) : Prop :=
  part.absorbs (rest.headD .endOfInput) = false

/-- Items end before a token that is no comma. -/
theorem Stops.ne_comma {rest : List TokenKind} (stops : Part.items.Stops rest) :
    rest.headD .endOfInput ≠ .symbol .comma := by
  intro comma
  rw [Stops, comma] at stops
  cases stops

/-- A part that has to be written still begins tokens when more of them follow. -/
theorem Starts.append {part : Part} {kinds : List TokenKind} (starts : part.Starts kinds)
    (solid : part.nullable = false) (more : List TokenKind) : part.Starts (kinds ++ more) := by
  cases kinds with
  | nil => exact absurd (solid.symm.trans starts) (by simp)
  | cons kind rest => exact starts

/-- What begins as one part that has to be written begins as any other that may begin so. -/
theorem Starts.widen {inner outer : Part} {kinds : List TokenKind} (starts : inner.Starts kinds)
    (solid : inner.nullable = false)
    (within : ∀ kind, inner.begins kind = true → outer.begins kind = true) :
    outer.Starts kinds := by
  cases kinds with
  | nil => exact absurd (solid.symm.trans starts) (by simp)
  | cons kind rest => exact within kind starts

/-- There is a first token of a part that has to be written. -/
theorem Starts.exists_cons {part : Part} {kinds : List TokenKind} (starts : part.Starts kinds)
    (solid : part.nullable = false) :
    ∃ kind rest, kinds = kind :: rest ∧ part.begins kind = true := by
  cases kinds with
  | nil => exact absurd (solid.symm.trans starts) (by simp)
  | cons kind rest => exact ⟨kind, rest, rfl, starts⟩

end Part

/-- The kinds of statements that are told apart by their first two tokens. -/
inductive Lead where
  | ifWord
  | whileWord
  | repeatWord
  | move
  | moveTo
  | attack
  | assign
  | evaluate

/-- The kind of statement that tokens begin. -/
def Lead.of : List TokenKind → Lead
  | .keyword .ifWord :: _ => .ifWord
  | .keyword .whileWord :: _ => .whileWord
  | .keyword .repeatWord :: _ => .repeatWord
  | .keyword .move :: _ => .move
  | .keyword .moveTo :: _ => .moveTo
  | .keyword .attack :: _ => .attack
  | .identifier _ :: .symbol .assign :: _ => .assign
  | _ => .evaluate

namespace Derivation

/-- The tokens of a derivation begin as those of its part may. -/
theorem starts {part : Part} (derivation : Derivation part) :
    part.Starts derivation.written := by
  induction derivation with
  | @chain level first rest ih _ =>
    refine (ih.append rfl rest.written).widen rfl ?_
    cases level <;> exact fun _ begins => begins
  | operator op fits operand rest _ _ =>
    exact Option.isSome_iff_exists.mpr ⟨op, Level.operator?_eq_some_iff.mpr ⟨rfl, fits⟩⟩
  | unsigned inner ih => exact ih.widen rfl fun _ => TokenKind.beginsExpression_of_primary
  | expression inner ih => exact ih
  | one x ih => exact ih
  | two x y ih _ => exact ih.append rfl _
  | three x y z ih _ _ => exact ih.append rfl _
  | evaluate expr ih =>
    exact (ih.append rfl _).widen rfl fun _ => TokenKind.beginsStatement_of_expression
  | andThen head rest ih _ => exact (ih.append rfl _).widen rfl fun _ begins => begins
  | literal token => cases token <;> rfl
  | _ => rfl

/-- No derivation is written with the end of the input. -/
theorem endOfInput_not_mem {part : Part} (derivation : Derivation part) :
    .endOfInput ∉ derivation.written := by
  induction derivation with
  | literal token => cases token <;> simp [written, Literal.kind]
  | _ => simp_all [written, inParens]

/-- A derivation is written as the tokens up to the end of the input if that follows it. -/
theorem takeWhile_written {part : Part} (derivation : Derivation part) {rest : List TokenKind}
    (ended : rest.headD .endOfInput = .endOfInput) :
    (derivation.written ++ rest).takeWhile (· ≠ .endOfInput) = derivation.written := by
  have inside : ∀ kind ∈ derivation.written, decide (kind ≠ .endOfInput) = true := by
    intro kind member
    refine decide_eq_true ?_
    rintro rfl
    exact derivation.endOfInput_not_mem member
  rw [List.takeWhile_append_of_pos inside]
  cases rest with
  | nil => simp
  | cons kind more =>
    rw [show kind = .endOfInput from ended]
    simp

/-- After a word, an expression goes on with an operator or a parenthesis, or it ends. -/
theorem absorbs_second {part : Part} (derivation : Derivation part)
    (isExpression : part.isExpression = true) {word second : TokenKind} {rest : List TokenKind}
    (split : derivation.written = word :: second :: rest) (positive : word ≠ .symbol .minus)
    (plain : word ≠ .symbol .leftParen) : Part.expression.absorbs second = true := by
  induction derivation generalizing rest with
  | chain first tail ih _ =>
    obtain ⟨head, more, firstWritten, _⟩ := first.starts.exists_cons rfl
    rw [written, firstWritten] at split
    obtain ⟨rfl, after⟩ := List.cons.inj split
    -- Either the first operand is the word alone, or it goes on itself.
    cases more with
    | nil =>
      have begins := tail.starts
      rw [show tail.written = second :: rest from after] at begins
      exact Level.absorbs_operator begins
    | cons next others =>
      obtain ⟨rfl, _⟩ := List.cons.inj after
      exact ih rfl firstWritten
  | unsigned inner ih => exact ih rfl split
  | expression inner ih => exact ih rfl split
  | callNone name | call name first tail _ _ =>
    obtain ⟨_, after⟩ := List.cons.inj split
    obtain ⟨rfl, _⟩ := List.cons.inj after
    rfl
  | minus operand _ => exact absurd (List.cons.inj split).1.symm positive
  | parens inner _ => exact absurd (List.cons.inj split).1.symm plain
  | literal token | reference name => cases (List.cons.inj split).2
  | _ => cases isExpression

/-- The token after a word that an expression begins with is the mark after the expression, or one
that the expression goes on with. -/
theorem second_of_word (expr : Derivation .expression) {mark word second : TokenKind}
    {rest others : List TokenKind}
    (split : expr.written ++ mark :: rest = word :: second :: others)
    (positive : word ≠ .symbol .minus) (plain : word ≠ .symbol .leftParen) :
    second = mark ∨ Part.expression.absorbs second = true := by
  obtain ⟨head, more, writtenEq, _⟩ := expr.starts.exists_cons rfl
  rw [writtenEq] at split
  obtain ⟨rfl, after⟩ := List.cons.inj split
  cases more with
  | nil => exact .inl (List.cons.inj after).1.symm
  | cons next others =>
    obtain ⟨rfl, _⟩ := List.cons.inj after
    exact .inr (absorbs_second expr rfl writtenEq positive plain)

/-- A direction that is closed at once is no target followed by coordinates. -/
theorem not_direction_target (target : Derivation .expression) {heading : Direction}
    {rest others : List TokenKind}
    (same : target.written ++ .symbol .comma :: rest =
      .keyword (.direction heading) :: .symbol .rightParen :: others) : False := by
  rcases second_of_word target same (by simp) (by simp) with comma | absorbed
  · cases comma
  · cases absorbed

/-- An operand ends before the operators of its level. -/
theorem stops_operand {level : Level} (tail : Derivation (.tail level)) {rest : List TokenKind}
    (stops : Part.Stops (.tail level) rest) :
    Part.Stops (.expr level.operand) (tail.written ++ rest) := by
  cases tail with
  | noOperator =>
    rw [Part.Stops, Part.absorbs, Tier.absorbs_chain, Bool.or_eq_false_iff] at stops
    exact stops.1
  | operator op fits operand others =>
    subst fits
    cases op <;> rfl

/-- An expression ends before further items. -/
theorem stops_item (items : Derivation .items) {rest : List TokenKind}
    (stops : Part.Stops .items rest) : Part.Stops .expression (items.written ++ rest) := by
  cases items with
  | noItem => exact (Bool.or_eq_false_iff.mp stops).2
  | item head others => rfl

/-- A statement ends before further statements. -/
theorem stops_statement (stmts : Derivation .statements) {rest : List TokenKind}
    (stops : Part.Stops .statements rest) :
    Part.Stops .statement (stmts.written ++ rest) := by
  have begins := stmts.starts
  cases written : stmts.written with
  | nil =>
    rw [Part.Stops, Part.absorbs, Bool.not_eq_false'] at stops
    refine decide_eq_false fun otherwise => ?_
    rw [List.nil_append] at otherwise
    rw [otherwise] at stops
    cases stops
  | cons kind more =>
    rw [written] at begins
    refine decide_eq_false fun otherwise => ?_
    rw [show kind = .keyword .elseWord from otherwise] at begins
    cases begins

/-- What kind of statement a derivation is of. -/
def lead : Derivation .statement → Lead
  | .branch .. | .branchElse .. => .ifWord
  | .whileLoop .. => .whileWord
  | .repeatLoop .. => .repeatWord
  | .moveStep .. | .moveBy .. => .move
  | .moveTo .. => .moveTo
  | .attack .. | .attackBy .. => .attack
  | .assign .. => .assign
  | .evaluate .. => .evaluate

/-- The first two tokens of a statement tell what kind of statement it is. -/
theorem lead_eq (derivation : Derivation .statement) (rest : List TokenKind) :
    Lead.of (derivation.written ++ rest) = derivation.lead := by
  cases derivation with
  | evaluate expr =>
    obtain ⟨head, more, writtenEq, begins⟩ := expr.starts.exists_cons rfl
    have split : (evaluate expr).written ++ rest = expr.written ++ .symbol .semicolon :: rest := by
      simp only [written, List.append_assoc, List.singleton_append]
    rw [split, lead]
    unfold Lead.of
    split
    case h_7 name others assigned =>
      rcases second_of_word expr assigned (by simp) (by simp) with semicolon | absorbed
      · cases semicolon
      · cases absorbed
    case h_8 => rfl
    all_goals
      rename_i others found
      rw [writtenEq] at found
      rw [(List.cons.inj found).1] at begins
      cases begins
  | _ => rfl

end Derivation

/-- After the tokens up to the end of the input comes that end. -/
theorem exists_takeWhile_append (kinds : List TokenKind) :
    ∃ rest, kinds = kinds.takeWhile (· ≠ .endOfInput) ++ rest ∧
      rest.headD .endOfInput = .endOfInput := by
  induction kinds with
  | nil => exact ⟨[], rfl, rfl⟩
  | cons kind others ih =>
    by_cases last : kind = .endOfInput
    · subst last
      exact ⟨.endOfInput :: others, by simp, rfl⟩
    · obtain ⟨rest, split, ended⟩ := ih
      refine ⟨rest, ?_, ended⟩
      simpa [last] using split

end Waggle
