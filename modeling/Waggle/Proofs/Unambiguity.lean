import Waggle.Proofs.Lookahead

/-!
# Tokens have at most one derivation

If two derivations of one part are written at the beginning of the same tokens, and neither goes on
with the token after it, then they are the same derivation and leave the same tokens. The proof is
by induction on the first of them: its parts are compared in the order in which they are written,
and what stands after each of them shows that it ends there.
-/

namespace Waggle.Derivation

/-- Any derivation of the same part at the beginning of the same tokens is this one. -/
def Determined {part : Part} (derivation : Derivation part) : Prop :=
  ∀ (other : Derivation part) (rest others : List TokenKind),
    derivation.written ++ rest = other.written ++ others →
    part.Stops rest → part.Stops others → derivation = other ∧ rest = others

/-- Operators of a level do not end before one of that level. -/
theorem not_stops_operator {level : Level} {op : BinaryOp} (fits : op.level = level)
    (rest : List TokenKind) : ¬Part.Stops (.tail level) (.symbol op.sign :: rest) := by
  subst fits
  cases op <;> exact Bool.noConfusion

/-- A symbol tells its operator. -/
theorem sign_injective {op other : BinaryOp} (same : op.sign = other.sign) : op = other := by
  cases op <;> cases other <;> cases same <;> rfl

/-- A chain is determined by its first operand and its operators. -/
theorem chain_determined {level : Level} {first : Derivation (.expr level.operand)}
    {tail : Derivation (.tail level)} (head : first.Determined) (more : tail.Determined) :
    (chain first tail).Determined := by
  intro other rest others same stops stops'
  cases other with
  | chain first' tail' =>
    simp only [written, List.append_assoc] at same
    obtain ⟨rfl, left⟩ :=
      head first' _ _ same (tail.stops_operand stops) (tail'.stops_operand stops')
    obtain ⟨rfl, rfl⟩ := more tail' _ _ left stops stops'
    exact ⟨rfl, rfl⟩

/-- Where no operator follows, there is none. -/
theorem noOperator_determined {level : Level} :
    (noOperator : Derivation (.tail level)).Determined := by
  intro other rest others same stops stops'
  cases other with
  | noOperator => exact ⟨rfl, same⟩
  | operator op fits operand tail =>
    rw [show rest = _ from same] at stops
    exact absurd stops (not_stops_operator fits _)

/-- An operator is determined by its symbol, and goes on with what is determined. -/
theorem operator_determined {level : Level} {op : BinaryOp} (fits : op.level = level)
    {operand : Derivation (.expr level.operand)} {tail : Derivation (.tail level)}
    (head : operand.Determined) (more : tail.Determined) :
    (operator op fits operand tail).Determined := by
  intro other rest others same stops stops'
  cases other with
  | noOperator =>
    rw [show others = _ from same.symm] at stops'
    exact absurd stops' (not_stops_operator fits _)
  | operator op' fits' operand' tail' =>
    simp only [written, List.cons_append, List.append_assoc, List.cons.injEq,
      TokenKind.symbol.injEq] at same
    obtain ⟨sign, same⟩ := same
    obtain rfl := sign_injective sign
    obtain ⟨rfl, left⟩ :=
      head operand' _ _ same (tail.stops_operand stops) (tail'.stops_operand stops')
    obtain ⟨rfl, rfl⟩ := more tail' _ _ left stops stops'
    exact ⟨rfl, rfl⟩

/-- No primary expression begins with a sign. -/
theorem not_minus_primary (inner : Derivation (.expr .primary)) {rest others : List TokenKind}
    (same : inner.written ++ rest = .symbol .minus :: others) : False := by
  have begins := inner.starts.append rfl rest
  rw [same] at begins
  cases begins

/-- A sign is told by its symbol. -/
theorem minus_determined {operand : Derivation (.expr .signed)} (inner : operand.Determined) :
    (minus operand).Determined := by
  intro other rest others same stops stops'
  cases other with
  | minus operand' =>
    obtain ⟨rfl, rfl⟩ := inner operand' _ _ (List.cons.inj same).2 stops stops'
    exact ⟨rfl, rfl⟩
  | unsigned inner' => exact (not_minus_primary inner' same.symm).elim

/-- What has no sign is a primary expression. -/
theorem unsigned_determined {inner : Derivation (.expr .primary)} (within : inner.Determined) :
    (unsigned inner).Determined := by
  intro other rest others same stops stops'
  cases other with
  | minus operand' => exact (not_minus_primary inner same).elim
  | unsigned inner' =>
    obtain ⟨rfl, rfl⟩ := within inner' _ _ same stops stops'
    exact ⟨rfl, rfl⟩

/-- A token tells its literal. -/
theorem literal_determined (token : Literal) : (literal token).Determined := by
  intro other rest others same _ _
  cases other with
  | literal token' =>
    obtain ⟨kinds, rfl⟩ := List.cons.inj same
    have tokens : token = token' := by
      cases token <;> cases token' <;> cases kinds <;> rfl
    exact ⟨congrArg literal tokens, rfl⟩
  | _ => cases token <;> cases (List.cons.inj same).1

/-- A name without a parenthesis after it is a reference. -/
theorem reference_determined (name : String) : (reference name).Determined := by
  intro other rest others same stops stops'
  cases other with
  | literal token => cases token <;> cases (List.cons.inj same).1
  | reference name' =>
    cases same
    exact ⟨rfl, rfl⟩
  | callNone name' | call name' first tail =>
    obtain ⟨_, rfl⟩ := List.cons.inj same
    cases stops
  | parens inner => cases (List.cons.inj same).1

/-- No expression begins with a closing parenthesis. -/
theorem not_rightParen_expression (expr : Derivation .expression) {rest others : List TokenKind}
    (same : expr.written ++ rest = .symbol .rightParen :: others) : False := by
  have begins := expr.starts.append rfl rest
  rw [same] at begins
  cases begins

/-- A call whose parenthesis is closed at once has no arguments. -/
theorem callNone_determined (name : String) : (callNone name).Determined := by
  intro other rest others same stops stops'
  cases other with
  | literal token => cases token <;> cases (List.cons.inj same).1
  | reference name' =>
    obtain ⟨_, rfl⟩ := List.cons.inj same
    cases stops'
  | callNone name' =>
    cases same
    exact ⟨rfl, rfl⟩
  | call name' first tail =>
    simp only [written, List.cons_append, List.append_assoc, List.cons.injEq] at same
    exact (not_rightParen_expression first same.2.2.symm).elim
  | parens inner => cases (List.cons.inj same).1

/-- A call is determined by its name and its arguments. -/
theorem call_determined (name : String) {first : Derivation .expression}
    {tail : Derivation .items} (head : first.Determined) (more : tail.Determined) :
    (call name first tail).Determined := by
  intro other rest others same stops stops'
  cases other with
  | literal token => cases token <;> cases (List.cons.inj same).1
  | reference name' =>
    obtain ⟨_, rfl⟩ := List.cons.inj same
    cases stops'
  | callNone name' =>
    simp only [written, List.cons_append, List.append_assoc, List.cons.injEq] at same
    exact (not_rightParen_expression first same.2.2).elim
  | call name' first' tail' =>
    simp only [written, List.cons_append, List.append_assoc, List.cons.injEq,
      TokenKind.identifier.injEq] at same
    obtain ⟨rfl, _, same⟩ := same
    obtain ⟨rfl, left⟩ := head first' _ _ same (tail.stops_item rfl) (tail'.stops_item rfl)
    obtain ⟨rfl, closing⟩ := more tail' _ _ left rfl rfl
    cases closing
    exact ⟨rfl, rfl⟩
  | parens inner => cases (List.cons.inj same).1

/-- An expression between parentheses is told by the first of them. -/
theorem parens_determined {inner : Derivation .expression} (within : inner.Determined) :
    (parens inner).Determined := by
  intro other rest others same _ _
  cases other with
  | literal token => cases token <;> cases (List.cons.inj same).1
  | parens inner' =>
    simp only [written, List.cons_append, List.append_assoc, List.cons.injEq] at same
    obtain ⟨rfl, closing⟩ := within inner' _ _ same.2 rfl rfl
    cases closing
    exact ⟨rfl, rfl⟩
  | _ => cases (List.cons.inj same).1

/-- An expression is determined by its outermost chain. -/
theorem expression_determined {inner : Derivation (.expr (.chain .equation))}
    (within : inner.Determined) : (expression inner).Determined := by
  intro other rest others same stops stops'
  cases other with
  | expression inner' =>
    obtain ⟨rfl, rfl⟩ := within inner' _ _ same stops stops'
    exact ⟨rfl, rfl⟩

/-- Where no comma follows, there are no further items. -/
theorem noItem_determined : noItem.Determined := by
  intro other rest others same stops _
  cases other with
  | noItem => exact ⟨rfl, same⟩
  | item head tail =>
    rw [show rest = _ from same] at stops
    cases stops

/-- An item is told by its comma. -/
theorem item_determined {head : Derivation .expression} {tail : Derivation .items}
    (first : head.Determined) (more : tail.Determined) : (item head tail).Determined := by
  intro other rest others same stops stops'
  cases other with
  | noItem =>
    rw [show others = _ from same.symm] at stops'
    cases stops'
  | item head' tail' =>
    simp only [written, List.cons_append, List.append_assoc, List.cons.injEq] at same
    obtain ⟨rfl, left⟩ :=
      first head' _ _ same.2 (tail.stops_item stops) (tail'.stops_item stops')
    obtain ⟨rfl, rfl⟩ := more tail' _ _ left stops stops'
    exact ⟨rfl, rfl⟩

/-- Coordinates as an expression and further items. -/
def listed : Derivation .coordinates → Derivation .expression × Derivation .items
  | .one x => (x, .noItem)
  | .two x y => (x, .item y .noItem)
  | .three x y z => (x, .item y (.item z .noItem))

/-- Coordinates are written as an expression and further items. -/
theorem written_listed (position : Derivation .coordinates) :
    position.written = position.listed.1.written ++ position.listed.2.written := by
  cases position <;> simp only [listed, written, List.append_nil]

/-- Coordinates are the same if they are listed alike. -/
theorem listed_injective {position other : Derivation .coordinates}
    (same : position.listed = other.listed) : position = other := by
  cases position <;> cases other <;> cases same <;> rfl

/-- Coordinates are determined if they are as an expression and further items. -/
theorem coordinates_determined {position : Derivation .coordinates}
    (head : position.listed.1.Determined) (more : position.listed.2.Determined) :
    position.Determined := by
  intro other rest others same stops stops'
  rw [written_listed, written_listed, List.append_assoc, List.append_assoc] at same
  obtain ⟨first, left⟩ := head _ _ _ same (stops_item _ stops) (stops_item _ stops')
  obtain ⟨tail, rfl⟩ := more _ _ _ left stops stops'
  exact ⟨listed_injective (Prod.ext first tail), rfl⟩

/-- Statements do not end before one of them. -/
theorem not_stops_andThen (head : Derivation .statement) (tail : Derivation .statements)
    {rest : List TokenKind} (stops : Part.statements.Stops ((andThen head tail).written ++ rest)) :
    False := by
  obtain ⟨kind, more, writtenEq, begins⟩ := head.starts.exists_cons rfl
  simp only [written, writtenEq, List.cons_append] at stops
  rw [Part.Stops, Part.absorbs, Bool.not_eq_false', List.headD_cons] at stops
  exact absurd (stops.symm.trans (TokenKind.not_endsBlock begins)) (by simp)

/-- Where the block of statements ends, there are no further ones. -/
theorem noStatement_determined : noStatement.Determined := by
  intro other rest others same stops _
  cases other with
  | noStatement => exact ⟨rfl, same⟩
  | andThen head tail =>
    rw [show rest = _ from same] at stops
    exact (not_stops_andThen head tail stops).elim

/-- Statements are determined if each of them is. -/
theorem andThen_determined {head : Derivation .statement} {tail : Derivation .statements}
    (first : head.Determined) (more : tail.Determined) : (andThen head tail).Determined := by
  intro other rest others same stops stops'
  cases other with
  | noStatement =>
    rw [show others = _ from same.symm] at stops'
    exact (not_stops_andThen head tail stops').elim
  | andThen head' tail' =>
    simp only [written, List.append_assoc] at same
    obtain ⟨rfl, left⟩ :=
      first head' _ _ same (tail.stops_statement stops) (tail'.stops_statement stops')
    obtain ⟨rfl, rfl⟩ := more tail' _ _ left stops stops'
    exact ⟨rfl, rfl⟩

/-- A block is determined by its statements. -/
theorem block_determined {body : Derivation .statements} (within : body.Determined) :
    (block body).Determined := by
  intro other rest others same _ _
  cases other with
  | block body' =>
    simp only [written, List.cons_append, List.append_assoc, List.cons.injEq] at same
    obtain ⟨rfl, closing⟩ := within body' _ _ same.2 rfl rfl
    cases closing
    exact ⟨rfl, rfl⟩

/-- An expression between parentheses and the block after it are determined if both are. -/
theorem headed_determined {keyword : Keyword} {guard guard' : Derivation .expression}
    {body body' : Derivation .block} {rest others : List TokenKind} (head : guard.Determined)
    (more : body.Determined)
    (same : inParens keyword guard.written ++ body.written ++ rest =
      inParens keyword guard'.written ++ body'.written ++ others) :
    guard = guard' ∧ body = body' ∧ rest = others := by
  simp only [inParens, List.cons_append, List.append_assoc, List.cons.injEq] at same
  obtain ⟨rfl, left⟩ := head guard' _ _ same.2.2 rfl rfl
  obtain ⟨rfl, rfl⟩ := more body' _ _ (List.cons.inj left).2 rfl rfl
  exact ⟨rfl, rfl, rfl⟩

/-- Statements at the beginning of the same tokens are of one kind. -/
theorem lead_eq_of_same {stmt other : Derivation .statement} {rest others : List TokenKind}
    (same : stmt.written ++ rest = other.written ++ others) : stmt.lead = other.lead := by
  rw [← stmt.lead_eq rest, same, other.lead_eq others]

/-- A branch without an alternative does not go on with one. -/
theorem branch_determined {condition : Derivation .expression} {consequent : Derivation .block}
    (head : condition.Determined) (more : consequent.Determined) :
    (branch condition consequent).Determined := by
  intro other rest others same stops _
  have leads := lead_eq_of_same same
  cases other with
  | branch condition' consequent' =>
    obtain ⟨rfl, rfl, rfl⟩ := headed_determined head more same
    exact ⟨rfl, rfl⟩
  | branchElse condition' consequent' alternative' =>
    rw [written, written, ← List.append_assoc, List.append_assoc _ _ others] at same
    obtain ⟨rfl, rfl, rfl⟩ := headed_determined head more same
    cases stops
  | _ => cases leads

/-- A branch with an alternative is determined by its parts. -/
theorem branchElse_determined {condition : Derivation .expression}
    {consequent alternative : Derivation .block} (head : condition.Determined)
    (more : consequent.Determined) (last : alternative.Determined) :
    (branchElse condition consequent alternative).Determined := by
  intro other rest others same _ stops'
  have leads := lead_eq_of_same same
  cases other with
  | branch condition' consequent' =>
    rw [written, written, ← List.append_assoc, List.append_assoc _ _ rest] at same
    obtain ⟨rfl, rfl, rfl⟩ := headed_determined head more same
    cases stops'
  | branchElse condition' consequent' alternative' =>
    rw [written, written, ← List.append_assoc, ← List.append_assoc, List.append_assoc _ _ rest,
      List.append_assoc _ _ others] at same
    obtain ⟨rfl, rfl, left⟩ := headed_determined head more same
    obtain ⟨rfl, rfl⟩ := last alternative' _ _ (List.cons.inj left).2 rfl rfl
    exact ⟨rfl, rfl⟩
  | _ => cases leads

/-- A loop with a condition is determined by its parts. -/
theorem whileLoop_determined {condition : Derivation .expression} {body : Derivation .block}
    (head : condition.Determined) (more : body.Determined) :
    (whileLoop condition body).Determined := by
  intro other rest others same _ _
  have leads := lead_eq_of_same same
  cases other with
  | whileLoop condition' body' =>
    obtain ⟨rfl, rfl, rfl⟩ := headed_determined head more same
    exact ⟨rfl, rfl⟩
  | _ => cases leads

/-- A loop with a count is determined by its parts. -/
theorem repeatLoop_determined {count : Derivation .expression} {body : Derivation .block}
    (head : count.Determined) (more : body.Determined) : (repeatLoop count body).Determined := by
  intro other rest others same _ _
  have leads := lead_eq_of_same same
  cases other with
  | repeatLoop count' body' =>
    obtain ⟨rfl, rfl, rfl⟩ := headed_determined head more same
    exact ⟨rfl, rfl⟩
  | _ => cases leads

/-- A step is told by the parenthesis after its direction. -/
theorem moveStep_determined (heading : Direction) : (moveStep heading).Determined := by
  intro other rest others same _ _
  have leads := lead_eq_of_same same
  cases other with
  | moveStep heading' =>
    cases same
    exact ⟨rfl, rfl⟩
  | moveBy target' offset' =>
    simp only [written, inParens, List.cons_append, List.append_assoc, List.nil_append,
      List.cons.injEq] at same
    exact (not_direction_target target' same.2.2.symm).elim
  | _ => cases leads

/-- A move is determined by its target and its coordinates. -/
theorem moveBy_determined {target : Derivation .expression} {offset : Derivation .coordinates}
    (head : target.Determined) (more : offset.Determined) : (moveBy target offset).Determined := by
  intro other rest others same _ _
  have leads := lead_eq_of_same same
  cases other with
  | moveStep heading' =>
    simp only [written, inParens, List.cons_append, List.append_assoc, List.nil_append,
      List.cons.injEq] at same
    exact (not_direction_target target same.2.2).elim
  | moveBy target' offset' =>
    simp only [written, inParens, List.cons_append, List.append_assoc, List.cons.injEq] at same
    obtain ⟨rfl, left⟩ := head target' _ _ same.2.2 rfl rfl
    obtain ⟨rfl, closing⟩ := more offset' _ _ (List.cons.inj left).2 rfl rfl
    cases closing
    exact ⟨rfl, rfl⟩
  | _ => cases leads

/-- A move to a position is determined by its coordinates. -/
theorem moveTo_determined {position : Derivation .coordinates} (within : position.Determined) :
    (moveTo position).Determined := by
  intro other rest others same _ _
  have leads := lead_eq_of_same same
  cases other with
  | moveTo position' =>
    simp only [written, inParens, List.cons_append, List.append_assoc, List.cons.injEq] at same
    obtain ⟨rfl, closing⟩ := within position' _ _ same.2.2 rfl rfl
    cases closing
    exact ⟨rfl, rfl⟩
  | _ => cases leads

/-- An attack on a target alone is closed after it. -/
theorem attack_determined {target : Derivation .expression} (within : target.Determined) :
    (attack target).Determined := by
  intro other rest others same _ _
  have leads := lead_eq_of_same same
  cases other with
  | attack target' =>
    simp only [written, inParens, List.cons_append, List.append_assoc, List.cons.injEq] at same
    obtain ⟨rfl, closing⟩ := within target' _ _ same.2.2 rfl rfl
    cases closing
    exact ⟨rfl, rfl⟩
  | attackBy attacker' target' =>
    simp only [written, inParens, List.cons_append, List.append_assoc, List.cons.injEq] at same
    cases (within attacker' _ _ same.2.2 rfl rfl).2
  | _ => cases leads

/-- An attack by an attacker is determined by both opponents. -/
theorem attackBy_determined {attacker target : Derivation .expression}
    (head : attacker.Determined) (more : target.Determined) :
    (attackBy attacker target).Determined := by
  intro other rest others same _ _
  have leads := lead_eq_of_same same
  cases other with
  | attack target' =>
    simp only [written, inParens, List.cons_append, List.append_assoc, List.cons.injEq] at same
    cases (head target' _ _ same.2.2 rfl rfl).2
  | attackBy attacker' target' =>
    simp only [written, inParens, List.cons_append, List.append_assoc, List.cons.injEq] at same
    obtain ⟨rfl, left⟩ := head attacker' _ _ same.2.2 rfl rfl
    obtain ⟨rfl, closing⟩ := more target' _ _ (List.cons.inj left).2 rfl rfl
    cases closing
    exact ⟨rfl, rfl⟩
  | _ => cases leads

/-- An assignment is determined by its name and its value. -/
theorem assign_determined (name : String) {value : Derivation .expression}
    (within : value.Determined) : (assign name value).Determined := by
  intro other rest others same _ _
  have leads := lead_eq_of_same same
  cases other with
  | assign name' value' =>
    simp only [written, List.cons_append, List.append_assoc, List.cons.injEq,
      TokenKind.identifier.injEq] at same
    obtain ⟨rfl, _, same⟩ := same
    obtain ⟨rfl, closing⟩ := within value' _ _ same rfl rfl
    cases closing
    exact ⟨rfl, rfl⟩
  | _ => cases leads

/-- An expression on its own is told by the semicolon after it. -/
theorem evaluate_determined {expr : Derivation .expression} (within : expr.Determined) :
    (evaluate expr).Determined := by
  intro other rest others same _ _
  have leads := lead_eq_of_same same
  cases other with
  | evaluate expr' =>
    simp only [written, List.append_assoc] at same
    obtain ⟨rfl, closing⟩ := within expr' _ _ same rfl rfl
    cases closing
    exact ⟨rfl, rfl⟩
  | _ => cases leads

/-- Every derivation is determined by the tokens that it is written at the beginning of. -/
theorem determined {part : Part} (derivation : Derivation part) : derivation.Determined := by
  induction derivation with
  | chain _ _ first tail => exact chain_determined first tail
  | noOperator => exact noOperator_determined
  | operator _ fits _ _ operand tail => exact operator_determined fits operand tail
  | minus _ operand => exact minus_determined operand
  | unsigned _ inner => exact unsigned_determined inner
  | literal token => exact literal_determined token
  | reference name => exact reference_determined name
  | callNone name => exact callNone_determined name
  | call name _ _ first tail => exact call_determined name first tail
  | parens _ inner => exact parens_determined inner
  | expression _ inner => exact expression_determined inner
  | noItem => exact noItem_determined
  | item _ _ head tail => exact item_determined head tail
  | one _ x => exact coordinates_determined x noItem_determined
  | two _ _ x y => exact coordinates_determined x (item_determined y noItem_determined)
  | three _ _ _ x y z =>
    exact coordinates_determined x (item_determined y (item_determined z noItem_determined))
  | branch _ _ condition consequent => exact branch_determined condition consequent
  | branchElse _ _ _ condition consequent alternative =>
    exact branchElse_determined condition consequent alternative
  | whileLoop _ _ condition body => exact whileLoop_determined condition body
  | repeatLoop _ _ count body => exact repeatLoop_determined count body
  | moveStep heading => exact moveStep_determined heading
  | moveBy _ _ target offset => exact moveBy_determined target offset
  | moveTo _ position => exact moveTo_determined position
  | attack _ target => exact attack_determined target
  | attackBy _ _ attacker target => exact attackBy_determined attacker target
  | assign name _ value => exact assign_determined name value
  | evaluate _ expr => exact evaluate_determined expr
  | noStatement => exact noStatement_determined
  | andThen _ _ head tail => exact andThen_determined head tail
  | block _ body => exact block_determined body

/-- A script that is written as certain tokens has one derivation. -/
theorem eq_of_written_eq {stmts others : Derivation .statements}
    (same : stmts.written = others.written) : stmts = others :=
  (stmts.determined others [] [] (by rw [same]) rfl rfl).1

end Waggle.Derivation
