import Waggle.Proofs.Reading

/-!
# What is read does not depend on what comes after it

A parser that succeeds reads the same where the tokens after those that it has consumed are
replaced by others. It may have looked at some tokens beyond its end, and these have to stay:
`Local` counts them with its `margin`. An expression looks at one token to see that it has ended, a
block at none, and a statement only at whether there is an `else`.

What a parser consumes at `least` is counted too, because the parser before it may look at that.
With both numbers there is one rule for two parsers after each other (`Local.bindAhead`) and one
lemma for each parser, and every lemma follows from that rule.
-/

namespace Waggle

/-- Two ways for tokens to go on, neither of them with the alternative of a branch. -/
structure Swap where
  /-- What comes after some tokens. -/
  rest : List Token
  /-- What comes after them instead. -/
  other : List Token
  /-- There is something after them. -/
  some : rest ≠ []
  /-- It is no alternative. -/
  plain : (rest.map Token.kind).headD .endOfInput ≠ .keyword .elseWord
  /-- What comes instead is none either. -/
  otherPlain : (other.map Token.kind).headD .endOfInput ≠ .keyword .elseWord

/-- The second cursor has the same tokens ahead as the first one and then goes on otherwise. -/
structure Swap.Relates (S : Swap) (ahead : List Token) (cursor cursor' : Cursor) : Prop where
  /-- The first cursor goes on in the one way. -/
  rest_eq : cursor.rest = ahead ++ S.rest
  /-- The second cursor goes on in the other way. -/
  other_eq : cursor'.rest = ahead ++ S.other
  /-- The last token was at the same place. -/
  previous_eq : cursor'.previous = cursor.previous
  /-- The same number of levels is open. -/
  depth_eq : cursor'.depth = cursor.depth

namespace Swap.Relates

variable {S : Swap} {ahead : List Token} {cursor cursor' : Cursor}

/-- The next tokens are the same if one is ahead. -/
theorem next (relates : S.Relates ahead cursor cursor') (one : 1 ≤ ahead.length) :
    cursor'.kind = cursor.kind ∧ cursor'.span = cursor.span := by
  obtain ⟨token, more, rfl⟩ := List.exists_cons_of_length_pos one
  have first := relates.rest_eq
  have second := relates.other_eq
  rw [List.cons_append] at first second
  simp only [Cursor.kind, Cursor.span, first, second, and_self]

/-- The tokens after the next are the same if two are ahead. -/
theorem second (relates : S.Relates ahead cursor cursor') (two : 2 ≤ ahead.length) :
    cursor'.secondKind = cursor.secondKind := by
  obtain ⟨token, more, rfl⟩ := List.exists_cons_of_length_pos (Nat.zero_lt_of_lt two)
  obtain ⟨token', more', rfl⟩ := List.exists_cons_of_length_pos (Nat.lt_of_succ_lt_succ two)
  have first := relates.rest_eq
  have second := relates.other_eq
  rw [List.cons_append, List.cons_append] at first second
  simp only [Cursor.secondKind, first, second]

/-- The tokens ahead are told by those left. -/
theorem ahead_eq (relates : S.Relates ahead cursor cursor') {left : List Token}
    (rest : cursor.rest = left ++ S.rest) : ahead = left :=
  List.append_cancel_right (relates.rest_eq.symm.trans rest)

/-- Where nothing is ahead, neither cursor is before an alternative. -/
theorem plain (relates : S.Relates [] cursor cursor') :
    cursor.kind ≠ .keyword .elseWord ∧ cursor'.kind ≠ .keyword .elseWord := by
  rw [cursor.kind_eq, cursor'.kind_eq, Cursor.kinds, Cursor.kinds, relates.rest_eq,
    relates.other_eq]
  exact ⟨S.plain, S.otherPlain⟩

end Swap.Relates

namespace Parser

variable {α β : Type} {S : Swap} {margin least : Nat}

/-- A parser consumes at least some tokens, and reads the same where the tokens after it are
replaced beyond a margin. -/
structure Local (S : Swap) (margin least : Nat) (parser : Parser α) : Prop where
  /-- Some tokens are consumed if any are left. -/
  consumes : ∀ cursor, parser.Ensures cursor fun _ after => after.rest ≠ [] →
    ∃ taken, least ≤ taken.length ∧ cursor.rest = taken ++ after.rest
  /-- The same is read before other tokens. -/
  follows : ∀ ahead cursor cursor', S.Relates ahead cursor cursor' →
    parser.Ensures cursor fun result after =>
      ∀ left, margin ≤ left.length → after.rest = left ++ S.rest →
        ∃ after', parser cursor' = .ok (result, after') ∧ S.Relates left after after'

namespace Local

/-- A parser that consumes a number of tokens consumes no fewer. -/
theorem atLeast {parser : Parser α} (total : Nat) (fewer : least ≤ total)
    (reads : Local S margin total parser) : Local S margin least parser where
  consumes cursor result after ran some := by
    obtain ⟨taken, enough, split⟩ := reads.consumes cursor result after ran some
    exact ⟨taken, Nat.le_trans fewer enough, split⟩
  follows := reads.follows

/-- Two parsers are read one after the other. The second one consumes what the first one leaves of
the number of tokens, and the first one may look at that. -/
theorem bindAhead {first : Parser α} {next : α → Parser β} {margin' least' : Nat}
    (head : Local S margin' least' first) (sees : margin' ≤ margin + (least - least'))
    (tail : ∀ result, Local S margin (least - least') (next result)) :
    Local S margin least (first >>= next) where
  consumes cursor := by
    refine Ensures.bind (head.consumes cursor) ?_
    intro value between early result after ran some
    obtain ⟨late, enough, split⟩ := (tail value).consumes between result after ran some
    obtain ⟨taken, enough', split'⟩ := early (by simp [split, some])
    refine ⟨taken ++ late, ?_, ?_⟩
    · rw [List.length_append]
      omega
    · rw [split', split, List.append_assoc]
  follows ahead cursor cursor' relates := by
    refine Ensures.bind (head.follows ahead cursor cursor' relates) ?_
    intro value between onward result after ran left inside rest
    have some : after.rest ≠ [] := by simp [rest, S.some]
    obtain ⟨taken, enough, split⟩ := (tail value).consumes between result after ran some
    rw [rest, ← List.append_assoc] at split
    obtain ⟨between', ran', related⟩ := onward (taken ++ left)
      (by rw [List.length_append]; omega) split
    obtain ⟨after', ran'', related'⟩ :=
      (tail value).follows _ between between' related result after ran left inside rest
    refine ⟨after', ?_, related'⟩
    rw [bind_apply, ran']
    exact ran''

/-- A parser that looks no further than what is read as a whole may come first. -/
theorem bind {first : Parser α} {next : α → Parser β} {least' : Nat}
    (head : Local S margin least' first)
    (tail : ∀ result, Local S margin (least - least') (next result)) :
    Local S margin least (first >>= next) :=
  head.bindAhead (Nat.le_add_right _ _) tail

/-- A result that is given consumes nothing and looks at nothing. -/
theorem pure (value : α) : Local S margin 0 (Pure.pure value) where
  consumes cursor := .pure fun _ => ⟨[], Nat.le_refl 0, rfl⟩
  follows ahead cursor cursor' relates := by
    refine .pure fun left _ rest => ⟨cursor', rfl, ?_⟩
    exact relates.ahead_eq rest ▸ relates

/-- A parser that stops with a fault reads nothing. -/
theorem failAt (fault : SyntaxFault) (span : Span) :
    Local S margin least (failAt fault span : Parser α) where
  consumes _ := .failAt
  follows _ _ _ _ := .failAt

/-- A parser that stops with a fault at the next token reads nothing. -/
theorem fail (fault : SyntaxFault) : Local S margin least (fail fault : Parser α) where
  consumes _ := .fail
  follows _ _ _ _ := .fail

/-- What is seen at a cursor is the same if it is within the margin. -/
theorem look {see : Cursor → α} (same : ∀ ahead cursor cursor', S.Relates ahead cursor cursor' →
    margin ≤ ahead.length → see cursor' = see cursor) :
    Local S margin 0 (fun cursor => .ok (see cursor, cursor)) where
  consumes cursor := by
    rintro result after ⟨⟩ -
    exact ⟨[], Nat.le_refl 0, rfl⟩
  follows ahead cursor cursor' relates := by
    rintro result after ⟨⟩ left inside rest
    obtain rfl := relates.ahead_eq rest
    exact ⟨cursor', by rw [same ahead cursor cursor' relates inside], relates⟩

/-- The next token is seen. -/
theorem peek : Local S 1 0 peek := look fun _ _ _ relates one => (relates.next one).1

/-- The token after the next is seen. -/
theorem peekSecond : Local S 2 0 peekSecond := look fun _ _ _ relates two => relates.second two

/-- The place of the next token is seen. -/
theorem nextSpan : Local S 1 0 nextSpan := look fun _ _ _ relates one => (relates.next one).2

/-- The place of the last token is known. -/
theorem previousSpan : Local S margin 0 previousSpan :=
  look fun _ _ _ relates _ => relates.previous_eq

/-- A token is consumed. -/
theorem skip : Local S margin 1 skip where
  consumes cursor := by
    rintro result after ⟨⟩ some
    rcases cursor with ⟨previous, _ | ⟨token, rest⟩, depth⟩
    · exact absurd rfl some
    · exact ⟨[token], Nat.le_refl 1, rfl⟩
  follows ahead cursor cursor' relates := by
    rintro result after ⟨⟩ left - rest
    rcases cursor with ⟨previous, _ | ⟨token, more⟩, depth⟩
    · exact absurd (List.append_eq_nil_iff.mp rest.symm).2 S.some
    · have split : more = left ++ S.rest := rest
      have whole : token :: more = ahead ++ S.rest := relates.rest_eq
      have ahead_eq : ahead = token :: left := by
        rw [split, ← List.cons_append] at whole
        exact (List.append_cancel_right whole).symm
      subst ahead_eq
      rcases cursor' with ⟨previous', rest', depth'⟩
      obtain rfl : rest' = token :: (left ++ S.other) := relates.other_eq
      exact ⟨_, rfl, rest, rfl, rfl, relates.depth_eq⟩

/-- A token that may be accepted is seen. -/
theorem accept (kind : TokenKind) : Local S 1 0 (accept kind) := by
  refine peek.bind fun found => ?_
  split
  · exact skip.bind fun _ => pure true
  · exact pure false

/-- An alternative is accepted where it is, and there is none at the end. -/
theorem acceptElse : Local S margin 0 (Parser.accept (.keyword .elseWord)) where
  consumes cursor result after ran := (accept (S := S) _).consumes cursor result after ran
  follows ahead cursor cursor' relates result after ran left _ rest := by
    rw [accept_apply] at ran ⊢
    rcases ahead with _ | ⟨token, more⟩
    · rw [if_neg relates.plain.1] at ran
      rw [if_neg relates.plain.2]
      cases ran
      obtain rfl := relates.ahead_eq rest
      exact ⟨cursor', rfl, relates⟩
    · rw [(relates.next (Nat.le_add_left 1 _)).1]
      split at ran
      · rename_i found
        cases ran
        obtain ⟨after', ran', related⟩ :=
          skip.follows _ _ _ relates () _ rfl left (Nat.zero_le _) rest
        cases ran'
        exact ⟨_, if_pos found, related⟩
      · rename_i other
        cases ran
        obtain rfl := relates.ahead_eq rest
        exact ⟨cursor', if_neg other, relates⟩

/-- A symbol that is expected is consumed. -/
theorem expect (symbol : Symbol) (place : Place) : Local S margin 1 (expect symbol place) := by
  refine peek.bindAhead (by omega) fun found => ?_
  split
  · exact skip
  · exact fail _

/-- A level is opened without a look ahead. -/
theorem enter : Local S margin 0 enter where
  consumes cursor result after ran _ := by
    rw [enter_apply] at ran
    split at ran
    · cases ran
    · cases ran
      exact ⟨[], Nat.le_refl 0, rfl⟩
  follows ahead cursor cursor' relates result after ran left _ rest := by
    rw [enter_apply] at ran ⊢
    rw [relates.depth_eq]
    split at ran
    · cases ran
    · rename_i shallow
      cases ran
      obtain rfl := relates.ahead_eq rest
      rw [if_neg shallow]
      exact ⟨_, rfl, relates.rest_eq, relates.other_eq, relates.previous_eq, rfl⟩

/-- A level is closed without a look ahead. -/
theorem leave : Local S margin 0 leave where
  consumes cursor := by
    rintro result after ⟨⟩ -
    exact ⟨[], Nat.le_refl 0, rfl⟩
  follows ahead cursor cursor' relates := by
    rintro result after ⟨⟩ left - rest
    obtain rfl := relates.ahead_eq rest
    exact ⟨_, rfl, relates.rest_eq, relates.other_eq, relates.previous_eq,
      congrArg (· - 1) relates.depth_eq⟩

/-- What is read within a level of its own is read as without it. -/
theorem nested {inner : Parser α} (reads : Local S margin least inner) :
    Local S margin least (nested inner) := by
  refine enter.bind fun _ => Local.bind reads fun result => ?_
  rw [Nat.sub_zero, Nat.sub_self]
  exact leave.bind fun _ => pure result

/-- A parser that succeeds before some token has not consumed it. -/
theorem length_le {parser : Parser α} (reads : Local S margin least parser) (cursor : Cursor) :
    parser.Ensures cursor fun _ after =>
      0 < after.rest.length → least + after.rest.length ≤ cursor.rest.length := by
  intro result after ran some
  obtain ⟨taken, enough, split⟩ :=
    reads.consumes cursor result after ran (List.length_pos_iff.mp some)
  rw [split, List.length_append]
  omega

end Local

/-- With a number of rounds that the tokens ahead allow for, a loop reads the same as with any other
such number. -/
def Spare (loop : Nat → Parser α) (count : Nat) : Prop :=
  ∀ count' cursor, cursor.rest.length ≤ count → cursor.rest.length ≤ count' →
    (loop count).Ensures cursor fun result after =>
      after.rest ≠ [] → loop count' cursor = .ok (result, after)

/-- Where tokens are left, a loop has begun at least one round. -/
theorem Spare.succ {loop : Nat → Parser α} (reads : ∀ count, Local S 1 0 (loop count))
    {count : Nat} (round : ∀ count' cursor, cursor.rest.length ≤ count + 1 →
      cursor.rest.length ≤ count' + 1 → (loop (count + 1)).Ensures cursor fun result after =>
        after.rest ≠ [] → loop (count' + 1) cursor = .ok (result, after)) :
    Spare loop (count + 1) := by
  intro count' cursor few few' result after ran some
  have positive := List.length_pos_iff.mpr some
  have shorter := (reads _).length_le cursor result after ran
  obtain ⟨count', rfl⟩ : ∃ count'', count' = count'' + 1 := ⟨count' - 1, by omega⟩
  exact round count' cursor few few' result after ran some

/-- Without any round a loop leaves no tokens. -/
theorem Spare.zero {loop : Nat → Parser α} (reads : ∀ count, Local S 1 0 (loop count)) :
    Spare loop 0 := by
  intro count' cursor few _ result after ran some
  have positive := List.length_pos_iff.mpr some
  have shorter := (reads 0).length_le cursor result after ran
  omega

/-- A loop that is bounded by the number of tokens left reads as it does with any bound. -/
theorem Local.remaining {loop : Nat → Parser α} (reads : ∀ count, Local S 1 0 (loop count))
    (spare : ∀ count, Spare loop count) : Local S 1 0 (Parser.remaining >>= loop) where
  consumes cursor := (reads cursor.rest.length).consumes cursor
  follows ahead cursor cursor' relates result after ran left inside rest := by
    -- Both runs are taken with a bound that is large enough for either.
    have wide := Nat.le_max_left cursor.rest.length cursor'.rest.length
    have wide' := Nat.le_max_right cursor.rest.length cursor'.rest.length
    have some : after.rest ≠ [] := by simp [rest, S.some]
    have ran' := spare _ _ cursor (Nat.le_refl _) wide result after ran some
    obtain ⟨after', follows, related⟩ :=
      (reads _).follows ahead cursor cursor' relates result after ran' left inside rest
    have some' : after'.rest ≠ [] := by
      rw [related.other_eq]
      intro none
      rw [(List.append_eq_nil_iff.mp none).1] at inside
      cases inside
    exact ⟨after', spare _ _ cursor' wide' (Nat.le_refl _) result after' follows some', related⟩

section Expressions

/-- A chain ends where it sees no operator. -/
theorem chain_local (operator? : TokenKind → Option BinaryOp) {operand : Parser Expr}
    (reads : Local S 1 1 operand) (levels : Nat) (left : Expr) :
    Local S 1 0 (chain operator? operand levels left) := by
  induction levels generalizing left with
  | zero =>
    refine Local.peek.bind fun kind => ?_
    split
    · exact .pure left
    · exact Local.skip.bind fun _ => .fail _
  | succ levels ih =>
    refine Local.peek.bind fun kind => ?_
    split
    · exact .pure left
    · rename_i op found
      exact Local.skip.bind fun _ => Local.nested (reads.bind fun right => ih (left.join op right))

/-- A chained parser looks at the token after it. -/
theorem chained_local (operator? : TokenKind → Option BinaryOp) {operand : Parser Expr}
    (reads : Local S 1 1 operand) : Local S 1 1 (chained operator? operand) :=
  reads.bind fun left => chain_local operator? reads maxNesting left

/-- A sign is consumed before its operand. -/
theorem signed_local {primary : Parser Expr} (reads : Local S 1 1 primary) (levels : Nat) :
    Local S 1 1 (signed primary levels) := by
  induction levels with
  | zero =>
    refine Local.peek.bind fun kind => ?_
    split
    · exact Local.skip.bind fun _ => .fail _
    · exact reads
  | succ levels ih =>
    refine Local.peek.bind fun kind => ?_
    split
    · refine Local.nextSpan.bind fun start => Local.skip.bind fun _ => ?_
      exact ih.nested.bind fun operand => .pure _
    · exact reads

/-- Items end where they see no comma. -/
theorem commaSeparated_local {item : Parser Expr} (reads : Local S 1 1 item) (commas : Nat) :
    Local S 1 0 (commaSeparated item commas) := by
  induction commas with
  | zero => exact reads.bind fun head => .pure _
  | succ commas ih =>
    refine reads.bind fun head => (Local.accept _).bind fun accepted => ?_
    split
    · exact ih.bind fun rest => .pure _
    · exact .pure _

/-- Items are bounded by the tokens left, since each one is consumed. -/
theorem commaSeparated_spare {item : Parser Expr} (reads : Local S 1 1 item) (count : Nat) :
    Spare (commaSeparated item) count := by
  induction count with
  | zero => exact .zero (commaSeparated_local reads)
  | succ count ih =>
    refine .succ (commaSeparated_local reads) fun count' cursor few few' => ?_
    refine Ensures.bind (fun _ _ ran => ran) fun head between ran => ?_
    refine Ensures.bind (fun _ _ ran => ran) fun accepted after found => ?_
    have again : commaSeparated item (count' + 1) cursor =
        (if accepted then (return head :: (← commaSeparated item count')) else return [head])
          after := by
      rw [commaSeparated, bind_apply, ran]
      dsimp only
      rw [bind_apply, found]
    rw [again]
    cases accepted with
    | false => exact .pure fun _ => rfl
    | true =>
      refine Ensures.bind (fun _ _ ran => ran) fun rest last ended => .pure fun some => ?_
      have positive := List.length_pos_iff.mpr some
      have consumed := reads.length_le cursor head between ran
      have accepted := (Local.accept (S := S) _).length_le between true after found
      have shorter := (commaSeparated_local reads count).length_le after rest last ended
      have same := ih count' after (by omega) (by omega) rest last ended some
      rw [if_pos rfl, bind_apply, same]
      rfl

/-- Arguments end before their parenthesis. -/
theorem callArguments_local {expression : Parser Expr} (reads : Local S 1 1 expression) :
    Local S 1 0 (callArguments expression) := by
  refine Local.peek.bind fun kind => ?_
  split
  · exact .pure _
  · exact .remaining (commaSeparated_local reads) (commaSeparated_spare reads)

/-- A primary expression is consumed. -/
theorem primary_local {expression : Parser Expr} (reads : Local S 1 1 expression) :
    Local S 1 1 (primary expression) := by
  refine Local.nextSpan.bind fun start => Local.peek.bind fun kind => ?_
  split
  · exact Local.skip.bind fun _ => .pure _
  · split
    · refine Local.skip.bind fun _ => reads.bind fun inner => ?_
      exact (Local.expect _ _).bind fun _ => Local.previousSpan.bind fun last => .pure _
    · refine Local.peekSecond.bindAhead (by decide) fun second => ?_
      split
      · refine Local.skip.bind fun _ => Local.skip.bind fun _ => ?_
        refine (callArguments_local reads).bind fun arguments => ?_
        exact (Local.expect _ _).bind fun _ => Local.previousSpan.bind fun last => .pure _
      · exact Local.skip.bind fun _ => .pure _
    · exact .fail _

/-- An expression within a number of levels looks at the token after it. -/
theorem expressionWithin_local (levels : Nat) : Local S 1 1 (expressionWithin levels) := by
  induction levels with
  | zero => exact .fail _
  | succ levels ih =>
    have operands : Local S 1 1 (operand (expressionWithin levels)) :=
      signed_local (primary_local ih) maxNesting
    exact (chained_local _ (chained_local _ (chained_local _ operands))).nested

/-- An expression looks at the token after it. -/
theorem expression_local : Local S 1 1 expression := expressionWithin_local maxNesting

end Expressions

section Statements

/-- Further coordinates end where there is no comma. -/
theorem moreCoordinates_local (keyword : Keyword) (room : Nat) :
    Local S 1 0 (moreCoordinates keyword room) := by
  induction room with
  | zero =>
    refine Local.peek.bind fun kind => ?_
    split
    · exact .fail _
    · exact .pure _
  | succ room ih =>
    refine (Local.accept _).bind fun accepted => ?_
    split
    · exact expression_local.bind fun head => ih.bind fun rest => .pure _
    · exact .pure _

/-- Coordinates look at the token after them. -/
theorem coordinates_local (keyword : Keyword) : Local S 1 1 (coordinates keyword) :=
  expression_local.bind fun _ => (moreCoordinates_local keyword 2).bind fun _ => .pure _

/-- An expression between parentheses ends with the second one. -/
theorem parenthesised_local (keyword : Keyword) (place : Place) :
    Local S margin 3 (parenthesised keyword place) :=
  (Local.expect _ _).bind fun _ => expression_local.bindAhead (by omega) fun _ =>
    (Local.expect _ _).bind fun _ => .pure _

/-- The end of an action ends with its semicolon. -/
theorem finishAction_local (keyword : Keyword) : Local S margin 2 (finishAction keyword) :=
  (Local.expect _ _).bind fun _ => Local.expect _ _

/-- A motion looks at the token after it. -/
theorem motion_local : Local S 1 1 motion := by
  refine Local.peek.bind fun kind => Local.peekSecond.bindAhead (by decide) fun second => ?_
  split
  · exact Local.skip.bind fun _ => .pure _
  · refine expression_local.bind fun target => (Local.accept _).bind fun accepted => ?_
    split
    · exact (coordinates_local .move).bind fun offset => .pure _
    · exact Local.peek.bind fun kind => .failAt _ _

/-- Opponents look at the token after them. -/
theorem opponents_local : Local S 1 1 opponents := by
  have closed (pair : Option Expr × Expr) :
      Local S 1 0 (do
        if (← peek) = .symbol .comma then fail .tooManyArguments else return pair) := by
    refine Local.peek.bind fun kind => ?_
    split
    · exact .fail _
    · exact .pure _
  refine expression_local.bind fun first => (Local.accept _).bind fun accepted => ?_
  split
  · exact expression_local.bind fun second => closed (some first, second)
  · exact closed (none, first)

/-- Statements are none before what closes them, and else one statement and those after it. -/
theorem statements_apply (closing : TokenKind → Bool) (statement : Parser Stmt) (count : Nat)
    (cursor : Cursor) :
    statements closing statement (count + 1) cursor =
      (if closing cursor.kind then return []
        else do
          let head ← statement
          return head :: (← statements closing statement count)) cursor := by
  rw [statements, bind_apply, peek_apply]

/-- Statements end where they see what closes them. -/
theorem statements_local (closing : TokenKind → Bool) {statement : Parser Stmt}
    (reads : Local S 1 2 statement) (count : Nat) :
    Local S 1 0 (statements closing statement count) := by
  induction count with
  | zero => exact .pure _
  | succ count ih =>
    refine Local.peek.bind fun kind => ?_
    split
    · exact .pure _
    · exact reads.bind fun head => ih.bind fun rest => .pure _

/-- Statements are bounded by the tokens left, since each one is consumed. -/
theorem statements_spare (closing : TokenKind → Bool) {statement : Parser Stmt}
    (reads : Local S 1 2 statement) (count : Nat) :
    Spare (statements closing statement) count := by
  induction count with
  | zero => exact .zero (statements_local closing reads)
  | succ count ih =>
    refine .succ (statements_local closing reads) fun count' cursor few few' => ?_
    rw [statements_apply]
    refine .step (peek_apply cursor) ?_
    split
    · exact .pure fun _ => rfl
    · refine Ensures.bind (fun _ _ ran => ran) fun head between ran => ?_
      refine Ensures.bind (fun _ _ ran => ran) fun rest last ended => .pure fun some => ?_
      have positive := List.length_pos_iff.mpr some
      have consumed := reads.length_le cursor head between ran
      have shorter := (statements_local closing reads count).length_le between rest last ended
      have same := ih count' between (by omega) (by omega) rest last ended some
      rw [bind_apply, ran]
      dsimp only
      rw [bind_apply, same]
      rfl

/-- A statement looks no further than to where there might be an alternative. -/
theorem statement_local {block : Place → Parser (Block Stmt)}
    (reads : ∀ place, Local S margin 2 (block place)) : Local S margin 2 (statement block) := by
  have finish (start : Span) (build : Span → Stmt) :
      Local S margin 0 (do return build (start.merge (← previousSpan))) :=
    Local.previousSpan.bind fun last => .pure _
  refine Local.nextSpan.bindAhead (by omega) fun start => ?_
  refine Local.peek.bindAhead (by omega) fun kind => ?_
  refine Local.peekSecond.bindAhead (by omega) fun second => ?_
  split
  · refine Local.skip.bind fun _ => (parenthesised_local _ _).bind fun condition => ?_
    refine (reads _).bind fun consequent => Local.acceptElse.bind fun accepted => ?_
    split
    · simp only [map_eq_pure_bind, bind_assoc, pure_bind]
      exact (reads _).bind fun block => finish start _
    · exact finish start _
  · refine Local.skip.bind fun _ => (parenthesised_local _ _).bind fun condition => ?_
    exact (reads _).bind fun body => finish start _
  · refine Local.skip.bind fun _ => (parenthesised_local _ _).bind fun count => ?_
    exact (reads _).bind fun body => finish start _
  · refine .atLeast 5 (by decide) (Local.skip.bind fun _ => (Local.expect _ _).bind fun _ => ?_)
    refine motion_local.bindAhead (by omega) fun found => ?_
    exact (finishAction_local _).bind fun _ => finish start _
  · refine .atLeast 5 (by decide) (Local.skip.bind fun _ => (Local.expect _ _).bind fun _ => ?_)
    refine (coordinates_local _).bindAhead (by omega) fun place => ?_
    exact (finishAction_local _).bind fun _ => finish start _
  · refine .atLeast 5 (by decide) (Local.skip.bind fun _ => (Local.expect _ _).bind fun _ => ?_)
    refine opponents_local.bindAhead (by omega) fun found => ?_
    exact (finishAction_local _).bind fun _ => finish start _
  · refine .atLeast 4 (by decide) (Local.skip.bind fun _ => Local.skip.bind fun _ => ?_)
    refine expression_local.bindAhead (by omega) fun value => ?_
    exact (Local.expect _ _).bind fun _ => finish start _
  · refine expression_local.bindAhead (by omega) fun expr => ?_
    exact (Local.expect _ _).bind fun _ => finish expr.span _

/-- A block ends with its brace. -/
theorem blockWithin_local (levels : Nat) (place : Place) :
    Local S margin 2 (blockWithin levels place) := by
  induction levels generalizing margin place with
  | zero => exact (Local.expect _ _).bind fun _ => .fail _
  | succ levels ih =>
    have inside := Local.remaining (statements_local endsBlock (statement_local ih))
      (statements_spare endsBlock (statement_local ih))
    refine Local.nextSpan.bindAhead (by omega) fun start => (Local.expect _ _).bind fun _ => ?_
    refine inside.nested.bindAhead (by omega) fun stmts => (Local.expect _ _).bind fun _ => ?_
    exact Local.previousSpan.bind fun last => .pure _

end Statements

/-! ### What comes before

A parser that has consumed a token knows the place of that one, whatever came before it.
-/

/-- What is read before some token does not depend on the token before that. -/
def Fresh (parser : Parser α) : Prop :=
  ∀ cursor span, cursor.rest ≠ [] → parser { cursor with previous := span } = parser cursor

namespace Fresh

/-- Where there is a next token, its place is known from it. -/
theorem span_eq {cursor : Cursor} (some : cursor.rest ≠ []) (span : Span) :
    ({ cursor with previous := span } : Cursor).span = cursor.span := by
  rcases cursor with ⟨previous, _ | ⟨token, rest⟩, depth⟩
  · exact absurd rfl some
  · rfl

/-- A parser may go on as it likes. -/
theorem bind {first : Parser α} (fresh : Fresh first) (next : α → Parser β) :
    Fresh (first >>= next) := by
  intro cursor span some
  rw [bind_apply, bind_apply, fresh cursor span some]

/-- A parser may begin with a look ahead. -/
theorem look {see : Cursor → α} {next : α → Parser β}
    (same : ∀ cursor span, cursor.rest ≠ [] → see { cursor with previous := span } = see cursor)
    (fresh : ∀ seen, Fresh (next seen)) :
    Fresh ((fun cursor => .ok (see cursor, cursor) : Parser α) >>= next) := by
  intro cursor span some
  rw [bind_apply, bind_apply]
  dsimp only
  rw [same cursor span some, fresh _ cursor span some]

/-- The next kind is the same. -/
theorem peek {next : TokenKind → Parser β} (fresh : ∀ kind, Fresh (next kind)) :
    Fresh (peek >>= next) :=
  look (fun _ _ _ => rfl) fresh

/-- The kind after the next is the same. -/
theorem peekSecond {next : TokenKind → Parser β} (fresh : ∀ kind, Fresh (next kind)) :
    Fresh (peekSecond >>= next) :=
  look (fun _ _ _ => rfl) fresh

/-- The place of the next token is the same, since there is one. -/
theorem nextSpan {next : Span → Parser β} (fresh : ∀ span, Fresh (next span)) :
    Fresh (nextSpan >>= next) :=
  look (fun _ span some => span_eq some span) fresh

/-- A token that is stepped over is the one before. -/
theorem skip : Fresh skip := by
  intro cursor span some
  rcases cursor with ⟨previous, _ | ⟨token, rest⟩, depth⟩
  · exact absurd rfl some
  · rfl

/-- A fault at the next token is at the same place. -/
theorem fail (fault : SyntaxFault) : Fresh (fail fault : Parser α) :=
  nextSpan fun _ _ _ _ => rfl

/-- What is read within a level of its own is read as without it. -/
theorem nested {inner : Parser α} (fresh : Fresh inner) : Fresh (nested inner) := by
  intro cursor span some
  unfold Parser.nested
  rw [bind_apply, bind_apply, enter_apply, enter_apply, span_eq some span]
  by_cases deep : maxNesting ≤ cursor.depth
  · rw [if_pos deep, if_pos deep]
  · rw [if_neg deep, if_neg deep]
    exact (fresh.bind _) { cursor with depth := cursor.depth + 1 } span some

end Fresh

/-- An expression does not ask for the token before it. -/
theorem expressionWithin_fresh (levels : Nat) : Fresh (expressionWithin levels) := by
  cases levels with
  | zero => exact .fail _
  | succ levels =>
    have primaries : Fresh (primary (expressionWithin levels)) := by
      refine .nextSpan fun start => .peek fun kind => ?_
      split
      · exact Fresh.skip.bind _
      · split
        · exact Fresh.skip.bind _
        · refine .peekSecond fun second => ?_
          split
          · exact Fresh.skip.bind _
          · exact Fresh.skip.bind _
        · exact .fail _
    have operands : Fresh (operand (expressionWithin levels)) := by
      refine .peek fun kind => ?_
      split
      · exact .nextSpan fun start => Fresh.skip.bind _
      · exact primaries
    exact (((operands.bind _).bind _).bind _).nested

/-- A statement does not ask for the token before it. -/
theorem statement_fresh (block : Place → Parser (Block Stmt)) : Fresh (statement block) := by
  refine .nextSpan fun start => .peek fun kind => .peekSecond fun second => ?_
  split
  case h_8 => exact (expressionWithin_fresh maxNesting).bind _
  all_goals exact Fresh.skip.bind _

end Parser

end Waggle
