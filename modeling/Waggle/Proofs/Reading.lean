import Waggle.Syntax.Statement

/-!
# Reasoning about parsers

A parser is described at a cursor in one of two ways. `Ensures` says what holds whenever it
succeeds, and `Gives` says that it does succeed. Both speak of the kinds of the tokens after a
cursor and of its depth and of nothing else, since no parser looks at a text, and the spans have
no part in what is accepted.
-/

namespace Waggle

/-- The kinds of the tokens after a cursor. -/
def Cursor.kinds (cursor : Cursor) : List TokenKind := cursor.rest.map Token.kind

/-- Between two cursors of the same depth stand tokens of some kinds. -/
structure Cursor.Consumes (before after : Cursor) (kinds : List TokenKind) : Prop where
  /-- The kinds are those that are no longer ahead. -/
  kinds_eq : before.kinds = kinds ++ after.kinds
  /-- No level is left open or closed too often. -/
  depth_eq : after.depth = before.depth

namespace Cursor

/-- The next kind is the first of those ahead, or the end of the input. -/
theorem kind_eq (cursor : Cursor) : cursor.kind = cursor.kinds.headD .endOfInput := by
  rcases cursor with ⟨previous, _ | ⟨token, rest⟩, depth⟩ <;> rfl

/-- The kind after the next is the second of those ahead, or the end of the input. -/
theorem secondKind_eq (cursor : Cursor) :
    cursor.secondKind = cursor.kinds.tail.headD .endOfInput := by
  rcases cursor with ⟨previous, _ | ⟨token, _ | ⟨second, rest⟩⟩, depth⟩ <;> rfl

/-- The next kind is the first of those ahead. -/
theorem kind_of_kinds {cursor : Cursor} {kind : TokenKind} {rest : List TokenKind}
    (kinds : cursor.kinds = kind :: rest) : cursor.kind = kind := by
  rw [kind_eq, kinds, List.headD_cons]

/-- The kind after the next is the second of those ahead. -/
theorem secondKind_of_kinds {cursor : Cursor} {kind : TokenKind} {rest : List TokenKind}
    (kinds : cursor.kinds = kind :: rest) : cursor.secondKind = rest.headD .endOfInput := by
  rw [secondKind_eq, kinds, List.tail_cons]

/-- Stepping over a token takes its kind away. -/
theorem kinds_advance (cursor : Cursor) : cursor.advance.kinds = cursor.kinds.tail := by
  rcases cursor with ⟨previous, _ | ⟨token, rest⟩, depth⟩ <;> rfl

/-- Stepping over a token keeps the depth. -/
theorem depth_advance (cursor : Cursor) : cursor.advance.depth = cursor.depth := by
  rcases cursor with ⟨previous, _ | ⟨token, rest⟩, depth⟩ <;> rfl

/-- The second token is the next one after a step. -/
theorem kind_advance (cursor : Cursor) : cursor.advance.kind = cursor.secondKind := by
  rw [kind_eq, kinds_advance, secondKind_eq]

/-- The next kind is the first of those ahead where it is not the end. -/
theorem kinds_eq_cons {cursor : Cursor} {kind : TokenKind} (next : cursor.kind = kind)
    (inside : kind ≠ .endOfInput) : cursor.kinds = kind :: cursor.advance.kinds := by
  rw [kinds_advance]
  rw [kind_eq] at next
  cases ahead : cursor.kinds with
  | nil => rw [ahead] at next; exact absurd next.symm inside
  | cons head tail => rw [ahead] at next; rw [← next]; rfl

/-- The next two kinds are the first of those ahead where neither is the end. -/
theorem kinds_eq_cons_cons {cursor : Cursor} {kind second : TokenKind} (next : cursor.kind = kind)
    (inside : kind ≠ .endOfInput) (later : cursor.secondKind = second)
    (inside' : second ≠ .endOfInput) :
    cursor.kinds = kind :: second :: cursor.advance.advance.kinds := by
  rw [kinds_eq_cons next inside, kinds_eq_cons (cursor.kind_advance.trans later) inside']

/-- Stepping over a token that is not the end consumes it. -/
theorem Consumes.advance {cursor : Cursor} {kind : TokenKind} (next : cursor.kind = kind)
    (inside : kind ≠ .endOfInput) : Consumes cursor cursor.advance [kind] :=
  ⟨kinds_eq_cons next inside, cursor.depth_advance⟩

/-- A cursor that stays consumes nothing. -/
theorem Consumes.refl (cursor : Cursor) : Consumes cursor cursor [] := ⟨rfl, rfl⟩

/-- What is consumed in two parts is consumed in order. -/
theorem Consumes.trans {first second third : Cursor} {early late : List TokenKind}
    (head : Consumes first second early) (tail : Consumes second third late) :
    Consumes first third (early ++ late) := by
  constructor
  · rw [head.kinds_eq, tail.kinds_eq, List.append_assoc]
  · rw [tail.depth_eq, head.depth_eq]

/-- What is consumed one level deeper is consumed around that level. -/
theorem Consumes.nested {cursor after : Cursor} {kinds : List TokenKind}
    (inner : Consumes { cursor with depth := cursor.depth + 1 } after kinds) :
    Consumes cursor { after with depth := after.depth - 1 } kinds := by
  constructor
  · exact inner.kinds_eq
  · change after.depth - 1 = cursor.depth
    rw [inner.depth_eq]
    rfl

end Cursor

namespace Parser

variable {α β : Type}

/-- A sequence runs its second part where the first one stopped. -/
theorem bind_apply (parser : Parser α) (next : α → Parser β) (cursor : Cursor) :
    (parser >>= next) cursor =
      match parser cursor with
      | .ok (result, after) => next result after
      | .error error => .error error := by
  change (parser cursor >>= fun (result, after) => next result after) = _
  rcases parser cursor with error | ⟨result, after⟩ <;> rfl

section Apply

variable (cursor : Cursor)

/-- Looking at the next token leaves the cursor where it is. -/
theorem peek_apply : peek cursor = .ok (cursor.kind, cursor) := rfl

/-- Looking at the second token leaves the cursor where it is. -/
theorem peekSecond_apply : peekSecond cursor = .ok (cursor.secondKind, cursor) := rfl

/-- Telling the span of the next token leaves the cursor where it is. -/
theorem nextSpan_apply : nextSpan cursor = .ok (cursor.span, cursor) := rfl

/-- Telling the span of the last token leaves the cursor where it is. -/
theorem previousSpan_apply : previousSpan cursor = .ok (cursor.previous, cursor) := rfl

/-- Counting the tokens left leaves the cursor where it is. -/
theorem remaining_apply : remaining cursor = .ok (cursor.rest.length, cursor) := rfl

/-- Stepping over a token always succeeds. -/
theorem skip_apply : skip cursor = .ok ((), cursor.advance) := rfl

/-- A token is accepted if it is the next one. -/
theorem accept_apply (kind : TokenKind) :
    accept kind cursor =
      if cursor.kind = kind then .ok (true, cursor.advance) else .ok (false, cursor) := by
  unfold accept
  rw [bind_apply, peek_apply]
  dsimp only
  split <;> rfl

/-- A symbol that is expected has to be the next token. -/
theorem expect_apply (symbol : Symbol) (place : Place) :
    expect symbol place cursor =
      if cursor.kind = .symbol symbol then .ok ((), cursor.advance)
      else .error ⟨.expectedSymbol symbol place cursor.kind, cursor.span⟩ := by
  unfold expect
  rw [bind_apply, peek_apply]
  dsimp only
  split <;> rfl

/-- A level is opened if the deepest one is not open. -/
theorem enter_apply :
    enter cursor =
      if maxNesting ≤ cursor.depth then .error ⟨.nestingTooDeep, cursor.span⟩
      else .ok ((), { cursor with depth := cursor.depth + 1 }) := by
  unfold enter
  change (if maxNesting ≤ cursor.depth then fail .nestingTooDeep else _ : Parser Unit) cursor = _
  split <;> rfl

/-- Closing a level always succeeds. -/
theorem leave_apply : leave cursor = .ok ((), { cursor with depth := cursor.depth - 1 }) := rfl

end Apply

/-- Whenever a parser succeeds at a cursor, its result and the cursor after it are related. -/
def Ensures (parser : Parser α) (cursor : Cursor) (post : α → Cursor → Prop) : Prop :=
  ∀ result after, parser cursor = .ok (result, after) → post result after

namespace Ensures

variable {parser : Parser α} {next : α → Parser β} {cursor : Cursor} {post : β → Cursor → Prop}

/-- A sequence ensures what its second part does after the first. -/
theorem bind {middle : α → Cursor → Prop} (first : parser.Ensures cursor middle)
    (second : ∀ result after, middle result after → (next result).Ensures after post) :
    (parser >>= next).Ensures cursor post := by
  intro result after ran
  rw [bind_apply] at ran
  rcases found : parser cursor with error | ⟨value, between⟩
  · rw [found] at ran
    cases ran
  · rw [found] at ran
    exact second value between (first value between found) result after ran

/-- A sequence whose first part is known to succeed ensures what its second part does. -/
theorem step {value : α} {after : Cursor} (ran : parser cursor = .ok (value, after))
    (second : (next value).Ensures after post) : (parser >>= next).Ensures cursor post := by
  have first : parser.Ensures cursor fun result between => result = value ∧ between = after := by
    intro result between found
    rw [ran] at found
    cases found
    exact ⟨rfl, rfl⟩
  refine first.bind ?_
  rintro _ _ ⟨rfl, rfl⟩
  exact second

/-- What is ensured can be weakened. -/
theorem mono {inner : Parser β} {strong : β → Cursor → Prop} (ensured : inner.Ensures cursor strong)
    (weaken : ∀ result after, strong result after → post result after) :
    inner.Ensures cursor post :=
  fun result after ran => weaken result after (ensured result after ran)

/-- What is ensured in two ways is ensured together. -/
theorem and {inner : Parser β} {other : β → Cursor → Prop} (one : inner.Ensures cursor post)
    (two : inner.Ensures cursor other) :
    inner.Ensures cursor fun result after => post result after ∧ other result after :=
  fun result after ran => ⟨one result after ran, two result after ran⟩

/-- A result that is given leaves the cursor where it is. -/
theorem pure {value : β} (holds : post value cursor) :
    (Pure.pure value : Parser β).Ensures cursor post := by
  intro result after ran
  cases ran
  exact holds

/-- A parser that stops with a fault has no results. -/
theorem failAt {fault : SyntaxFault} {span : Span} :
    (Parser.failAt fault span : Parser β).Ensures cursor post := by
  intro result after ran
  cases ran

/-- A parser that stops with a fault at the next token has no results. -/
theorem fail {fault : SyntaxFault} : (Parser.fail fault : Parser β).Ensures cursor post := by
  intro result after ran
  cases ran

/-- A symbol that was expected has been consumed. -/
theorem expect (symbol : Symbol) (place : Place) (cursor : Cursor) :
    (Parser.expect symbol place).Ensures cursor fun _ after =>
      cursor.Consumes after [.symbol symbol] := by
  intro result after ran
  rw [expect_apply] at ran
  split at ran
  · rename_i found
    cases ran
    exact .advance found (by simp)
  · cases ran

/-- A token is consumed if it was accepted, and otherwise the cursor stays. -/
theorem accept {kind : TokenKind} (inside : kind ≠ .endOfInput) (cursor : Cursor) :
    (Parser.accept kind).Ensures cursor fun accepted after =>
      (accepted = true ∧ cursor.Consumes after [kind]) ∨ (accepted = false ∧ after = cursor) := by
  intro result after ran
  rw [accept_apply] at ran
  split at ran
  · rename_i found
    cases ran
    exact .inl ⟨rfl, .advance found inside⟩
  · cases ran
    exact .inr ⟨rfl, rfl⟩

/-- What a parser does within a level of its own, it does one level deeper. -/
theorem nested {inner : Parser β}
    (ensured : cursor.depth < maxNesting →
      inner.Ensures { cursor with depth := cursor.depth + 1 } fun result after =>
        post result { after with depth := after.depth - 1 }) :
    (Parser.nested inner).Ensures cursor post := by
  have opened : enter.Ensures cursor fun _ after =>
      cursor.depth < maxNesting ∧ after = { cursor with depth := cursor.depth + 1 } := by
    intro result after ran
    rw [enter_apply] at ran
    split at ran
    · cases ran
    · cases ran
      exact ⟨by omega, rfl⟩
  refine opened.bind ?_
  rintro _ _ ⟨room, rfl⟩
  exact (ensured room).bind fun result after holds => step (leave_apply after) (pure holds)

end Ensures

/-- A parser succeeds at a cursor with a good result, and leaves the tokens `rest` and the depth
that it was called at. -/
def Gives (parser : Parser α) (cursor : Cursor) (good : α → Prop) (rest : List TokenKind) : Prop :=
  ∃ result after, parser cursor = .ok (result, after) ∧ good result ∧ after.kinds = rest ∧
    after.depth = cursor.depth

namespace Gives

variable {parser : Parser α} {next : α → Parser β} {cursor : Cursor} {good : β → Prop}
  {rest : List TokenKind}

/-- A sequence succeeds if its second part does wherever the first may stop. -/
theorem bind {fine : α → Prop} {middle : List TokenKind} (first : parser.Gives cursor fine middle)
    (second : ∀ result after, fine result → after.kinds = middle → after.depth = cursor.depth →
      (next result).Gives after good rest) : (parser >>= next).Gives cursor good rest := by
  obtain ⟨value, between, ran, holds, kinds, depth⟩ := first
  obtain ⟨result, after, found, good, left, same⟩ := second value between holds kinds depth
  refine ⟨result, after, ?_, good, left, same.trans depth⟩
  rw [bind_apply, ran]
  exact found

/-- A sequence whose first part is known to succeed succeeds if its second part does. -/
theorem step {value : α} {after : Cursor} (ran : parser cursor = .ok (value, after))
    (same : after.depth = cursor.depth) (second : (next value).Gives after good rest) :
    (parser >>= next).Gives cursor good rest := by
  obtain ⟨result, last, found, good, left, depth⟩ := second
  refine ⟨result, last, ?_, good, left, depth.trans same⟩
  rw [bind_apply, ran]
  exact found

/-- A result that is given leaves the cursor where it is. -/
theorem pure {value : β} (holds : good value) (kinds : cursor.kinds = rest) :
    (Pure.pure value : Parser β).Gives cursor good rest :=
  ⟨value, cursor, rfl, holds, kinds, rfl⟩

/-- A parser that looks at the next two tokens succeeds if it does with what it sees. -/
theorem look {sees : Span → TokenKind → TokenKind → Parser β}
    (given : (sees cursor.span cursor.kind cursor.secondKind).Gives cursor good rest) :
    (do
      let span ← nextSpan
      let kind ← peek
      let second ← peekSecond
      sees span kind second : Parser β).Gives cursor good rest :=
  .step (nextSpan_apply cursor) rfl
    (.step (peek_apply cursor) rfl (.step (peekSecond_apply cursor) rfl given))

/-- Stepping over the next token leaves the others. -/
theorem skip {kind : TokenKind} (kinds : cursor.kinds = kind :: rest) :
    Parser.skip.Gives cursor (fun _ => True) rest :=
  ⟨(), cursor.advance, rfl, trivial, by rw [Cursor.kinds_advance, kinds]; rfl,
    cursor.depth_advance⟩

/-- A symbol that is the next token is found where it is expected. -/
theorem expect {symbol : Symbol} (place : Place)
    (kinds : cursor.kinds = .symbol symbol :: rest) :
    (Parser.expect symbol place).Gives cursor (fun _ => True) rest := by
  have found : cursor.kind = .symbol symbol := Cursor.kind_of_kinds kinds
  obtain ⟨result, after, ran, fine⟩ := skip kinds
  refine ⟨result, after, ?_, fine⟩
  rw [expect_apply, if_pos found]
  exact ran

/-- A token that is the next one is accepted. -/
theorem accept {kind : TokenKind} (kinds : cursor.kinds = kind :: rest) :
    (Parser.accept kind).Gives cursor (fun accepted => accepted = true) rest := by
  have found : cursor.kind = kind := Cursor.kind_of_kinds kinds
  refine ⟨true, cursor.advance, ?_, rfl, ?_, cursor.depth_advance⟩
  · rw [accept_apply, if_pos found]
  · rw [Cursor.kinds_advance, kinds]
    rfl

/-- A token that is not the next one is not accepted. -/
theorem acceptNot {kind : TokenKind} (kinds : cursor.kinds = rest)
    (different : rest.headD .endOfInput ≠ kind) :
    (Parser.accept kind).Gives cursor (fun accepted => accepted = false) rest := by
  refine ⟨false, cursor, ?_, rfl, kinds, rfl⟩
  rw [accept_apply, if_neg]
  rwa [Cursor.kind_eq, kinds]

/-- A parser succeeds within a level of its own if it does one level deeper. -/
theorem nested {inner : Parser β} (room : cursor.depth < maxNesting)
    (given : ∀ within, within.kinds = cursor.kinds → within.depth = cursor.depth + 1 →
      inner.Gives within good rest) : (Parser.nested inner).Gives cursor good rest := by
  obtain ⟨result, after, ran, good, left, depth⟩ :=
    given { cursor with depth := cursor.depth + 1 } rfl rfl
  refine ⟨result, { after with depth := after.depth - 1 }, ?_, good, left, ?_⟩
  · unfold Parser.nested
    rw [bind_apply, enter_apply, if_neg (by omega)]
    dsimp only
    rw [bind_apply, ran]
    rfl
  · change after.depth - 1 = cursor.depth
    rw [depth]
    rfl

end Gives

end Parser

end Waggle
