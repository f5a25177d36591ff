import Waggle.Proofs.Tracking

/-!
# Tokens cut at the end of the input

The end of the input is a token of its own, but a list of tokens may lack it, and tokens may stand
behind it that nobody should look at. `Cursor.ended` is a cursor whose tokens are cut at the first
end of the input, or given one if they have none. `Parser.Heeds` says that a parser does the same at
a cursor as at the ended one, and that the tokens that it takes stand before the end: at least a
number of them, so that loops which take something in each round come to their own end before they
run out of rounds (`Parser.Settles`).
-/

namespace Waggle

/-- Tokens cut at the first end of the input. If there is none, it comes at the last token, or at
the one before these. -/
def closed (previous : Span) : List Token → List Token
  | [] => [⟨.endOfInput, "", previous⟩]
  | token :: rest =>
    if token.kind = .endOfInput then [⟨.endOfInput, "", token.span⟩]
    else token :: closed token.span rest

/-- Tokens through the first end of the input. -/
def throughEnd : List Token → List Token
  | [] => []
  | token :: rest => if token.kind = .endOfInput then [token] else token :: throughEnd rest

/-- Behind an end of the input nothing counts. -/
theorem closed_append (previous : Span) {tokens : List Token}
    (marked : .endOfInput ∈ tokens.map Token.kind) (rest : List Token) :
    closed previous (tokens ++ rest) = closed previous (throughEnd tokens) := by
  induction tokens generalizing previous with
  | nil => cases marked
  | cons token more ih =>
    rw [List.cons_append, throughEnd, closed]
    by_cases last : token.kind = .endOfInput
    · rw [if_pos last, if_pos last, closed, if_pos last]
    · have later : .endOfInput ∈ more.map Token.kind :=
        (List.mem_cons.mp marked).resolve_left fun same => last same.symm
      rw [if_neg last, if_neg last, closed, if_neg last, ih token.span later]

/-- An end of the input at the last token makes no difference. -/
theorem closed_concat (previous : Span) {tokens : List Token} {last : Token}
    (final : tokens.getLast? = some last) (text : String) :
    closed previous (tokens ++ [⟨.endOfInput, text, last.span⟩]) = closed previous tokens := by
  induction tokens generalizing previous with
  | nil => cases final
  | cons token more ih =>
    rw [List.cons_append, closed, closed]
    split
    · rfl
    · cases more with
      | nil =>
        obtain rfl : token = last := Option.some.inj final
        rw [List.nil_append, closed, closed, if_pos rfl]
      | cons next others =>
        rw [ih token.span (List.getLast?_cons_cons ▸ final)]

namespace Cursor

/-- The tokens after a cursor that stand before the end of the input. -/
def ahead (cursor : Cursor) : List Token := cursor.rest.takeWhile (·.kind ≠ .endOfInput)

/-- No more tokens stand before the end of the input than there are. -/
theorem length_ahead_le (cursor : Cursor) : cursor.ahead.length ≤ cursor.rest.length :=
  (List.takeWhile_sublist _).length_le

/-- Where no token is ahead, the input ends. -/
theorem kind_of_ahead {cursor : Cursor} (none : cursor.ahead.length = 0) :
    cursor.kind = .endOfInput := by
  obtain ⟨previous, _ | ⟨token, rest⟩, depth⟩ := cursor
  · rfl
  · by_contra other
    have inside : token.kind ≠ .endOfInput := other
    simp [ahead, inside] at none

/-- Tokens that are passed were ahead. -/
theorem Passes.ahead_eq {cursor after : Cursor} {taken : List Token}
    (passes : cursor.Passes after taken) : cursor.ahead = taken ++ after.ahead := by
  rw [ahead, passes.rest_eq]
  refine List.takeWhile_append_of_pos fun token member => decide_eq_true fun last => ?_
  exact passes.inside (List.mem_map.mpr ⟨token, member, last⟩)

/-- Between two cursors of the same depth stand at least some tokens, and none of them is the end of
the input. -/
structure Advances (least : Nat) (before after : Cursor) : Prop where
  /-- The tokens are passed. -/
  passes : ∃ taken, least ≤ taken.length ∧ before.Passes after taken
  /-- No level is left open or closed too often. -/
  depth_eq : after.depth = before.depth

namespace Advances

variable {least least' : Nat} {first second third cursor : Cursor}

/-- A cursor that stays passes nothing. -/
theorem refl (cursor : Cursor) : Advances 0 cursor cursor :=
  ⟨⟨[], Nat.le_refl 0, .refl cursor⟩, rfl⟩

/-- Where a number of tokens is passed, no fewer are. -/
theorem atLeast (advances : Advances least' first second) (fewer : least ≤ least') :
    Advances least first second := by
  obtain ⟨taken, enough, passes⟩ := advances.passes
  exact ⟨⟨taken, Nat.le_trans fewer enough, passes⟩, advances.depth_eq⟩

/-- What is passed in two parts adds up. -/
theorem trans (head : Advances least' first second)
    (tail : Advances (least - least') second third) : Advances least first third := by
  obtain ⟨early, enough, passes⟩ := head.passes
  obtain ⟨late, enough', passes'⟩ := tail.passes
  refine ⟨⟨early ++ late, ?_, passes.trans passes'⟩, tail.depth_eq.trans head.depth_eq⟩
  rw [List.length_append]
  omega

/-- Stepping over a token that is not the end passes it. -/
theorem advance (inside : cursor.kind ≠ .endOfInput) : Advances 1 cursor cursor.advance := by
  obtain ⟨token, _, passes⟩ := exists_passes_advance rfl inside
  exact ⟨⟨[token], Nat.le_refl 1, passes⟩, cursor.depth_advance⟩

/-- What is passed one level deeper is passed around that level. -/
theorem nested {after : Cursor}
    (inner : Advances least { cursor with depth := cursor.depth + 1 } after) :
    Advances least cursor { after with depth := after.depth - 1 } := by
  obtain ⟨taken, enough, passes⟩ := inner.passes
  refine ⟨⟨taken, enough, ⟨passes.rest_eq, passes.inside⟩⟩, ?_⟩
  change after.depth - 1 = cursor.depth
  rw [inner.depth_eq]
  rfl

/-- There are fewer tokens ahead of the later cursor. -/
theorem length_ahead_le (advances : Advances least first second) :
    second.ahead.length + least ≤ first.ahead.length := by
  obtain ⟨taken, enough, passes⟩ := advances.passes
  rw [passes.ahead_eq, List.length_append]
  omega

end Advances

/-- The same cursor before tokens that are cut at the end of the input. -/
def ended (cursor : Cursor) : Cursor := { cursor with rest := closed cursor.previous cursor.rest }

/-- Neither the next kind nor its place is changed, since a missing end counts as one that stands at
the last token. -/
theorem next_ended (cursor : Cursor) :
    cursor.ended.kind = cursor.kind ∧ cursor.ended.span = cursor.span := by
  obtain ⟨previous, _ | ⟨token, rest⟩, depth⟩ := cursor
  · exact ⟨rfl, rfl⟩
  · by_cases last : token.kind = .endOfInput
    · simp only [ended, closed, kind, span, last, if_true, and_self]
    · simp only [ended, closed, if_neg last, kind, span, and_self]

/-- A token before the end of the input is stepped over alike. -/
theorem advance_ended {cursor : Cursor} (inside : cursor.kind ≠ .endOfInput) :
    cursor.ended.advance = cursor.advance.ended := by
  obtain ⟨previous, _ | ⟨token, rest⟩, depth⟩ := cursor
  · exact absurd rfl inside
  · simp only [ended, closed, if_neg (show token.kind ≠ .endOfInput from inside), advance]

/-- The kind after the next is not changed if the next one is not the end. -/
theorem secondKind_ended {cursor : Cursor} (inside : cursor.kind ≠ .endOfInput) :
    cursor.ended.secondKind = cursor.secondKind := by
  rw [← kind_advance, advance_ended inside, cursor.advance.next_ended.1, kind_advance]

/-- All the tokens ahead are kept. -/
theorem length_ahead_le_ended (cursor : Cursor) :
    cursor.ahead.length ≤ cursor.ended.rest.length := by
  obtain ⟨previous, rest, depth⟩ := cursor
  simp only [ahead, ended]
  induction rest generalizing previous with
  | nil => exact Nat.zero_le _
  | cons token more ih =>
    rw [closed, List.takeWhile_cons]
    by_cases last : token.kind = .endOfInput
    · simp [last]
    · simpa [last] using ih token.span

end Cursor

namespace Parser

variable {α β : Type}

/-- Within a level of its own a parser runs one level deeper, if that one can be opened. -/
theorem nested_apply (inner : Parser α) (cursor : Cursor) :
    nested inner cursor =
      if maxNesting ≤ cursor.depth then .error ⟨.nestingTooDeep, cursor.span⟩
      else (inner { cursor with depth := cursor.depth + 1 }).map
        (Prod.map id fun after => { after with depth := after.depth - 1 }) := by
  unfold nested
  rw [bind_apply, enter_apply]
  by_cases deep : maxNesting ≤ cursor.depth
  · rw [if_pos deep, if_pos deep]
  · rw [if_neg deep, if_neg deep]
    dsimp only
    rw [bind_apply]
    rcases inner { cursor with depth := cursor.depth + 1 } with error | ⟨result, after⟩ <;> rfl

/-- A parser takes at least some tokens, all of them before the end of the input, and does the same
where the tokens are cut there. -/
structure Heeds (least : Nat) (parser : Parser α) (cursor : Cursor) : Prop where
  /-- Tokens are taken, but not the end. -/
  advances : parser.Ensures cursor fun _ after => cursor.Advances least after
  /-- The result or the error is the same before the tokens that are cut. -/
  agrees : parser cursor.ended = (parser cursor).map (Prod.map id Cursor.ended)

namespace Heeds

variable {least : Nat} {cursor : Cursor} {next : α → Parser β}

/-- Two parsers are read one after the other, and the second one takes what the first one leaves of
the number of tokens. -/
theorem bind {first : Parser α} {least' : Nat} (head : first.Heeds least' cursor)
    (tail : ∀ result after, (next result).Heeds (least - least') after) :
    (first >>= next).Heeds least cursor where
  advances := head.advances.bind fun value between early =>
    ((tail value between).advances).mono fun _ _ late => early.trans late
  agrees := by
    rw [bind_apply, bind_apply, head.agrees]
    rcases first cursor with error | ⟨value, between⟩
    · rfl
    · exact (tail value between).agrees

/-- A parser that takes a number of tokens takes no fewer. -/
theorem atLeast {parser : Parser α} {total : Nat} (heeds : parser.Heeds total cursor)
    (fewer : least ≤ total) : parser.Heeds least cursor where
  advances := heeds.advances.mono fun _ _ advances => advances.atLeast fewer
  agrees := heeds.agrees

/-- A parser that takes nothing may come first if it sees the same. -/
theorem look {first : Parser α} {value : α} (sees : first cursor = .ok (value, cursor))
    (same : first cursor.ended = .ok (value, cursor.ended))
    (tail : (next value).Heeds least cursor) : (first >>= next).Heeds least cursor where
  advances := .step sees tail.advances
  agrees := by
    rw [bind_apply, bind_apply, sees, same]
    exact tail.agrees

/-- A parser that is run as another one at a cursor does what that one does. -/
theorem of_eq {parser other : Parser α} (here : parser cursor = other cursor)
    (there : parser cursor.ended = other cursor.ended) (heeds : other.Heeds least cursor) :
    parser.Heeds least cursor where
  advances result after ran := heeds.advances result after (here ▸ ran)
  agrees := by rw [here, there, heeds.agrees]

/-- A result that is given takes nothing. -/
theorem pure (value : α) : (Pure.pure value : Parser α).Heeds 0 cursor where
  advances := .pure (.refl cursor)
  agrees := rfl

/-- A parser that stops with a fault takes nothing. -/
theorem failAt (fault : SyntaxFault) (span : Span) :
    (Parser.failAt fault span : Parser α).Heeds least cursor where
  advances := .failAt
  agrees := rfl

/-- The next kind is seen. -/
theorem peek {next : TokenKind → Parser β} (tail : (next cursor.kind).Heeds least cursor) :
    (Parser.peek >>= next).Heeds least cursor :=
  .look (peek_apply cursor) (by rw [peek_apply, cursor.next_ended.1]) tail

/-- The kind after the next is seen where it matters, which is not at the end of the input. -/
theorem peekSecond {next : TokenKind → Parser β}
    (indifferent : cursor.kind = .endOfInput → ∀ one other, next one = next other)
    (tail : (next cursor.secondKind).Heeds least cursor) :
    (Parser.peekSecond >>= next).Heeds least cursor := by
  refine .of_eq (by rw [bind_apply, peekSecond_apply]) ?_ tail
  rw [bind_apply, peekSecond_apply]
  by_cases last : cursor.kind = .endOfInput
  · exact congrFun (indifferent last _ _) _
  · rw [Cursor.secondKind_ended last]

/-- The place of the next token is seen. -/
theorem nextSpan {next : Span → Parser β} (tail : (next cursor.span).Heeds least cursor) :
    (Parser.nextSpan >>= next).Heeds least cursor :=
  .look (nextSpan_apply cursor) (by rw [nextSpan_apply, cursor.next_ended.2]) tail

/-- The place of the last token is known. -/
theorem previousSpan {next : Span → Parser β}
    (tail : (next cursor.previous).Heeds least cursor) :
    (Parser.previousSpan >>= next).Heeds least cursor :=
  .look (previousSpan_apply cursor) (previousSpan_apply cursor.ended) tail

/-- A parser that stops with a fault at the next token takes nothing. -/
theorem fail (fault : SyntaxFault) : (Parser.fail fault : Parser α).Heeds least cursor :=
  .nextSpan (.failAt fault cursor.span)

/-- A token that is not the end is taken. -/
theorem skip {kind : TokenKind} (found : cursor.kind = kind) (inside : kind ≠ .endOfInput)
    {next : Unit → Parser β} (tail : (next ()).Heeds (least - 1) cursor.advance) :
    (Parser.skip >>= next).Heeds least cursor where
  advances := .step (skip_apply cursor)
    (tail.advances.mono fun _ _ late => (Cursor.Advances.advance (found ▸ inside)).trans late)
  agrees := by
    rw [bind_apply, bind_apply, skip_apply, skip_apply, Cursor.advance_ended (found ▸ inside)]
    exact tail.agrees

/-- A token that is not the end is taken if it is the next one. -/
theorem accept {kind : TokenKind} (inside : kind ≠ .endOfInput) {next : Bool → Parser β}
    (yes : (next true).Heeds (least - 1) cursor.advance)
    (no : (next false).Heeds least cursor) : (Parser.accept kind >>= next).Heeds least cursor := by
  by_cases found : cursor.kind = kind
  · have opened : (Parser.skip >>= fun _ => next true).Heeds least cursor :=
      .skip found inside yes
    refine .of_eq ?_ ?_ opened
    · rw [bind_apply, accept_apply, if_pos found]
      rfl
    · rw [bind_apply, accept_apply, cursor.next_ended.1, if_pos found]
      rfl
  · refine .look ?_ ?_ no
    · rw [accept_apply, if_neg found]
    · rw [accept_apply, cursor.next_ended.1, if_neg found]

/-- A token that is not the end may be taken, and no other is. -/
theorem acceptAny {kind : TokenKind} (inside : kind ≠ .endOfInput) (cursor : Cursor) :
    (Parser.accept kind).Heeds 0 cursor := by
  have accepted : (Parser.accept kind >>= Pure.pure).Heeds 0 cursor :=
    .accept inside (.pure true) (.pure false)
  rwa [bind_pure] at accepted

/-- A symbol that is expected is taken. -/
theorem expect (symbol : Symbol) (place : Place) (cursor : Cursor) :
    (Parser.expect symbol place).Heeds 1 cursor := by
  refine .peek ?_
  split
  · have skipped : (Parser.skip >>= fun _ => Pure.pure ()).Heeds 1 cursor :=
      .skip ‹_› (by simp) (.pure ())
    exact skipped
  · exact .fail _

/-- A level of its own makes no difference. -/
theorem nested {inner : Parser α}
    (heeds : inner.Heeds least { cursor with depth := cursor.depth + 1 }) :
    (Parser.nested inner).Heeds least cursor where
  advances := .nested fun _ => heeds.advances.mono fun _ _ advances => advances.nested
  agrees := by
    rw [nested_apply, nested_apply, cursor.next_ended.2]
    by_cases deep : maxNesting ≤ cursor.depth
    · rw [if_pos deep, if_pos (show maxNesting ≤ cursor.ended.depth from deep)]
      rfl
    · rw [if_neg deep, if_neg (show ¬maxNesting ≤ cursor.ended.depth from deep)]
      have agrees := heeds.agrees
      change inner { cursor.ended with depth := cursor.ended.depth + 1 } = _ at agrees
      rw [agrees]
      rcases inner { cursor with depth := cursor.depth + 1 } with error | ⟨result, after⟩ <;> rfl

end Heeds

/-! ### Loops that come to their end -/

/-- With more rounds than a bound, a loop does at a cursor what it does with as many as the bound:
by then it has come to its own end. -/
def Settles (loop : Nat → Parser α) (bound : Nat) (cursor : Cursor) : Prop :=
  ∀ count, bound ≤ count → loop count cursor = loop bound cursor

/-- A loop settles if one more round never makes a difference. -/
theorem Settles.of_succ {loop : Nat → Parser α} {bound : Nat} {cursor : Cursor}
    (same : ∀ count, bound ≤ count → loop (count + 1) cursor = loop count cursor) :
    Settles loop bound cursor := by
  intro count enough
  induction enough with
  | refl => rfl
  | step enough ih => exact (same _ enough).trans ih

/-- A loop that is bounded by the number of tokens left does the same where they are cut, because it
settles with those ahead. -/
theorem Heeds.remaining {loop : Nat → Parser α} {least : Nat} {cursor : Cursor}
    (heeds : ∀ count, (loop count).Heeds least cursor)
    (settles : Settles loop cursor.ahead.length cursor) :
    (Parser.remaining >>= loop).Heeds least cursor where
  advances := .step (remaining_apply cursor) (heeds _).advances
  agrees := by
    rw [bind_apply, bind_apply, remaining_apply, remaining_apply]
    dsimp only
    rw [(heeds _).agrees, settles _ cursor.length_ahead_le_ended,
      settles _ cursor.length_ahead_le]

/-- Two ways to go on are the same if they are wherever the first part may stop. -/
theorem bind_congr_ok {first : Parser α} {next other : α → Parser β} {cursor : Cursor}
    (same : ∀ value after, first cursor = .ok (value, after) →
      next value after = other value after) :
    (first >>= next) cursor = (first >>= other) cursor := by
  rw [bind_apply, bind_apply]
  rcases ran : first cursor with error | ⟨value, after⟩
  · rfl
  · exact same value after ran

/-- Within a level of their own, two parsers do the same if they do one level deeper. -/
theorem nested_congr {inner other : Parser α} {cursor : Cursor}
    (same : inner { cursor with depth := cursor.depth + 1 } =
      other { cursor with depth := cursor.depth + 1 }) :
    nested inner cursor = nested other cursor := by
  rw [nested_apply, nested_apply, same]

end Parser

end Waggle
