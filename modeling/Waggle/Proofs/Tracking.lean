import Waggle.Proofs.Continuation
import Waggle.Proofs.Reading

/-!
# Parsers that take what the grammar allows

`Parser.Tracks` compares a parser at a cursor with what the grammar allows there. If it succeeds,
the tokens that it took leave exactly what may come next; if it stops at a token, the tokens before
that one can still be completed, and with that one they cannot. Two parsers after each other track
what the first one leaves to the second (`Tracks.bind`). The limit of nesting plays no part: an
error about it is not tracked.
-/

namespace Waggle

/-- Whether a fault says that the next token cannot stand where it does. -/
def SyntaxFault.BlamesToken (fault : SyntaxFault) : Prop :=
  fault.code = .unexpectedToken ∨ fault.code = .tooManyArguments

/-- Too many levels of nesting are no token's fault. -/
theorem SyntaxFault.nestingTooDeep_excused : ¬nestingTooDeep.BlamesToken := by
  rintro (code | code) <;> cases code

/-- A move without a direction is about its target, not about a token. -/
theorem SyntaxFault.expectedDirection_excused (found : TokenKind) :
    ¬(expectedDirection found).BlamesToken := by
  rintro (code | code) <;> cases code

/-- Some tokens stand between two cursors, and none of them is the end of the input. -/
structure Cursor.Passes (before after : Cursor) (taken : List Token) : Prop where
  /-- They are no longer ahead. -/
  rest_eq : before.rest = taken ++ after.rest
  /-- The end of the input is not among them. -/
  inside : .endOfInput ∉ taken.map Token.kind

namespace Cursor

/-- A cursor that stays passes nothing. -/
theorem Passes.refl (cursor : Cursor) : cursor.Passes cursor [] := ⟨rfl, List.not_mem_nil⟩

/-- What is passed in two parts is passed in order. -/
theorem Passes.trans {first second third : Cursor} {early late : List Token}
    (head : first.Passes second early) (tail : second.Passes third late) :
    first.Passes third (early ++ late) where
  rest_eq := by rw [head.rest_eq, tail.rest_eq, List.append_assoc]
  inside := by
    rw [List.map_append, List.mem_append]
    exact not_or.mpr ⟨head.inside, tail.inside⟩

/-- What is passed and then the next token begins with the next token before that. -/
theorem Passes.exists_cons {cursor after : Cursor} {taken : List Token}
    (passes : cursor.Passes after taken) (more : List TokenKind) :
    ∃ others, taken.map Token.kind ++ after.kind :: more = cursor.kind :: others := by
  have ahead := passes.rest_eq
  cases taken with
  | nil =>
    rw [List.nil_append] at ahead
    refine ⟨more, ?_⟩
    rw [List.map_nil, List.nil_append, kind, kind, ahead]
  | cons token others =>
    refine ⟨others.map Token.kind ++ after.kind :: more, ?_⟩
    rw [List.map_cons, List.cons_append]
    congr 1
    rw [kind.eq_def cursor, ahead]
    rfl

/-- What is known of all that begins with the next token is known of what is passed and then the
next token. -/
theorem Passes.carry {cursor after : Cursor} {taken : List Token}
    (passes : cursor.Passes after taken) {allowed : Set (List TokenKind)}
    (wider : Set (List TokenKind))
    (back : ∀ more, cursor.kind :: more ∈ wider → cursor.kind :: more ∈ allowed)
    {more : List TokenKind} (inside : taken.map Token.kind ++ after.kind :: more ∈ wider) :
    taken.map Token.kind ++ after.kind :: more ∈ allowed := by
  obtain ⟨others, begins⟩ := passes.exists_cons more
  rw [begins] at inside ⊢
  exact back others inside

/-- Stepping over a token that is not the end passes it. -/
theorem exists_passes_advance {cursor : Cursor} {kind : TokenKind} (found : cursor.kind = kind)
    (inside : kind ≠ .endOfInput) :
    ∃ token, token.kind = kind ∧ cursor.Passes cursor.advance [token] := by
  obtain ⟨previous, _ | ⟨token, rest⟩, depth⟩ := cursor
  · exact absurd found.symm inside
  · refine ⟨token, found, rfl, ?_⟩
    rw [List.map_singleton, List.mem_singleton]
    exact fun last => inside (found.symm.trans last.symm)

/-- Stepping over a token leaves no more tokens than before. -/
theorem length_advance_le (cursor : Cursor) :
    cursor.advance.rest.length ≤ cursor.rest.length := by
  obtain ⟨previous, _ | ⟨token, rest⟩, depth⟩ := cursor
  · exact Nat.le_refl _
  · exact Nat.le_succ _

end Cursor

/-- After some tokens, what may come next is what `rest` holds. -/
def Cursor.Leaves (cursor after : Cursor) (whole rest : Set (List TokenKind)) : Prop :=
  ∃ taken, cursor.Passes after taken ∧
    (∀ more ∈ rest, taken.map Token.kind ++ more ∈ whole) ∧
    ∀ more, taken.map Token.kind ++ after.kind :: more ∈ whole → after.kind :: more ∈ rest

/-- After some tokens that can be completed comes one, at a span, that makes this impossible. -/
def Cursor.StuckAt (cursor : Cursor) (span : Span) (whole : Set (List TokenKind)) : Prop :=
  ∃ taken stuck, cursor.Passes stuck taken ∧ span = stuck.span ∧
    (∃ more, taken.map Token.kind ++ more ∈ whole) ∧
    ∀ more, taken.map Token.kind ++ stuck.kind :: more ∉ whole

namespace Parser

variable {α β : Type}

/-- A parser takes tokens as the grammar allows, where `whole` holds how the tokens ahead may go on
and `rest` how those after it may, and it blames the first token that is not allowed. -/
def Tracks (parser : Parser α) (cursor : Cursor) (whole rest : Set (List TokenKind)) : Prop :=
  match parser cursor with
  | .ok (_, after) => cursor.Leaves after whole rest
  | .error error => error.fault.BlamesToken → cursor.StuckAt error.span whole

namespace Tracks

variable {parser : Parser α} {next : α → Parser β} {cursor : Cursor}
  {whole middle rest : Set (List TokenKind)}

/-- A parser tracks what it is seen to leave, or where it is seen to stop. -/
theorem of_ok {value : α} {after : Cursor} (ran : parser cursor = .ok (value, after))
    (leaves : cursor.Leaves after whole rest) : parser.Tracks cursor whole rest := by
  rw [Tracks, ran]
  exact leaves

/-- Where a parser is seen to stop, it has to be stuck. -/
theorem of_error {error : SyntaxError} (stopped : parser cursor = .error error)
    (stuck : error.fault.BlamesToken → cursor.StuckAt error.span whole) :
    parser.Tracks cursor whole rest := by
  rw [Tracks, stopped]
  exact stuck

/-- Two parsers after each other track what the first one leaves to the second. -/
theorem bind (first : parser.Tracks cursor whole middle)
    (second : ∀ value after, parser cursor = .ok (value, after) →
      (next value).Tracks after middle rest) :
    (parser >>= next).Tracks cursor whole rest := by
  rcases ran : parser cursor with error | ⟨value, between⟩
  · rw [Tracks, ran] at first
    exact of_error (by rw [bind_apply, ran]) first
  · rw [Tracks, ran] at first
    obtain ⟨early, passes, into, back⟩ := first
    have second := second value between ran
    let left := { kinds | early.map Token.kind ++ kinds ∈ whole }
    rcases ran' : next value between with error | ⟨result, after⟩
    · rw [Tracks, ran'] at second
      refine of_error (by rw [bind_apply, ran]; exact ran') fun blames => ?_
      obtain ⟨late, stuck, passes', span, ⟨more, viable⟩, dead⟩ := second blames
      refine ⟨early ++ late, stuck, passes.trans passes', span, ⟨more, ?_⟩, ?_⟩
      · rw [List.map_append, List.append_assoc]
        exact into _ viable
      · intro more inside
        rw [List.map_append, List.append_assoc] at inside
        exact dead more (passes'.carry left back inside)
    · rw [Tracks, ran'] at second
      obtain ⟨late, passes', into', back'⟩ := second
      refine of_ok (by rw [bind_apply, ran]; exact ran') ?_
      refine ⟨early ++ late, passes.trans passes', ?_, ?_⟩
      · intro more inside
        rw [List.map_append, List.append_assoc]
        exact into _ (into' more inside)
      · intro more inside
        rw [List.map_append, List.append_assoc] at inside
        exact back' more (passes'.carry left back inside)

/-- A parser that only looks leaves everything to the next one. -/
theorem look {value : α} (ran : parser cursor = .ok (value, cursor))
    (second : (next value).Tracks cursor whole rest) :
    (parser >>= next).Tracks cursor whole rest := by
  rw [Tracks, bind_apply, ran]
  exact second

/-- Only what begins with the next token matters. -/
theorem narrow {part : Set (List TokenKind)} (tracks : parser.Tracks cursor part rest)
    (into : part ⊆ whole)
    (back : ∀ more, cursor.kind :: more ∈ whole → cursor.kind :: more ∈ part) :
    parser.Tracks cursor whole rest := by
  rcases ran : parser cursor with error | ⟨value, after⟩
  · rw [Tracks, ran] at tracks
    refine of_error ran fun blames => ?_
    obtain ⟨taken, stuck, passes, span, ⟨more, viable⟩, dead⟩ := tracks blames
    refine ⟨taken, stuck, passes, span, ⟨more, into viable⟩, fun more inside => ?_⟩
    exact dead more (passes.carry whole back inside)
  · rw [Tracks, ran] at tracks
    obtain ⟨taken, passes, inward, onward⟩ := tracks
    refine of_ok ran ⟨taken, passes, fun more inside => into (inward more inside), ?_⟩
    exact fun more inside => onward more (passes.carry whole back inside)

/-- A result that is given leaves what may come next. -/
theorem pure {value : α} (into : rest ⊆ whole)
    (back : ∀ more, cursor.kind :: more ∈ whole → cursor.kind :: more ∈ rest) :
    (Pure.pure value : Parser α).Tracks cursor whole rest :=
  of_ok rfl ⟨[], .refl cursor, fun _ inside => into inside, back⟩

/-- A result that is given leaves everything as it was. -/
theorem done {value : α} : (Pure.pure value : Parser α).Tracks cursor whole whole :=
  pure (subset_refl whole) fun _ inside => inside

/-- A fault at the next token is right if nothing can begin with that one. -/
theorem fail {fault : SyntaxFault} (some : whole.Nonempty)
    (none : ∀ more, cursor.kind :: more ∉ whole) :
    (Parser.fail fault : Parser α).Tracks cursor whole rest :=
  of_error rfl fun _ => ⟨[], cursor, .refl cursor, rfl, some, none⟩

/-- A fault that blames no token is not tracked. -/
theorem failAt {fault : SyntaxFault} {span : Span} (excused : ¬fault.BlamesToken) :
    (Parser.failAt fault span : Parser α).Tracks cursor whole rest :=
  of_error rfl fun blames => absurd blames excused

/-- Too many levels of nesting are not tracked. -/
theorem tooDeep : (Parser.fail .nestingTooDeep : Parser α).Tracks cursor whole rest :=
  of_error rfl fun blames => absurd blames SyntaxFault.nestingTooDeep_excused

/-- Stepping over a token leaves what may come after it. -/
theorem skip {kind : TokenKind} (found : cursor.kind = kind) (inside : kind ≠ .endOfInput)
    {next : Unit → Parser β}
    (second : (next ()).Tracks cursor.advance { more | kind :: more ∈ whole } rest) :
    (Parser.skip >>= next).Tracks cursor whole rest := by
  obtain ⟨token, rfl, passes⟩ := Cursor.exists_passes_advance found inside
  have leaves : cursor.Leaves cursor.advance whole { more | token.kind :: more ∈ whole } :=
    ⟨[token], passes, fun _ allowed => allowed, fun _ allowed => allowed⟩
  refine (of_ok (skip_apply cursor) leaves).bind fun value after ran => ?_
  cases ran
  exact second

/-- Stepping over a token leaves what is known to come after it. -/
theorem skipTo {kind : TokenKind} (found : cursor.kind = kind) (inside : kind ≠ .endOfInput)
    (opens : ∀ more, kind :: more ∈ whole ↔ more ∈ middle) {next : Unit → Parser β}
    (second : (next ()).Tracks cursor.advance middle rest) :
    (Parser.skip >>= next).Tracks cursor whole rest := by
  obtain rfl : { more | kind :: more ∈ whole } = middle := Set.ext opens
  exact skip found inside second

/-- Stepping over a keyword that begins no expression leaves what belongs to its statement. -/
theorem skipKeyword {keyword : Keyword} (found : cursor.kind = .keyword keyword)
    (own : (TokenKind.keyword keyword).beginsExpression = false)
    {next : Unit → Parser β} {following : Set (List TokenKind)}
    (second : (next ()).Tracks cursor.advance (keyword.statementBefore following) rest) :
    (Parser.skip >>= next).Tracks cursor (Part.statement.before following) rest :=
  skipTo found (by simp) (fun _ => Part.keyword_mem_before own) second

/-- A token is accepted if it is the next one, and then leaves what may come after it. -/
theorem accept {kind : TokenKind} (inside : kind ≠ .endOfInput)
    (opens : ∀ more, kind :: more ∈ whole ↔ more ∈ middle) {next : Bool → Parser β}
    (yes : (next true).Tracks cursor.advance middle rest)
    (no : cursor.kind ≠ kind → (next false).Tracks cursor whole rest) :
    (Parser.accept kind >>= next).Tracks cursor whole rest := by
  by_cases found : cursor.kind = kind
  · have same : (Parser.accept kind >>= next) cursor =
        (Parser.skip >>= fun _ => next true) cursor := by
      rw [bind_apply, bind_apply, accept_apply, if_pos found, skip_apply]
    rw [Tracks, same]
    exact skipTo found inside opens yes
  · exact look (by rw [accept_apply, if_neg found]) (no found)

/-- A token that may be left out is accepted if it is the next one. -/
theorem acceptOr {kind : TokenKind} (inside : kind ≠ .endOfInput)
    {other : Set (List TokenKind)} (apart : ∀ more, kind :: more ∉ other) {next : Bool → Parser β}
    (yes : (next true).Tracks cursor.advance middle rest)
    (no : (next false).Tracks cursor other rest) :
    (Parser.accept kind >>= next).Tracks cursor (other ∪ kind.before middle) rest := by
  refine accept inside (fun more => TokenKind.cons_mem_union (apart more)) yes fun different => ?_
  exact no.narrow Set.subset_union_left fun more => TokenKind.mem_of_cons_mem_union different

/-- A symbol that is expected leaves what may come after it. -/
theorem expect (symbol : Symbol) (place : Place) (some : rest.Nonempty) :
    (Parser.expect symbol place).Tracks cursor ((TokenKind.symbol symbol).before rest) rest := by
  by_cases found : cursor.kind = .symbol symbol
  · obtain ⟨token, kind, passes⟩ := Cursor.exists_passes_advance found (by simp)
    refine of_ok (by rw [expect_apply, if_pos found]) ⟨[token], passes, ?_, ?_⟩
    · intro more inside
      rw [List.map_singleton, kind]
      exact ⟨more, inside, rfl⟩
    · intro more inside
      rw [List.map_singleton, kind, List.singleton_append, TokenKind.cons_mem_before] at inside
      exact inside.2
  · refine of_error (by rw [expect_apply, if_neg found]) fun _ => ?_
    refine ⟨[], cursor, .refl cursor, rfl, TokenKind.before_nonempty _ some, fun more inside => ?_⟩
    exact found (TokenKind.cons_mem_before.mp inside).1

/-- A level of its own changes nothing, and an error about levels is not tracked. -/
theorem nested (tracks : parser.Tracks { cursor with depth := cursor.depth + 1 } whole rest) :
    (Parser.nested parser).Tracks cursor whole rest := by
  have unfolded : Parser.nested parser cursor = (enter >>= fun _ => do
      let result ← parser
      leave
      return result) cursor := rfl
  by_cases deep : maxNesting ≤ cursor.depth
  · rw [bind_apply, enter_apply, if_pos deep] at unfolded
    exact of_error unfolded fun blames => absurd blames SyntaxFault.nestingTooDeep_excused
  · rw [bind_apply, enter_apply, if_neg deep] at unfolded
    dsimp only at unfolded
    rw [bind_apply] at unfolded
    rcases ran : parser { cursor with depth := cursor.depth + 1 } with error | ⟨value, after⟩
    · rw [Tracks, ran] at tracks
      rw [ran] at unfolded
      refine of_error unfolded fun blames => ?_
      obtain ⟨taken, stuck, passes, blamed⟩ := tracks blames
      exact ⟨taken, stuck, ⟨passes.rest_eq, passes.inside⟩, blamed⟩
    · rw [Tracks, ran] at tracks
      rw [ran] at unfolded
      obtain ⟨taken, passes, left⟩ := tracks
      exact of_ok unfolded ⟨taken, ⟨passes.rest_eq, passes.inside⟩, left⟩

/-- Only what begins with the next two tokens matters where the next one is taken in any case. -/
theorem narrowTwo {part : Set (List TokenKind)} (tracks : parser.Tracks cursor part rest)
    (into : part ⊆ whole)
    (back : ∀ more, cursor.kind :: cursor.secondKind :: more ∈ whole →
      cursor.kind :: cursor.secondKind :: more ∈ part)
    (begins : ∃ more, cursor.kind :: more ∈ part) (ends : ∃ more ∈ rest, more ∉ part) :
    parser.Tracks cursor whole rest := by
  -- If a token is taken, the tokens up to the one after the last begin with the next two.
  have two {token : Token} {taken : List Token} {after : Cursor}
      (passes : cursor.Passes after (token :: taken)) (more : List TokenKind)
      (inside : (token :: taken).map Token.kind ++ after.kind :: more ∈ whole) :
      (token :: taken).map Token.kind ++ after.kind :: more ∈ part := by
    have later : cursor.advance.Passes after taken := by
      obtain ⟨previous, ahead, depth⟩ := cursor
      obtain rfl : ahead = token :: taken ++ after.rest := passes.rest_eq
      exact ⟨rfl, fun last => passes.inside (List.mem_cons_of_mem _ last)⟩
    obtain ⟨others, first⟩ := passes.exists_cons more
    obtain ⟨others', second⟩ := later.exists_cons more
    rw [cursor.kind_advance] at second
    rw [List.map_cons, List.cons_append, second] at first inside ⊢
    rw [(List.cons.inj first).1] at inside ⊢
    exact back others' inside
  rcases ran : parser cursor with error | ⟨value, after⟩
  · rw [Tracks, ran] at tracks
    refine of_error ran fun blames => ?_
    obtain ⟨taken, stuck, passes, span, ⟨more, viable⟩, dead⟩ := tracks blames
    refine ⟨taken, stuck, passes, span, ⟨more, into viable⟩, fun more inside => ?_⟩
    cases taken with
    | nil =>
      obtain ⟨others, viable'⟩ := begins
      have same : cursor.kind = stuck.kind := by
        obtain ⟨_, first⟩ := passes.exists_cons more
        exact (List.cons.inj first).1.symm
      exact dead others (same ▸ viable')
    | cons token others => exact dead more (two passes more inside)
  · rw [Tracks, ran] at tracks
    obtain ⟨taken, passes, inward, onward⟩ := tracks
    refine of_ok ran ⟨taken, passes, fun more inside => into (inward more inside), ?_⟩
    intro more inside
    cases taken with
    | nil =>
      obtain ⟨others, after', outside⟩ := ends
      exact absurd (inward others after') outside
    | cons token others => exact onward more (two passes more inside)

end Tracks

/-- A parser of a part takes it as the grammar allows, whatever may follow the part. -/
def Predicts (parser : Parser α) (part : Part) : Prop :=
  ∀ cursor rest, part.Admits rest → parser.Tracks cursor (part.before rest) rest

/-- A parser of a part that has to be written takes a token. -/
theorem Predicts.consumes {parser : Parser α} {part : Part} (predicts : parser.Predicts part)
    (solid : part.nullable = false) (cursor : Cursor) :
    parser.Ensures cursor fun _ after => after.rest.length < cursor.rest.length := by
  intro value after ran
  have admits : part.Admits {[]} := by
    refine ⟨⟨[], rfl⟩, ?_⟩
    rintro _ rfl
    exact part.absorbs_endOfInput
  have tracks := predicts cursor {[]} admits
  rw [Tracks, ran] at tracks
  obtain ⟨taken, passes, into, -⟩ := tracks
  obtain ⟨derivation, _, rfl, same⟩ := into [] rfl
  obtain ⟨kind, others, written, _⟩ := derivation.starts.exists_cons solid
  have lengths := congrArg List.length same
  rw [written, List.append_nil, List.append_nil, List.length_cons, List.length_map] at lengths
  rw [passes.rest_eq, List.length_append]
  omega

end Parser

end Waggle
