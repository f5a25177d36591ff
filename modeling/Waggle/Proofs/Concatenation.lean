import Waggle.Proofs.Acceptance
import Waggle.Proofs.Locality
import Waggle.Proofs.Location
import Waggle.Proofs.Relocation

/-!
# Scripts one after the other

Two scripts with a line feed between them are read as the statements of the first and then those of
the second, with the lines of the first counted above them (`compile_append`).

The lexemes of the two texts do not touch, because no lexeme goes on over a line feed. The first
program is read as if it ended there, since no statement looks further than to an `else`, which
does not begin a program; and where its last statement has ended, no level of nesting is open. The
second program is read from tokens that are some lines further down, and so its spans are.
-/

namespace Waggle

namespace Parser

/-! ### Programs one after the other -/

/-- Statements that were read up to one way to go on are read before the other one, and then reading
goes on there with what is left of the bound. -/
structure Resumes (S : Swap) (closing : TokenKind → Bool) (statement : Parser Stmt)
    (ahead : List Token) (cursor' : Cursor) (stmts : List Stmt) (after : Cursor) : Prop where
  /-- There are no more statements than tokens. -/
  few : stmts.length ≤ ahead.length
  /-- Further statements come after them. -/
  resume : ∃ after', S.Relates [] after after' ∧ ∀ more others last,
    statements closing statement more after' = .ok (others, last) →
    statements closing statement (stmts.length + more) cursor' = .ok (stmts ++ others, last)

/-- Where nothing was read, reading goes on. -/
theorem Resumes.nil {S : Swap} {closing : TokenKind → Bool} {statement : Parser Stmt}
    {ahead : List Token} {cursor cursor' : Cursor} (relates : S.Relates ahead cursor cursor')
    (ended : cursor.rest = S.rest) : Resumes S closing statement ahead cursor' [] cursor := by
  obtain rfl := relates.ahead_eq (show cursor.rest = [] ++ S.rest from ended)
  refine ⟨Nat.zero_le _, cursor', relates, fun more others last read => ?_⟩
  rw [List.length_nil, Nat.zero_add]
  exact read

/-- Reading goes on after statements that look no further than to an alternative. -/
theorem statements_resume {S : Swap} {statement : Parser Stmt}
    (reads : ∀ margin, Local S margin 2 statement) (closing : TokenKind → Bool) (count : Nat)
    {ahead : List Token} {cursor cursor' : Cursor} (relates : S.Relates ahead cursor cursor') :
    (statements closing statement count).Ensures cursor fun stmts after => after.rest = S.rest →
      Resumes S closing statement ahead cursor' stmts after := by
  induction count generalizing ahead cursor cursor' with
  | zero => exact .pure (.nil relates)
  | succ count ih =>
    refine .step (peek_apply cursor) ?_
    split
    · exact .pure (.nil relates)
    · rename_i further
      refine Ensures.bind (fun _ _ ran => ran) fun head between ran => ?_
      refine Ensures.bind (fun _ _ ran => ran) fun stmts after ended => .pure fun rest => ?_
      have some : after.rest ≠ [] := rest ▸ S.some
      obtain ⟨taken, -, split⟩ :=
        (statements_local closing (reads 1) count).consumes between stmts after ended some
      rw [rest] at split
      obtain ⟨between', ran', related⟩ :=
        (reads 0).follows ahead cursor cursor' relates head between ran taken (Nat.zero_le _) split
      obtain ⟨few, after', finished, resume⟩ := ih related stmts after ended rest
      -- A statement has consumed tokens, so the same one is next before both ways to go on.
      have positive : 0 < between.rest.length := by
        rw [split]
        exact List.length_pos_iff.mpr (List.append_ne_nil_of_right_ne_nil _ S.some)
      have consumed := (reads 0).length_le cursor head between ran positive
      rw [relates.rest_eq, split, List.length_append, List.length_append] at consumed
      have seen := (relates.next (by omega)).1
      refine ⟨by rw [List.length_cons]; omega, after', finished, fun more others last read => ?_⟩
      rw [List.length_cons, Nat.add_right_comm, statements_apply, seen, if_neg further, bind_apply,
        ran']
      dsimp only
      rw [bind_apply, resume more others last read]
      rfl

/-- The tokens of a script: some tokens and then the end of the input, which is not among them. -/
structure Complete (tokens : List Token) (finish : Token) : Prop where
  /-- The end of the input is not among the tokens. -/
  inside : ∀ token ∈ tokens, token.kind ≠ .endOfInput
  /-- The end of the input comes after them. -/
  ended : finish.kind = .endOfInput

/-- A program is its statements, up to the end of the input, with the span over them. -/
theorem program_apply (cursor : Cursor) :
    program cursor =
      match statements endsProgram (statement block) cursor.rest.length cursor with
      | .ok (stmts, after) =>
        .ok (⟨stmts, if stmts.isEmpty then cursor.span else cursor.span.merge after.previous⟩,
          after)
      | .error error => .error error := by
  unfold program
  rw [bind_apply, nextSpan_apply]
  dsimp only
  rw [bind_apply, remaining_apply]
  dsimp only
  rw [bind_apply]
  rcases statements endsProgram (statement block) cursor.rest.length cursor with
    error | ⟨stmts, after⟩
  · rfl
  · rfl

/-- The statements of a program are read as those. -/
theorem statements_of_program {cursor after : Cursor} {result : Program}
    (read : program cursor = .ok (result, after)) :
    statements endsProgram (statement block) cursor.rest.length cursor =
      .ok (result.stmts, after) := by
  rw [program_apply] at read
  split at read
  · rename_i found
    cases read
    exact found
  · cases read

/-- Statements that are read are those of a program. -/
theorem program_of_statements (cursor : Cursor) {after : Cursor} {stmts : List Stmt}
    (read : statements endsProgram (statement block) cursor.rest.length cursor =
      .ok (stmts, after)) :
    ∃ result, program cursor = .ok (result, after) ∧ result.stmts = stmts := by
  rw [program_apply, read]
  exact ⟨_, rfl, rfl⟩

/-- A script is read up to the end of the input, and does not begin as an alternative does. -/
theorem Complete.read {tokens : List Token} {finish : Token} (complete : Complete tokens finish)
    {span : Span} {stmts : List Stmt} {after : Cursor}
    (read : statements endsProgram (statement block) (tokens ++ [finish]).length
      ⟨span, tokens ++ [finish], 0⟩ = .ok (stmts, after)) :
    after.rest = [finish] ∧ after.depth = 0 ∧
      ((tokens ++ [finish]).map Token.kind).headD .endOfInput ≠ .keyword .elseWord := by
  have sound := statement_sound (blockWithin_sound maxNesting)
  obtain ⟨derived, consumed, -, -⟩ :=
    statements_sound sound endsProgram _ _ (Nat.zero_le _) stmts after read
  have ended : endsProgram after.kind = true :=
    statements_end sound rfl (tokens ++ [finish]).length ⟨span, tokens ++ [finish], 0⟩
      (Nat.zero_le _) (Nat.le_of_eq (List.length_map _)) stmts after read
  rw [endsProgram, decide_eq_true_eq, after.kind_eq] at ended
  -- The tokens that were read and those of the script end at the same place.
  have kinds : derived.written ++ after.kinds = tokens.map Token.kind ++ [.endOfInput] := by
    rw [← consumed.kinds_eq, ← complete.ended, Cursor.kinds, List.map_append, List.map_singleton]
  have inside : ∀ kind ∈ tokens.map Token.kind, decide (kind ≠ .endOfInput) = true := by
    simpa using complete.inside
  have written : derived.written = tokens.map Token.kind := by
    rw [← derived.takeWhile_written ended, kinds, List.takeWhile_append_of_pos inside]
    simp
  rw [written] at kinds
  have left : after.rest.map Token.kind = [.endOfInput] := List.append_cancel_left kinds
  refine ⟨?_, consumed.depth_eq, ?_⟩
  · obtain ⟨token, rest, -⟩ := List.map_eq_singleton_iff.mp left
    let S : Swap := ⟨[finish], [], by simp, by simp [complete.ended], by simp⟩
    have reads : Local S 1 2 (statement block) := statement_local (blockWithin_local maxNesting)
    obtain ⟨taken, -, split⟩ :=
      (statements_local endsProgram reads _).consumes _ _ _ read (by simp [rest])
    rw [rest] at split ⊢
    exact (List.append_inj' split rfl).2.symm
  · have starts := derived.starts
    rw [written] at starts
    rcases tokens with _ | ⟨token, more⟩
    · simp [complete.ended]
    · intro alternative
      rw [List.cons_append, List.map_cons, List.headD_cons] at alternative
      rw [List.map_cons, Part.Starts, alternative] at starts
      cases starts

/-- Before the first of some statements it does not matter what came before. -/
theorem statements_previous {closing : TokenKind → Bool} {statement : Parser Stmt}
    (fresh : Fresh statement) (count : Nat) (cursor : Cursor) (span : Span)
    (some : cursor.rest ≠ []) :
    (statements closing statement count).Ensures cursor fun stmts _ =>
      ∃ after, statements closing statement count { cursor with previous := span } =
        .ok (stmts, after) := by
  cases count with
  | zero => exact .pure ⟨_, rfl⟩
  | succ count =>
    have seen : ({ cursor with previous := span } : Cursor).kind = cursor.kind := rfl
    rw [statements_apply, seen]
    refine .step (peek_apply cursor) ?_
    split
    · exact .pure ⟨_, rfl⟩
    · intro stmts after ran
      refine ⟨after, ?_⟩
      rw [← ran]
      exact (fresh.bind _) cursor span some

/-- Programs one after the other are one program, whose statements are those of both. -/
theorem program_append {tokens tokens' : List Token} {finish finish' : Token}
    (complete : Complete tokens finish) (complete' : Complete tokens' finish') {one two : Program}
    {after after' : Cursor} {span : Span}
    (first : program (.start (tokens ++ [finish])) = .ok (one, after))
    (second : program ⟨span, tokens' ++ [finish'], 0⟩ = .ok (two, after')) :
    ∃ both last, program (.start (tokens ++ (tokens' ++ [finish']))) = .ok (both, last) ∧
      both.stmts = one.stmts ++ two.stmts := by
  have found := statements_of_program first
  have found' := statements_of_program second
  obtain ⟨rest, depth, -⟩ := complete.read found
  obtain ⟨rest', -, plain⟩ := complete'.read found'
  let S : Swap := ⟨[finish], tokens' ++ [finish'], by simp, by simp [complete.ended], plain⟩
  have reads (margin : Nat) : Local S margin 2 (statement block) :=
    statement_local (blockWithin_local maxNesting)
  have relates : S.Relates tokens (.start (tokens ++ [finish]))
      (.start (tokens ++ (tokens' ++ [finish']))) := ⟨rfl, rfl, rfl, rfl⟩
  obtain ⟨few, between, related, resume⟩ :=
    statements_resume reads endsProgram _ relates one.stmts after found rest
  obtain ⟨span', rfl⟩ : ∃ span', between = ⟨span', tokens' ++ [finish'], 0⟩ := by
    rcases between with ⟨span', ahead, levels⟩
    obtain rfl : ahead = tokens' ++ [finish'] := related.other_eq
    obtain rfl : levels = 0 := related.depth_eq.trans depth
    exact ⟨span', rfl⟩
  -- What is left of the bound is enough for the second program.
  obtain ⟨more, bound⟩ : ∃ more,
      (tokens ++ (tokens' ++ [finish'])).length = one.stmts.length + more ∧
        (tokens' ++ [finish']).length ≤ more := by
    rw [List.length_append]
    exact ⟨tokens.length - one.stmts.length + (tokens' ++ [finish']).length, by omega, by omega⟩
  have spare := statements_spare endsProgram (reads 1) _ more _ (Nat.le_refl _) bound.2 two.stmts
    after' found' (by simp [rest'])
  obtain ⟨last, again⟩ := statements_previous (statement_fresh block) more _ span' (by simp)
    two.stmts after' spare
  have whole := resume more two.stmts last again
  rw [← bound.1] at whole
  obtain ⟨both, read, stmts⟩ := program_of_statements (.start _) whole
  exact ⟨both, last, read, stmts⟩

end Parser

/-! ### Lines further down -/

namespace Position

/-- A position some lines further down. -/
def below (lines : Nat) (position : Position) : Position :=
  ⟨position.line + UInt32.ofNat lines, position.column⟩

/-- There are so many lines below a position. -/
def HasRoom (lines : Nat) (position : Position) : Prop := position.line.toNat + lines < 2 ^ 32

/-- Where there is room the line is counted up. -/
theorem HasRoom.line_below {lines : Nat} {position : Position} (room : position.HasRoom lines) :
    (position.below lines).line.toNat = position.line.toNat + lines := by
  unfold HasRoom at room
  rw [below, UInt32.toNat_add, UInt32.toNat_ofNat']
  omega

/-- The order of two positions is the same further down. -/
theorem below_le_below_iff {lines : Nat} {left right : Position} (room : left.HasRoom lines)
    (room' : right.HasRoom lines) : left.below lines ≤ right.below lines ↔ left ≤ right := by
  change (left.below lines).line < (right.below lines).line ∨
      ((left.below lines).line = (right.below lines).line ∧ left.column ≤ right.column) ↔
    left.line < right.line ∨ (left.line = right.line ∧ left.column ≤ right.column)
  rw [UInt32.lt_iff_toNat_lt, UInt32.lt_iff_toNat_lt, ← UInt32.toNat_inj, ← UInt32.toNat_inj,
    room.line_below, room'.line_below, Nat.add_lt_add_iff_right, Nat.add_right_cancel_iff]

/-- A text ends so many lines further down if it begins there. -/
theorem foldl_after_below (lines : Nat) (position : Position) (text : List Char) :
    text.foldl after (position.below lines) = (text.foldl after position).below lines := by
  induction text generalizing position with
  | nil => rfl
  | cons character rest ih =>
    have step : (position.below lines).after character =
        (position.after character).below lines := by
      unfold after
      split
      · rw [below, below, UInt32.add_assoc, UInt32.add_comm (UInt32.ofNat lines),
          ← UInt32.add_assoc]
      · rfl
    rw [List.foldl_cons, List.foldl_cons, step, ih]

/-- After a script and a line feed, there are the lines of the script above. -/
theorem past_feed (file : SourceFile) :
    past (file.text.toList ++ ['\n']) = first.below file.lineCount := by
  rw [past_concat, after, if_pos rfl, line_past, ← file.lineCount_eq, UInt32.add_comm]
  rfl

end Position

namespace Span

/-- A span some lines further down. -/
def below (lines : Nat) (span : Span) : Span := ⟨span.start.below lines, span.stop.below lines⟩

/-- There are so many lines below a span. -/
def HasRoom (lines : Nat) (span : Span) : Prop :=
  span.start.HasRoom lines ∧ span.stop.HasRoom lines

/-- A text that begins so many lines further down covers them. -/
theorem covering_below (lines : Nat) (position : Position) (text : List Char) :
    covering (position.below lines) text = (covering position text).below lines := by
  rw [covering, Position.foldl_after_below]
  rfl

end Span

/-- Spans are moved down by some lines. -/
def Relocation.below (lines : Nat) : Relocation where
  move := Span.below lines
  Covers := Span.HasRoom lines
  covers_merge first second := by
    refine ⟨?_, ?_⟩
    · change (if _ then _ else _ : Position).HasRoom lines
      split
      · exact first.1
      · exact second.1
    · change (if _ then _ else _ : Position).HasRoom lines
      split
      · exact second.2
      · exact first.2
  move_merge {left right} first second := by
    have start : (min left.start right.start).below lines =
        min (left.start.below lines) (right.start.below lines) := by
      change (if _ then _ else _ : Position).below lines = if _ then _ else _
      simp only [Position.below_le_below_iff first.1 second.1]
      split <;> rfl
    have stop : (max left.stop right.stop).below lines =
        max (left.stop.below lines) (right.stop.below lines) := by
      change (if _ then _ else _ : Position).below lines = if _ then _ else _
      simp only [Position.below_le_below_iff first.2 second.2]
      split <;> rfl
    rw [Span.merge, Span.below, start, stop]
    rfl

/-! ### Texts one after the other -/

/-- What goes on for as long as a property holds ends at a line feed without it. -/
theorem takeWhile_feed {holds : Char → Bool} (feed : holds '\n' = false) (text more : List Char) :
    (text ++ '\n' :: more).takeWhile holds = text.takeWhile holds ∧
      (text ++ '\n' :: more).dropWhile holds = text.dropWhile holds ++ '\n' :: more := by
  induction text with
  | nil => simp [feed]
  | cons character rest ih =>
    rw [List.cons_append, List.takeWhile_cons, List.takeWhile_cons, List.dropWhile_cons,
      List.dropWhile_cons]
    split
    · exact ⟨congrArg _ ih.1, ih.2⟩
    · exact ⟨rfl, rfl⟩

/-- A lexeme ends before a line feed. -/
theorem Lexeme.next_feed (character : Char) (rest more : List Char) :
    next character (rest ++ '\n' :: more) =
      ((next character rest).1, (next character rest).2 ++ '\n' :: more) := by
  obtain ⟨digits, afterDigits⟩ := takeWhile_feed (by decide : '\n'.isDigit = false) rest more
  obtain ⟨letters, afterLetters⟩ := takeWhile_feed (by decide : isNamePart '\n' = false) rest more
  unfold next
  rw [digits, afterDigits, letters, afterLetters]
  split
  · rfl
  · split
    · rfl
    · split
      · rfl
      · split
        · rcases rest with _ | ⟨second, others⟩
          · rfl
          · rw [List.cons_append]
            split
            · rename_i same
              cases same
              rfl
            · rename_i other
              split
              · rename_i same
                cases same
                exact absurd rfl (other _)
              · rfl
        · split <;> rfl

/-- The lexemes of texts with a line feed between them are those of both, with a blank between
them. -/
theorem lexemes_feed (text more : List Char) :
    lexemes (text ++ '\n' :: more) = lexemes text ++ .blank '\n' :: lexemes more := by
  fun_induction lexemes text with
  | case1 =>
    rw [List.nil_append, lexemes]
    rfl
  | case2 character rest ih =>
    rw [List.cons_append, lexemes, Lexeme.next_feed, ih]
    rfl

/-- The token of a lexeme that begins at a position. -/
def Lexeme.token? (position : Position) (lexeme : Lexeme) : Option Token :=
  lexeme.kind?.map fun kind =>
    ⟨kind, String.ofList lexeme.text, .covering position lexeme.text⟩

/-- The tokens of lexemes that begin at a position. -/
def tokensFrom : Position → List Lexeme → List Token
  | _, [] => []
  | position, lexeme :: rest =>
    (lexeme.token? position).toList ++
      tokensFrom (lexeme.text.foldl Position.after position) rest

/-- Tokens of lexemes one after the other are one after the other. -/
theorem tokensFrom_append (position : Position) (some more : List Lexeme) :
    tokensFrom position (some ++ more) = tokensFrom position some ++
      tokensFrom ((some.flatMap Lexeme.text).foldl Position.after position) more := by
  induction some generalizing position with
  | nil => rfl
  | cons lexeme rest ih =>
    rw [List.cons_append, tokensFrom, tokensFrom, ih, List.append_assoc, List.flatMap_cons,
      List.foldl_append]

/-- A token some lines further down. -/
def Token.below (lines : Nat) (token : Token) : Token :=
  { token with span := token.span.below lines }

/-- Lexemes that begin further down have their tokens there. -/
theorem tokensFrom_below (lines : Nat) (position : Position) (lexemes : List Lexeme) :
    tokensFrom (position.below lines) lexemes =
      (tokensFrom position lexemes).map (Token.below lines) := by
  induction lexemes generalizing position with
  | nil => rfl
  | cons lexeme rest ih =>
    rw [tokensFrom, tokensFrom, List.map_append, Position.foldl_after_below, ih, Lexeme.token?,
      Lexeme.token?, Span.covering_below]
    cases lexeme.kind? <;> rfl

/-- No lexeme is the end of the input. -/
theorem Lexeme.kind?_ne_endOfInput (lexeme : Lexeme) : lexeme.kind? ≠ some .endOfInput := by
  cases lexeme with
  | word characters =>
    rw [kind?]
    split <;> simp
  | _ => simp [kind?]

/-- The end of the input is not among the tokens of lexemes. -/
theorem complete_tokensFrom (start : Position) (lexemes : List Lexeme) (stop : Position) :
    Parser.Complete (tokensFrom start lexemes) (.endOfInput stop) := by
  refine ⟨?_, rfl⟩
  induction lexemes generalizing start with
  | nil => simp [tokensFrom]
  | cons lexeme rest ih =>
    intro token member
    rcases List.mem_append.mp member with first | others
    · obtain ⟨kind, found, rfl⟩ := Option.map_eq_some_iff.mp (Option.mem_toList.mp first)
      rintro rfl
      exact lexeme.kind?_ne_endOfInput found
    · exact ih _ token others

/-- The tokens of a text that begins at a position, and the end of the input. -/
def tokensOf (position : Position) (text : List Char) : List Token :=
  tokensFrom position (lexemes text) ++ [.endOfInput (text.foldl Position.after position)]

/-- A text that begins further down has its tokens there. -/
theorem tokensOf_below (lines : Nat) (position : Position) (text : List Char) :
    tokensOf (position.below lines) text = (tokensOf position text).map (Token.below lines) := by
  rw [tokensOf, tokensOf, tokensFrom_below, Position.foldl_after_below, List.map_append]
  rfl

/-- The tokens of texts with a line feed between them are those of both. -/
theorem tokensOf_feed (position : Position) (text more : List Char) :
    tokensOf position (text ++ '\n' :: more) = tokensFrom position (lexemes text) ++
      tokensOf ((text ++ ['\n']).foldl Position.after position) more := by
  rw [tokensOf, lexemes_feed, tokensFrom_append, text_lexemes, List.foldl_append, List.foldl_append,
    List.append_assoc]
  rfl

/-- Without errors, the tokens of lexemes are read and then the end of the input. -/
theorem SourceFile.readLexemes_clean (file : SourceFile) (position : Position)
    {lexemes : List Lexeme} (clean : ∀ lexeme ∈ lexemes, lexeme.error? = none) :
    file.readLexemes position .empty lexemes =
      ⟨tokensFrom position lexemes ++
        [.endOfInput ((lexemes.flatMap Lexeme.text).foldl Position.after position)], .empty⟩ := by
  induction lexemes generalizing position with
  | nil => rfl
  | cons lexeme rest ih =>
    obtain ⟨fine, others⟩ := List.forall_mem_cons.mp clean
    have noted : file.noted position .empty lexeme = .empty := by rw [SourceFile.noted, fine]
    rw [file.readLexemes_cons position rfl, noted, ih _ others, tokensFrom, List.flatMap_cons,
      List.foldl_append, List.append_assoc]
    rfl

/-- A script without lexical errors has no lexeme with one. -/
theorem SourceFile.clean_of_lex {file : SourceFile} (clean : file.lex.diagnostics = .empty) :
    ∀ lexeme ∈ lexemes file.text.toList, lexeme.error? = none := by
  have kept : Diagnostics.empty.Kept := ⟨rfl, by decide⟩
  have errors : file.lex.diagnostics.stored.map Diagnostic.site =
      errorSites .first (throughErrors 20 ((lexemes file.text.toList).map Lexeme.piece)) :=
    (file.readLexemes_continues (lexemes file.text.toList) .first .empty kept).errors
  have count := length_errorSites_throughErrors .first 20
    ((lexemes file.text.toList).map Lexeme.piece)
  rw [← errors, clean, List.countP_map] at count
  have zero : (lexemes file.text.toList).countP (Piece.isError ∘ Lexeme.piece) = 0 := by
    have none : (Diagnostics.empty.stored.map Diagnostic.site).length = 0 := rfl
    omega
  intro lexeme member
  have fine := List.countP_eq_zero.mp zero lexeme member
  rw [Function.comp_apply, Piece.isError, lexeme.errorCode?_piece, Option.isSome_map,
    Bool.not_eq_true, Option.isSome_eq_false_iff, Option.isNone_iff_eq_none] at fine
  exact fine

/-- A script without lexical errors is cut into the tokens of its text. -/
theorem SourceFile.tokens_of_lex {file : SourceFile} (clean : file.lex.diagnostics = .empty) :
    file.lex.tokens = tokensOf .first file.text.toList := by
  rw [lex, file.readLexemes_clean .first (clean_of_lex clean), text_lexemes, tokensOf]

/-- A script is read as a program exactly if it has no lexical errors and its tokens are read as
that. -/
theorem SourceFile.compile_eq_ok_iff (file : SourceFile) (program : Program) :
    file.compile = .ok program ↔
      (∀ lexeme ∈ lexemes file.text.toList, lexeme.error? = none) ∧
      ∃ after, Parser.program (.start (tokensOf .first file.text.toList)) =
        .ok (program, after) := by
  have lexed (clean : ∀ lexeme ∈ lexemes file.text.toList, lexeme.error? = none) :
      file.lex = ⟨tokensOf .first file.text.toList, .empty⟩ := by
    rw [lex, file.readLexemes_clean .first clean, text_lexemes, tokensOf]
  rcases file.compile_cases with ⟨some, refused⟩ | ⟨none, parsed⟩
  · rw [refused]
    refine ⟨nofun, ?_⟩
    rintro ⟨clean, -⟩
    rw [lexed clean] at some
    cases some
  · have clean := clean_of_lex none
    rw [parsed, parse_eq_ok_iff, lexed clean]
    exact ⟨fun read => ⟨clean, read⟩, fun read => read.2⟩

/-! ### Scripts further down -/

/-- Where a text has few line feeds, there is room below every position in it. -/
theorem Position.hasRoom_past {lines : Nat} {text more : List Char}
    (few : (text ++ more).count '\n' + lines + 1 < 2 ^ 32) : (past text).HasRoom lines := by
  have small := Nat.mod_le (text.count '\n' + 1) (2 ^ 32)
  rw [List.count_append] at few
  rw [HasRoom, line_past, UInt32.toNat_ofNat']
  omega

/-- Where a text has few line feeds, there is room below the tokens of its lexemes. -/
theorem hasRoom_tokensFrom {lines : Nat} {lexemes : List Lexeme} (text : List Char)
    (few : (text ++ lexemes.flatMap Lexeme.text).count '\n' + lines + 1 < 2 ^ 32) :
    ∀ token ∈ tokensFrom (.past text) lexemes, token.span.HasRoom lines := by
  induction lexemes generalizing text with
  | nil => simp [tokensFrom]
  | cons lexeme rest ih =>
    rw [List.flatMap_cons] at few
    intro token member
    rw [tokensFrom, ← Position.past_append] at member
    rcases List.mem_append.mp member with first | others
    · obtain ⟨kind, -, rfl⟩ := Option.map_eq_some_iff.mp (Option.mem_toList.mp first)
      refine ⟨Position.hasRoom_past few, ?_⟩
      -- The last character of a lexeme is at a position within the text too.
      obtain ⟨last, ends⟩ := lexeme.text.dropLast_prefix
      change Position.HasRoom lines (lexeme.text.dropLast.foldl Position.after (.past text))
      rw [← ends, List.append_assoc, ← List.append_assoc text] at few
      rw [← Position.past_append]
      exact Position.hasRoom_past few
    · rw [← List.append_assoc] at few
      exact ih _ few token others

/-- Where a text has few line feeds, there is room below its tokens. -/
theorem hasRoom_tokensOf {lines : Nat} {text : List Char}
    (few : text.count '\n' + lines + 1 < 2 ^ 32) :
    ∀ token ∈ tokensOf .first text, token.span.HasRoom lines := by
  intro token member
  rcases List.mem_append.mp member with inside | ended
  · rw [← text_lexemes text] at few
    exact hasRoom_tokensFrom [] few token inside
  · rw [← List.append_nil text] at few
    rw [List.mem_singleton.mp ended]
    exact ⟨Position.hasRoom_past few, Position.hasRoom_past few⟩

/-- A text of line feeds has no tokens. -/
theorem tokensOf_feeds {text : List Char} (feeds : ∀ character ∈ text, character = '\n')
    (position : Position) :
    tokensOf position text = [.endOfInput (text.foldl Position.after position)] := by
  induction text generalizing position with
  | nil =>
    rw [tokensOf, lexemes]
    rfl
  | cons character rest ih =>
    obtain ⟨rfl, others⟩ := List.forall_mem_cons.mp feeds
    rw [← List.nil_append ('\n' :: rest), tokensOf_feed, ih others, lexemes]
    rfl

/-- Before the end of the input nothing is read. -/
theorem Parser.program_nothing (span : Span) (position : Position) :
    program ⟨span, [.endOfInput position], 0⟩ =
      .ok (⟨[], .point position⟩, ⟨span, [.endOfInput position], 0⟩) := by
  rw [program_apply]
  rfl

/-- A text that begins some lines further down is read with its spans there, and they have room for
that if there are few enough lines. -/
theorem Parser.program_below {text : List Char} {lines : Nat}
    (short : lines + text.length < 2 ^ 32) {result : Program} {after : Cursor}
    (read : program (.start (tokensOf .first text)) = .ok (result, after)) :
    ∃ span moved after',
      program ⟨span, tokensOf (Position.first.below lines) text, 0⟩ = .ok (moved, after') ∧
      moved.stmts = relocateStmts (Span.below lines) result.stmts ∧
      ∀ span ∈ spansOfStmts result.stmts, span.HasRoom lines := by
  by_cases feeds : ∀ character ∈ text, character = '\n'
  · rw [tokensOf_feeds feeds, Cursor.start, program_nothing] at read
    cases read
    rw [tokensOf_feeds feeds]
    exact ⟨.point .first, _, _, program_nothing _ _, rfl, by simp [spansOfStmts]⟩
  · -- A character that is no line feed leaves room for one line more.
    have fewer : text.count '\n' < text.length := by
      refine Nat.lt_of_le_of_ne List.count_le_length fun same => feeds ?_
      exact fun character member => (List.count_eq_length.mp same character member).symm
    have few : text.count '\n' + lines + 1 < 2 ^ 32 := by omega
    have previous : (Span.point .first).HasRoom lines := by
      rw [← List.nil_append text] at few
      exact ⟨Position.hasRoom_past few, Position.hasRoom_past few⟩
    have tokens := hasRoom_tokensOf few
    have shifts : (Relocation.below lines).Shifts (.start (tokensOf .first text))
        ⟨(Span.point .first).below lines, tokensOf (Position.first.below lines) text, 0⟩ := by
      refine ⟨rfl, previous, ?_, rfl⟩
      rw [tokensOf_below]
      exact List.forall₂_map_right_iff.mpr (List.forall₂_same.mpr fun token member =>
        ⟨rfl, rfl, tokens token member⟩)
    have moves := program_moves _ _ shifts
    rw [read] at moves
    obtain ⟨-, after', moved, -⟩ := moves
    exact ⟨_, _, after', moved, rfl,
      program_covers (R := .below lines) (.start _) previous tokens result after read⟩

/-- Scripts that can be read are read one after the other with a line feed between them: the
statements are those of the first and then those of the second, with the lines of the first above
them, which is counted without an overflow. -/
theorem SourceFile.compile_append (one two : SourceFile) (name : String)
    (short : one.text.length + two.text.length < 2 ^ 32 - 1) {first second : Program}
    (read : one.compile = .ok first) (read' : two.compile = .ok second) :
    ∃ both, compile ⟨name, one.text ++ "\n" ++ two.text⟩ = .ok both ∧
      both.stmts = first.stmts ++ relocateStmts (Span.below one.lineCount) second.stmts ∧
      ∀ span ∈ spansOfStmts second.stmts,
        (span.below one.lineCount).start.line.toNat = span.start.line.toNat + one.lineCount ∧
        (span.below one.lineCount).stop.line.toNat = span.stop.line.toNat + one.lineCount := by
  obtain ⟨clean, after, ran⟩ := (one.compile_eq_ok_iff first).mp read
  obtain ⟨clean', after', ran'⟩ := (two.compile_eq_ok_iff second).mp read'
  have few : one.lineCount + two.text.toList.length < 2 ^ 32 := by
    have feeds := List.count_le_length (a := '\n') (l := one.text.toList)
    rw [String.length_toList] at feeds ⊢
    rw [lineCount_eq]
    omega
  obtain ⟨span, moved, last, below, stmts, room⟩ := Parser.program_below few ran'
  obtain ⟨both, last', whole, joined⟩ := Parser.program_append
    (complete_tokensFrom _ _ _) (complete_tokensFrom _ _ _) ran below
  have text : (one.text ++ "\n" ++ two.text).toList =
      one.text.toList ++ '\n' :: two.text.toList := by
    simp
  refine ⟨both, (compile_eq_ok_iff _ _).mpr ⟨?_, last', ?_⟩, by rw [joined, stmts], ?_⟩
  · dsimp only
    rw [text, lexemes_feed]
    intro lexeme member
    rcases List.mem_append.mp member with early | late
    · exact clean lexeme early
    · rcases List.mem_cons.mp late with rfl | later
      · rfl
      · exact clean' lexeme later
  · have start : (one.text.toList ++ ['\n']).foldl Position.after .first =
        Position.first.below one.lineCount := Position.past_feed one
    dsimp only
    rw [text, tokensOf_feed, start]
    exact whole
  · exact fun span member =>
      ⟨(room span member).1.line_below, (room span member).2.line_below⟩

/-- A branch that ends a script is not continued by an assignment that begins another one. -/
theorem SourceFile.compile_append_branch :
    ∃ first second both, compile ⟨"", "if (true) { }"⟩ = .ok first ∧
      compile ⟨"", "\nx = 1;"⟩ = .ok second ∧
      compile ⟨"", "if (true) { }" ++ "\n" ++ "\nx = 1;"⟩ = .ok both ∧
      both.stmts = first.stmts ++ relocateStmts (Span.below 1) second.stmts := by
  have reads (text : String) (accepted : (compile ⟨"", text⟩).isOk = true) :
      ∃ program, compile ⟨"", text⟩ = .ok program := by
    rcases read : compile ⟨"", text⟩ with _ | program
    · rw [read] at accepted
      cases accepted
    · exact ⟨program, rfl⟩
  obtain ⟨first, read⟩ := reads "if (true) { }" (by decide +kernel)
  obtain ⟨second, read'⟩ := reads "\nx = 1;" (by decide +kernel)
  obtain ⟨both, whole, stmts, -⟩ :=
    compile_append ⟨"", "if (true) { }"⟩ ⟨"", "\nx = 1;"⟩ "" (by decide +kernel) read read'
  exact ⟨first, second, both, read, read', whole, stmts⟩

end Waggle
