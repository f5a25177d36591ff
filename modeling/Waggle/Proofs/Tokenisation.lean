import Waggle.Proofs.MaximalMunch

/-!
# The tokens of a script

A script is read as the pieces of its text, up to and with the twentieth that is an error. Its
tokens are those of the pieces in their order, and its errors are those of the pieces where they
begin. With fewer errors all pieces are read, and they make up the whole text, so nothing of it is
lost.
-/

namespace Waggle

namespace Piece

/-- The token that a piece is read as; a number that is too large is read as zero. -/
def token? : Piece → Option (TokenKind × List Char)
  | .token kind text => some (kind, text)
  | .oversized text => some (.number 0, text)
  | .blank _ | .stray _ => none

/-- The code of the error that a piece is. -/
def errorCode? : Piece → Option ErrorCode
  | .stray _ => some ⟨100⟩
  | .oversized _ => some ⟨101⟩
  | .blank _ | .token _ _ => none

/-- Whether a piece is an error. -/
def isError (piece : Piece) : Bool := piece.errorCode?.isSome

end Piece

/-- Pieces up to and with the last error of a number that are kept. -/
def throughErrors : (kept : Nat) → List Piece → List Piece
  | 0, _ => []
  | _ + 1, [] => []
  | kept + 1, piece :: rest =>
    piece :: throughErrors (if piece.isError then kept else kept + 1) rest

/-- The codes of the errors among pieces that begin at a position, each with where it begins. -/
def errorSites : Position → List Piece → List (Position × ErrorCode)
  | _, [] => []
  | position, piece :: rest =>
    (piece.errorCode?.map (position, ·)).toList ++
      errorSites (piece.text.foldl Position.after position) rest

/-- What a token is, with its text. -/
def Token.reading (token : Token) : TokenKind × List Char := (token.kind, token.text.toList)

/-- Where a diagnostic begins, with its code. -/
def Diagnostic.site (diagnostic : Diagnostic) : Position × ErrorCode :=
  (diagnostic.span.start, diagnostic.code)

/-- The pieces of a text are what has been read of it. -/
structure Lexing.Follows (lexing : Lexing) (source : List Char) (pieces : List Piece) : Prop where
  /-- The tokens are those of the pieces through the twentieth error, and the end of the input. -/
  tokens : lexing.tokens.map Token.reading =
    (throughErrors 20 pieces).filterMap Piece.token? ++ [(.endOfInput, [])]
  /-- No other token is the end of the input. -/
  oneEnd : (lexing.tokens.map Token.kind).count .endOfInput = 1
  /-- The errors are those of the pieces, in the order of the text. -/
  errors : lexing.diagnostics.stored.map Diagnostic.site =
    errorSites .first (throughErrors 20 pieces)
  /-- Of the errors in the text at most twenty are found. -/
  found : lexing.diagnostics.stored.length = min 20 (pieces.countP Piece.isError)
  /-- Every error that is found is kept. -/
  total : lexing.diagnostics.total.toNat = lexing.diagnostics.stored.length
  /-- With fewer than twenty errors every piece is read, and the pieces make up the text. -/
  lossless : pieces.countP Piece.isError < 20 →
    throughErrors 20 pieces = pieces ∧ pieces.flatMap Piece.text = source

/-- A lexeme and the piece that it is have the same characters. -/
theorem Lexeme.text_piece (lexeme : Lexeme) : lexeme.piece.text = lexeme.text := by
  cases lexeme with
  | word characters =>
    dsimp only [piece]
    cases Keyword.ofSpelling? (String.ofList characters) <;> rfl
  | _ => rfl

/-- A lexeme and the piece that it is are read as the same token. -/
theorem Lexeme.token?_piece (lexeme : Lexeme) :
    lexeme.piece.token? = lexeme.kind?.map (·, lexeme.text) := by
  cases lexeme with
  | word characters =>
    dsimp only [piece, kind?]
    cases Keyword.ofSpelling? (String.ofList characters) <;> rfl
  | _ => rfl

/-- A lexeme and the piece that it is are the same error. -/
theorem Lexeme.errorCode?_piece (lexeme : Lexeme) :
    lexeme.piece.errorCode? = lexeme.error?.map LexicalError.code := by
  cases lexeme with
  | word characters =>
    dsimp only [piece]
    cases Keyword.ofSpelling? (String.ofList characters) <;> rfl
  | _ => rfl

/-- The errors that are known after a lexeme at a position. -/
def SourceFile.noted (file : SourceFile) (position : Position) (before : Diagnostics)
    (lexeme : Lexeme) : Diagnostics :=
  match lexeme.error? with
  | some error =>
    before.push (file.diagnose error.code error.message (.covering position lexeme.text))
  | none => before

/-- Where there is room for an error, a lexeme is read and then the lexemes after it. -/
theorem SourceFile.readLexemes_cons (file : SourceFile) (position : Position)
    {before : Diagnostics} (room : before.isFull = false) (lexeme : Lexeme)
    (rest : List Lexeme) :
    file.readLexemes position before (lexeme :: rest) =
      let lexing := file.readLexemes (lexeme.text.foldl Position.after position)
        (file.noted position before lexeme) rest
      ⟨(lexeme.kind?.map fun kind =>
        ⟨kind, String.ofList lexeme.text, .covering position lexeme.text⟩).toList ++ lexing.tokens,
        lexing.diagnostics⟩ := by
  rw [readLexemes, if_neg (by simp [room])]
  cases lexeme.kind? <;> rfl

/-- What reading finds from a position on, after the errors before it. -/
structure Lexing.Continues (lexing : Lexing) (position : Position) (before : Diagnostics)
    (kept : List Piece) : Prop where
  /-- The tokens are those of the pieces, and the end of the input. -/
  tokens : lexing.tokens.map Token.reading =
    kept.filterMap Piece.token? ++ [(.endOfInput, [])]
  /-- The errors are those before and those of the pieces. -/
  errors : lexing.diagnostics.stored.map Diagnostic.site =
    before.stored.map Diagnostic.site ++ errorSites position kept
  /-- Every error is kept. -/
  total : lexing.diagnostics.total.toNat = lexing.diagnostics.stored.length

/-- Errors that are all kept, with room left or none. -/
structure Diagnostics.Kept (diagnostics : Diagnostics) : Prop where
  /-- Every error is kept. -/
  total : diagnostics.total.toNat = diagnostics.stored.length
  /-- There are no more than are kept. -/
  few : diagnostics.stored.length ≤ 20

/-- There are fewer errors than are kept where there is room for another one. -/
theorem Diagnostics.Kept.lt_of_room {diagnostics : Diagnostics} (kept : diagnostics.Kept)
    (room : diagnostics.isFull = false) : diagnostics.stored.length < 20 := by
  rw [isFull, decide_eq_false_iff_not, kept.total] at room
  exact not_le.mp room

/-- An error is kept where there is room for it. -/
theorem Diagnostics.Kept.push {diagnostics : Diagnostics} (kept : diagnostics.Kept)
    (room : diagnostics.isFull = false) (diagnostic : Diagnostic) :
    (diagnostics.push diagnostic).Kept ∧
      (diagnostics.push diagnostic).stored = diagnostics.stored ++ [diagnostic] := by
  have less := kept.lt_of_room room
  have stored : (diagnostics.push diagnostic).stored = diagnostics.stored ++ [diagnostic] :=
    if_pos less
  refine ⟨⟨?_, ?_⟩, stored⟩
  · have total := kept.total
    rw [stored, List.length_append, List.length_singleton]
    change (diagnostics.total + 1).toNat = _
    rw [UInt64.toNat_add, UInt64.toNat_one]
    omega
  · rw [stored, List.length_append, List.length_singleton]
    omega

/-- A step of reading goes on from the errors that it notes. -/
theorem SourceFile.noted_kept (file : SourceFile) (position : Position) {before : Diagnostics}
    (kept : before.Kept) (room : before.isFull = false) (lexeme : Lexeme) :
    (file.noted position before lexeme).Kept ∧
      (file.noted position before lexeme).stored.map Diagnostic.site =
        before.stored.map Diagnostic.site ++
          (lexeme.piece.errorCode?.map (position, ·)).toList := by
  rw [lexeme.errorCode?_piece, noted]
  rcases lexeme.error? with _ | error
  · exact ⟨kept, by simp⟩
  · obtain ⟨still, stored⟩ := kept.push room
      (file.diagnose error.code error.message (.covering position lexeme.text))
    refine ⟨still, ?_⟩
    rw [stored, List.map_append]
    rfl

/-- A lexeme in front of what is read adds its token and its error. -/
theorem Lexing.Continues.step {file : SourceFile} {lexing : Lexing} {position : Position}
    {before : Diagnostics} {lexeme : Lexeme} {kept : List Piece}
    (tail : lexing.Continues (lexeme.text.foldl Position.after position)
      (file.noted position before lexeme) kept)
    (sites : (file.noted position before lexeme).stored.map Diagnostic.site =
      before.stored.map Diagnostic.site ++ (lexeme.piece.errorCode?.map (position, ·)).toList) :
    Lexing.Continues ⟨(lexeme.kind?.map fun kind =>
      ⟨kind, String.ofList lexeme.text, .covering position lexeme.text⟩).toList ++ lexing.tokens,
      lexing.diagnostics⟩ position before (lexeme.piece :: kept) where
  tokens := by
    rw [List.map_append, tail.tokens, List.filterMap_cons, lexeme.token?_piece]
    rcases lexeme.kind? with _ | kind
    · rfl
    · simp [Token.reading]
  errors := by
    rw [tail.errors, sites, errorSites, lexeme.text_piece, List.append_assoc]
  total := tail.total

/-- No piece is kept where no error may be found. -/
@[simp] theorem throughErrors_nil (kept : Nat) : throughErrors kept [] = [] := by
  cases kept <;> rfl

/-- Reading lexemes finds their pieces, as long as there is room for errors. -/
theorem SourceFile.readLexemes_continues (file : SourceFile) (lexemes : List Lexeme)
    (position : Position) (before : Diagnostics) (kept : before.Kept) :
    (file.readLexemes position before lexemes).Continues position before
      (throughErrors (20 - before.stored.length) (lexemes.map Lexeme.piece)) := by
  induction lexemes generalizing position before with
  | nil =>
    rw [List.map_nil, throughErrors_nil]
    exact ⟨rfl, (List.append_nil _).symm, kept.total⟩
  | cons lexeme rest ih =>
    rcases full : before.isFull with _ | _
    · obtain ⟨still, sites⟩ := file.noted_kept position kept full lexeme
      have tail := ih (lexeme.text.foldl Position.after position) _ still
      have less : before.stored.length < 20 := kept.lt_of_room full
      obtain ⟨room, left⟩ : ∃ room, 20 - before.stored.length = room + 1 :=
        Nat.exists_eq_add_one.mpr (Nat.sub_pos_of_lt less)
      have spent : 20 - (file.noted position before lexeme).stored.length =
          if lexeme.piece.isError then room else room + 1 := by
        have count := congrArg List.length sites
        simp only [List.length_map, List.length_append] at count
        rw [count, Piece.isError]
        cases lexeme.piece.errorCode? <;> simp <;> omega
      rw [spent] at tail
      rw [file.readLexemes_cons position full, List.map_cons, left, throughErrors]
      exact tail.step sites
    · rw [readLexemes, if_pos full]
      rw [Diagnostics.isFull, decide_eq_true_eq, kept.total] at full
      have none : 20 - before.stored.length = 0 := Nat.sub_eq_zero_of_le full
      rw [none, throughErrors]
      exact ⟨rfl, (List.append_nil _).symm, kept.total⟩

/-- As many errors are kept as there are, up to the limit. -/
theorem length_errorSites_throughErrors (position : Position) (limit : Nat)
    (pieces : List Piece) :
    (errorSites position (throughErrors limit pieces)).length =
      min limit (pieces.countP Piece.isError) := by
  induction pieces generalizing position limit with
  | nil => simp [errorSites]
  | cons piece rest ih =>
    cases limit with
    | zero => simp [throughErrors, errorSites]
    | succ limit =>
      rw [throughErrors, errorSites, List.length_append, ih, List.countP_cons, Piece.isError]
      cases piece.errorCode? with
      | none => simp
      | some code =>
        simp only [Option.map_some, Option.toList_some, List.length_singleton, Option.isSome_some,
          if_true]
        omega

/-- Where fewer errors are found than are kept, every piece is. -/
theorem throughErrors_of_lt {limit : Nat} {pieces : List Piece}
    (few : pieces.countP Piece.isError < limit) : throughErrors limit pieces = pieces := by
  induction pieces generalizing limit with
  | nil => exact throughErrors_nil limit
  | cons piece rest ih =>
    obtain ⟨room, rfl⟩ : ∃ room, limit = room + 1 := Nat.exists_eq_add_one.mpr (by omega)
    rw [List.countP_cons] at few
    rw [throughErrors, ih]
    split <;> simp_all

/-- The pieces that are kept are the first of all. -/
theorem isPrefix_throughErrors (limit : Nat) (pieces : List Piece) :
    throughErrors limit pieces <+: pieces := by
  induction pieces generalizing limit with
  | nil => simp
  | cons piece rest ih =>
    cases limit with
    | zero => exact List.nil_prefix
    | succ limit => exact List.cons_prefix_cons.mpr ⟨rfl, ih _⟩

/-- No piece of a text is the end of the input. -/
theorem Munched.token_ne_end {source : List Char} {pieces : List Piece}
    (munched : Munched source pieces) :
    ∀ piece ∈ pieces, ∀ reading ∈ piece.token?, reading.1 ≠ .endOfInput := by
  induction munched with
  | done => simp
  | next cut _ ih =>
    refine List.forall_mem_cons.mpr ⟨?_, ih⟩
    intro reading found
    cases cut with
    | blank _ _ | stray _ _ _ => cases found
    | token _ read _ => cases read <;> cases found <;> simp

/-- Tokens that are read from the first pieces of a text are the end of the input once. -/
theorem Munched.count_end {source : List Char} {pieces kept : List Piece} {tokens : List Token}
    (munched : Munched source pieces) (first : kept <+: pieces)
    (read : tokens.map Token.reading = kept.filterMap Piece.token? ++ [(.endOfInput, [])]) :
    (tokens.map Token.kind).count .endOfInput = 1 := by
  have none : TokenKind.endOfInput ∉ (kept.filterMap Piece.token?).map Prod.fst := by
    intro found
    obtain ⟨reading, listed, same⟩ := List.mem_map.mp found
    obtain ⟨piece, member, token⟩ := List.mem_filterMap.mp listed
    exact munched.token_ne_end piece (first.subset member) reading token same
  have kinds : tokens.map Token.kind =
      (kept.filterMap Piece.token?).map Prod.fst ++ [.endOfInput] := by
    calc
      tokens.map Token.kind = (tokens.map Token.reading).map Prod.fst := by
        rw [List.map_map]
        rfl
      _ = (kept.filterMap Piece.token?).map Prod.fst ++ [.endOfInput] := by
        rw [read, List.map_append, List.map_singleton]
  rw [kinds, List.count_append, List.count_eq_zero.mpr none, List.count_singleton_self]

/-- A script is read by maximal munch. Its text has exactly one list of pieces, each the longest
that can begin where it does, and what is read of the script follows these pieces. -/
theorem SourceFile.lex_follows_munch (file : SourceFile) :
    ∃ pieces, Munched file.text.toList pieces ∧
      (∀ other, Munched file.text.toList other → other = pieces) ∧
      file.lex.Follows file.text.toList pieces := by
  have munched := munched_lexemes file.text.toList
  refine ⟨_, munched, fun other same => same.unique munched, ?_⟩
  have kept : Diagnostics.empty.Kept := ⟨rfl, by decide⟩
  have reading := file.readLexemes_continues (lexemes file.text.toList) .first .empty kept
  have errors : file.lex.diagnostics.stored.map Diagnostic.site =
      errorSites .first (throughErrors 20 ((lexemes file.text.toList).map Lexeme.piece)) :=
    reading.errors
  have found : file.lex.diagnostics.stored.length =
      min 20 (((lexemes file.text.toList).map Lexeme.piece).countP Piece.isError) := by
    rw [← length_errorSites_throughErrors .first 20, ← errors, List.length_map]
  exact {
    tokens := reading.tokens
    oneEnd := munched.count_end (isPrefix_throughErrors _ _) reading.tokens
    errors
    found
    total := reading.total
    lossless := fun few => ⟨throughErrors_of_lt few, munched.text⟩ }

end Waggle
