import Waggle.Proofs.Placement

/-!
# Spans point at the text that they are about

A position counts line feeds and the characters since the last of them, and a script is shown line
by line, each line without the carriage returns at its end. Both agree: the position after the
beginning of a script is on its last line, after all characters of that line (`ends_past`). So a
text without blanks that follows there is found on that line between the columns that it covers,
since no line feed divides it and the carriage returns that are cut off come after it
(`shows_covering`).

Of the lexemes of a script only the first are read if there are many errors. What is said of the
tokens and errors of any lexemes is therefore said of all that are read (`lex_reads`).
-/

namespace Waggle

/-! ### Lines -/

/-- A text has a last line, with one line before it for each line feed. -/
theorem exists_splitLines (text : List Char) :
    ∃ early last, splitLines text = early ++ [last] ∧ early.length = text.count '\n' := by
  have length := length_splitLines text
  obtain ⟨early, last, split⟩ := (List.eq_nil_or_concat (splitLines text)).resolve_left
    (List.ne_nil_of_length_eq_add_one length)
  rw [List.concat_eq_append] at split
  rw [split, List.length_append, List.length_singleton] at length
  exact ⟨early, last, split, Nat.add_right_cancel length⟩

/-- The carriage returns at the end of a line come after its last other character. -/
theorem trimReturns_append {line : List Char} (solid : line.getLast? ≠ some '\r')
    (some : line ≠ []) (more : List Char) :
    trimReturns (line ++ more) = line ++ trimReturns more := by
  obtain ⟨early, last, rfl⟩ := (List.eq_nil_or_concat line).resolve_left some
  rw [List.concat_eq_append, List.getLast?_concat] at solid
  have stays : ((early.concat last).reverse).dropWhile (· == '\r') =
      (early.concat last).reverse := by
    have other : (last == '\r') = false := by simpa using solid
    rw [List.concat_eq_append, List.reverse_append, List.reverse_singleton, List.singleton_append,
      List.dropWhile_cons, other]
    rfl
  unfold trimReturns
  rw [List.reverse_append, List.dropWhile_append]
  split
  · rename_i none
    rw [stays, List.isEmpty_iff.mp none]
    simp
  · simp

/-- A position is just after a text: on its last line, after all characters of that line. -/
structure Position.Ends (position : Position) (text : List Char) : Prop where
  /-- The line is the last one. -/
  line : position.line.toNat = (splitLines text).length
  /-- The column is the one after the last character of the line. -/
  column : position.column.toNat = ((splitLines text).getLastD []).length + 1

/-- The position after a text that begins a script is just after it. -/
theorem Position.ends_past {text : List Char} (short : text.length < 2 ^ 32 - 1) :
    (past text).Ends text := by
  refine ⟨by rw [toNat_line_past short, length_splitLines], ?_⟩
  induction text using List.reverseRecOn with
  | nil => rfl
  | append_singleton text character ih =>
    rw [List.length_append, List.length_singleton] at short
    have column := ih (by omega)
    obtain ⟨early, last, split, -⟩ := exists_splitLines text
    rw [split, List.getLastD_concat] at column
    rw [past_concat, after]
    split
    · rename_i feed
      subst feed
      have two : splitLines ['\n'] = [] :: [[]] := rfl
      rw [splitLines_append split two, List.append_cons, List.getLastD_concat]
      rfl
    · rename_i other
      have one : splitLines [character] = [[character]] := splitLines_cons other rfl
      have bound : (past text).column.toNat + text.count '\n' ≤ text.length + 1 :=
        toNat_column_past (by omega)
      dsimp only
      rw [splitLines_append split one, List.getLastD_concat, UInt32.toNat_add, UInt32.toNat_one,
        column, List.length_append, List.length_singleton]
      omega

/-! ### Columns -/

/-- The characters of a line from one column to another, both counted from one. -/
def columns (line : String) (first last : Nat) : List Char :=
  (line.toList.take last).drop (first - 1)

/-- A span is on one line of a script, and a text is what this line has in its columns. -/
structure SourceFile.Shows (file : SourceFile) (span : Span) (text : List Char) : Prop where
  /-- The span ends on the line on which it begins. -/
  oneLine : span.stop.line = span.start.line
  /-- It begins at a column and does not end before it. -/
  forward : 1 ≤ span.start.column.toNat ∧ span.start.column.toNat ≤ span.stop.column.toNat
  /-- The script has the line, which is long enough and has the text there. -/
  onLine : ∃ line, file.line? span.start.line = some line ∧
    span.stop.column.toNat ≤ line.length ∧
    columns line span.start.column.toNat span.stop.column.toNat = text

/-- The line of a script on which a text without line feeds stands, up to the carriage returns at
its end. -/
theorem SourceFile.line?_past {file : SourceFile} (short : file.text.length < 2 ^ 32 - 1)
    {before text after : List Char} (whole : before ++ (text ++ after) = file.text.toList)
    (some : text ≠ []) (visible : ∀ character ∈ text, character ∉ blanks)
    {early : List (List Char)} {last : List Char} (split : splitLines before = early ++ [last]) :
    ∃ more, file.line? (Position.past before).line =
      .some (String.ofList (last ++ (text ++ more))) := by
  have single : splitLines text = [text] :=
    splitLines_of_not_mem fun feed => visible '\n' feed (by decide)
  obtain ⟨first, late, next⟩ := exists_splitLines_cons after
  have inner : splitLines (text ++ after) = (text ++ first) :: late :=
    splitLines_append (show splitLines text = [] ++ [text] from single) next
  have lines := splitLines_append split inner
  have fits : before.length < 2 ^ 32 - 1 := by
    have length := congrArg List.length whole
    rw [List.length_append, String.length_toList] at length
    omega
  have number : (Position.past before).line.toNat = early.length + 1 := by
    rw [(Position.ends_past fits).line, split, List.length_append, List.length_singleton]
  have nonzero : (Position.past before).line ≠ 0 := by
    intro zero
    rw [zero] at number
    cases number
  have solid : (last ++ text).getLast? ≠ .some '\r' := by
    intro returns
    rw [List.getLast?_append_of_ne_nil _ some] at returns
    exact visible '\r' (List.mem_of_getLast? returns) (by decide)
  refine ⟨trimReturns first, ?_⟩
  rw [line?_eq, if_neg nonzero, SourceFile.lines, ← whole, lines, number, List.getElem?_map,
    Nat.add_sub_cancel, List.getElem?_append_right (Nat.le_refl _), Nat.sub_self,
    List.getElem?_cons_zero, Option.map_some, ← List.append_assoc,
    trimReturns_append solid (List.append_ne_nil_of_right_ne_nil _ some), List.append_assoc]

/-- A text without blanks is shown where it stands in a script. -/
theorem SourceFile.shows_covering {file : SourceFile} (short : file.text.length < 2 ^ 32 - 1)
    {before text after : List Char} (whole : before ++ (text ++ after) = file.text.toList)
    (some : text ≠ []) (visible : ∀ character ∈ text, character ∉ blanks) :
    file.Shows (.covering (.past before) text) text := by
  obtain ⟨early, last, split, -⟩ := exists_splitLines before
  obtain ⟨more, line⟩ := line?_past short whole some visible split
  have length := congrArg List.length whole
  rw [List.length_append, List.length_append, String.length_toList] at length
  have positive : 0 < text.length := List.length_pos_iff.mpr some
  -- The last character of the text comes after the line before it and the rest of the text.
  have front : splitLines (before ++ text.dropLast) = early ++ [last ++ text.dropLast] := by
    refine splitLines_append split (splitLines_of_not_mem fun feed => ?_)
    exact visible '\n' (List.dropLast_subset _ feed) (by decide)
  have start := Position.ends_past (show before.length < 2 ^ 32 - 1 by omega)
  have stop := Position.ends_past (show (before ++ text.dropLast).length < 2 ^ 32 - 1 by
    rw [List.length_append, List.length_dropLast]
    omega)
  have startColumn : (Position.past before).column.toNat = last.length + 1 := by
    rw [start.column, split, List.getLastD_concat]
  have stopColumn : (Position.past (before ++ text.dropLast)).column.toNat =
      last.length + text.length := by
    rw [stop.column, front, List.getLastD_concat, List.length_append, List.length_dropLast]
    omega
  have sameLine : (Position.past (before ++ text.dropLast)).line = (Position.past before).line := by
    rw [← UInt32.toNat_inj, start.line, stop.line, front, split]
    simp
  rw [Position.past_append] at stopColumn sameLine
  refine ⟨sameLine, ?_, _, line, ?_, ?_⟩
  · simp only [Span.covering]
    omega
  · simp only [Span.covering, stopColumn, String.length_ofList, List.length_append]
    omega
  · simp only [Span.covering, startColumn, stopColumn, columns, String.toList_ofList]
    rw [Nat.add_sub_cancel, ← List.append_assoc, List.take_left' (List.length_append ..),
      List.drop_left]

/-! ### Lexemes -/

/-- No blank is in a piece that is a token. -/
theorem Cut.visible {source rest : List Char} {piece : Piece} (cut : Cut source rest piece)
    (token : piece.token?.isSome = true) : ∀ character ∈ piece.text, character ∉ blanks := by
  cases cut with
  | blank _ _ | stray _ _ _ => cases token
  | token _ read _ =>
    have visible := read.tokenText.visible
    cases read <;> exact visible

/-- A lexeme is a piece of some text. -/
def Lexeme.IsCut (lexeme : Lexeme) : Prop := ∃ source rest, Cut source rest lexeme.piece

/-- Every lexeme of a text is a piece. -/
theorem isCut_of_mem_lexemes {text : List Char} : ∀ lexeme ∈ lexemes text, lexeme.IsCut := by
  fun_induction lexemes text with
  | case1 => exact List.forall_mem_nil _
  | case2 character rest ih =>
    exact List.forall_mem_cons.mpr ⟨⟨_, _, Lexeme.cut_next character rest⟩, ih⟩

namespace Lexeme.IsCut

/-- A character outside the language is no blank, and no token has its text. -/
theorem stray {character : Char} (cut : (Lexeme.stray character).IsCut) :
    character ∉ blanks ∧ ¬IsTokenText [character] := by
  obtain ⟨source, rest, cut⟩ := cut
  cases cut with
  | token _ read _ => cases read
  | stray begins visible outside =>
    exact ⟨visible, outside [character] (begins ▸ List.prefix_append [character] rest)⟩

/-- The digits of a number out of range denote one. -/
theorem oversized {digits : List Char} (cut : (Lexeme.oversized digits).IsCut) :
    IsNumeral digits ∧ Integer.greatest < decimal digits := by
  obtain ⟨source, rest, cut⟩ := cut
  cases cut with
  | token _ read _ =>
    cases read with
    | oversized numeral large => exact ⟨numeral, large⟩

/-- No blank is in a lexeme that is a token. -/
theorem visible {lexeme : Lexeme} (cut : lexeme.IsCut) {kind : TokenKind}
    (found : lexeme.kind? = some kind) : ∀ character ∈ lexeme.text, character ∉ blanks := by
  obtain ⟨source, rest, cut⟩ := cut
  rw [← lexeme.text_piece]
  refine cut.visible ?_
  rw [lexeme.token?_piece, found, Option.map_some, Option.isSome_some]

end Lexeme.IsCut

/-- Lexemes from a position on, each with where it begins. -/
def placed : Position → List Lexeme → List (Position × Lexeme)
  | _, [] => []
  | position, lexeme :: rest =>
    (position, lexeme) :: placed (lexeme.text.foldl Position.after position) rest

/-- A lexeme begins after the lexemes before it. -/
theorem exists_of_mem_placed (text : List Char) {lexemes : List Lexeme} {position : Position}
    {lexeme : Lexeme} (member : (position, lexeme) ∈ placed (.past text) lexemes) :
    ∃ early late, lexemes = early ++ lexeme :: late ∧
      position = .past (text ++ early.flatMap Lexeme.text) := by
  induction lexemes generalizing text with
  | nil => cases member
  | cons head rest ih =>
    rcases List.mem_cons.mp member with same | later
    · cases same
      exact ⟨[], rest, rfl, by simp⟩
    · rw [← Position.past_append] at later
      obtain ⟨early, late, rfl, rfl⟩ := ih _ later
      exact ⟨head :: early, late, rfl, by simp⟩

/-- A lexeme with a place is among the lexemes. -/
theorem mem_of_mem_placed {start position : Position} {lexemes : List Lexeme} {lexeme : Lexeme}
    (member : (position, lexeme) ∈ placed start lexemes) : lexeme ∈ lexemes := by
  induction lexemes generalizing start with
  | nil => cases member
  | cons head rest ih =>
    rcases List.mem_cons.mp member with same | later
    · cases same
      exact List.mem_cons_self
    · exact List.mem_cons_of_mem head (ih later)

/-- The tokens of lexemes are those of the lexemes where they begin. -/
theorem tokensFrom_eq_filterMap (position : Position) (lexemes : List Lexeme) :
    tokensFrom position lexemes =
      (placed position lexemes).filterMap fun item => item.2.token? item.1 := by
  induction lexemes generalizing position with
  | nil => rfl
  | cons lexeme rest ih =>
    rw [tokensFrom, placed, List.filterMap_cons, ih]
    dsimp only
    cases lexeme.token? position <;> rfl

/-- What is wrong with a lexeme that begins at a position. -/
def SourceFile.diagnostic? (file : SourceFile) (position : Position) (lexeme : Lexeme) :
    Option Diagnostic :=
  lexeme.error?.map fun error =>
    file.diagnose error.code error.message (.covering position lexeme.text)

/-- What is wrong with lexemes from a position on. -/
def SourceFile.errorsFrom (file : SourceFile) (position : Position) (lexemes : List Lexeme) :
    List Diagnostic :=
  (placed position lexemes).filterMap fun item => file.diagnostic? item.1 item.2

/-- A step of reading adds what is wrong with its lexeme. -/
theorem SourceFile.noted_stored (file : SourceFile) (position : Position) {before : Diagnostics}
    (kept : before.Kept) (room : before.isFull = false) (lexeme : Lexeme) :
    (file.noted position before lexeme).stored =
      before.stored ++ (file.diagnostic? position lexeme).toList := by
  rw [noted, diagnostic?]
  cases lexeme.error? with
  | none => exact (List.append_nil _).symm
  | some error => exact (kept.push room _).2

/-- The first of some lexemes have been read from a position on, after the errors before it. -/
structure Lexing.Reads (lexing : Lexing) (file : SourceFile) (position : Position)
    (before : Diagnostics) (read unread : List Lexeme) : Prop where
  /-- The tokens are those of the lexemes that were read, and then comes the end of the input. -/
  tokens : lexing.tokens = tokensFrom position read ++
    [.endOfInput ((read.flatMap Lexeme.text).foldl Position.after position)]
  /-- The errors are those before and those of the lexemes that were read. -/
  errors : lexing.diagnostics.stored = before.stored ++ file.errorsFrom position read
  /-- All lexemes are read unless there are too many errors. -/
  finished : lexing.diagnostics.stored.length < 20 → unread = []

/-- The first of some lexemes are read. -/
theorem SourceFile.readLexemes_reads (file : SourceFile) (lexemes : List Lexeme)
    (position : Position) {before : Diagnostics} (kept : before.Kept) :
    ∃ read unread, lexemes = read ++ unread ∧
      (file.readLexemes position before lexemes).Reads file position before read unread := by
  induction lexemes generalizing position before with
  | nil => exact ⟨[], [], rfl, rfl, (List.append_nil _).symm, fun _ => rfl⟩
  | cons lexeme rest ih =>
    rcases full : before.isFull with _ | _
    · obtain ⟨read, unread, rfl, reads⟩ := ih (lexeme.text.foldl Position.after position)
        (file.noted_kept position kept full lexeme).1
      refine ⟨lexeme :: read, unread, rfl, ?_⟩
      rw [file.readLexemes_cons position full]
      refine ⟨?_, ?_, reads.finished⟩
      · dsimp only
        rw [reads.tokens, tokensFrom, List.flatMap_cons, List.foldl_append, List.append_assoc]
        rfl
      · dsimp only
        rw [reads.errors, file.noted_stored position kept full, errorsFrom, errorsFrom, placed,
          List.append_assoc, List.filterMap_cons]
        dsimp only
        cases file.diagnostic? position lexeme <;> rfl
    · rw [readLexemes, if_pos full]
      refine ⟨[], lexeme :: rest, rfl, rfl, (List.append_nil _).symm, fun few => ?_⟩
      rw [Diagnostics.isFull, decide_eq_true_eq, kept.total] at full
      exact absurd full (Nat.not_le.mpr few)

/-! ### Scripts -/

/-- What a lexical error is about stands in the script where the error says. -/
inductive SourceFile.Marks (file : SourceFile) (diagnostic : Diagnostic) : Prop
  /-- A character that is neither a blank nor the text of a token. -/
  | stray (character : Char) (visible : character ∉ blanks) (outside : ¬IsTokenText [character])
    (code : diagnostic.code = ⟨100⟩)
    (message : diagnostic.message = (LexicalError.unexpectedCharacter character).message)
    (shows : file.Shows diagnostic.span [character])
  /-- The digits of a number out of range, which is read as a token there. -/
  | oversized (digits : List Char) (numeral : IsNumeral digits)
    (large : Integer.greatest < decimal digits) (code : diagnostic.code = ⟨101⟩)
    (message : diagnostic.message = (LexicalError.outOfRange digits).message)
    (token : ⟨.number 0, String.ofList digits, diagnostic.span⟩ ∈ file.lex.tokens)
    (shows : file.Shows diagnostic.span digits)

/-- The first lexemes of a script are read, and all of them unless there are too many errors. -/
theorem SourceFile.lex_reads (file : SourceFile) :
    ∃ read unread, lexemes file.text.toList = read ++ unread ∧
      file.lex.Reads file .first .empty read unread :=
  file.readLexemes_reads _ .first ⟨rfl, by decide⟩

section Short

variable {file : SourceFile} (short : file.text.length < 2 ^ 32 - 1) {read unread : List Lexeme}
  (split : lexemes file.text.toList = read ++ unread)
include short split

/-- A lexeme that was read is shown where it begins if no blank is in it. -/
theorem SourceFile.shows_of_mem_placed {position : Position} {lexeme : Lexeme}
    (member : (position, lexeme) ∈ placed .first read)
    (visible : ∀ character ∈ lexeme.text, character ∉ blanks) :
    file.Shows (.covering position lexeme.text) lexeme.text := by
  have inText := split ▸ List.mem_append_left unread (mem_of_mem_placed member)
  have solid : lexeme.text ≠ [] := text_ne_nil_of_mem_lexemes lexeme inText
  have whole := text_lexemes file.text.toList
  obtain ⟨early, late, rfl, rfl⟩ := exists_of_mem_placed [] member
  rw [split, List.flatMap_append, List.flatMap_append, List.flatMap_cons, List.append_assoc,
    List.append_assoc] at whole
  exact shows_covering short whole solid visible

/-- A token of lexemes that were read is shown where it stands. -/
theorem SourceFile.shows_of_mem_tokensFrom {token : Token}
    (member : token ∈ tokensFrom .first read) : file.Shows token.span token.text.toList := by
  rw [tokensFrom_eq_filterMap] at member
  obtain ⟨⟨position, lexeme⟩, inside, found⟩ := List.mem_filterMap.mp member
  obtain ⟨kind, named, rfl⟩ := Option.map_eq_some_iff.mp found
  have inText := split ▸ List.mem_append_left unread (mem_of_mem_placed inside)
  have cut : lexeme.IsCut := isCut_of_mem_lexemes lexeme inText
  dsimp only
  rw [String.toList_ofList]
  exact shows_of_mem_placed short split inside (cut.visible named)

/-- An error of lexemes that were read is about what is shown where it says. -/
theorem SourceFile.marks_of_mem_errorsFrom {diagnostic : Diagnostic}
    (tokens : ∀ token ∈ tokensFrom .first read, token ∈ file.lex.tokens)
    (member : diagnostic ∈ file.errorsFrom .first read) : file.Marks diagnostic := by
  obtain ⟨⟨position, lexeme⟩, inside, found⟩ := List.mem_filterMap.mp member
  obtain ⟨error, wrong, rfl⟩ := Option.map_eq_some_iff.mp found
  have shows := shows_of_mem_placed short split inside
  have inText := split ▸ List.mem_append_left unread (mem_of_mem_placed inside)
  have cut : lexeme.IsCut := isCut_of_mem_lexemes lexeme inText
  cases lexeme with
  | stray character =>
    cases wrong
    obtain ⟨visible, outside⟩ := cut.stray
    exact .stray character visible outside rfl rfl (shows (List.forall_mem_singleton.mpr visible))
  | oversized digits =>
    cases wrong
    obtain ⟨numeral, large⟩ := cut.oversized
    refine .oversized digits numeral large rfl rfl (tokens _ ?_) (shows (cut.visible rfl))
    rw [tokensFrom_eq_filterMap]
    exact List.mem_filterMap.mpr ⟨_, inside, rfl⟩
  | blank _ | numeral _ _ | word _ | symbol _ => cases wrong

/-- The tokens of lexemes that were read are in order, and then comes the end of the input. -/
theorem SourceFile.orderly_of_reads {before : Diagnostics}
    (reads : file.lex.Reads file .first before read unread) : Orderly file.lex.tokens := by
  have whole := congrArg List.length (text_lexemes file.text.toList)
  rw [split, List.flatMap_append, List.length_append, String.length_toList] at whole
  have solid : ∀ lexeme ∈ read, lexeme.text ≠ [] := fun lexeme member =>
    text_ne_nil_of_mem_lexemes lexeme (split ▸ List.mem_append_left unread member)
  rw [reads.tokens]
  exact orderly_tokensFrom_end solid (by omega)

end Short

/-- Every token of a script stands on one line, between the columns of its span, and so does what
every lexical error is about. The tokens come one after the other, and if not too many errors were
found, the end of the input is just after the last character of the script. -/
theorem SourceFile.lex_shows (file : SourceFile) (short : file.text.length < 2 ^ 32 - 1) :
    (∀ token ∈ file.lex.tokens, token.kind ≠ .endOfInput →
      file.Shows token.span token.text.toList) ∧
    (∀ diagnostic ∈ file.lex.diagnostics.stored, file.Marks diagnostic) ∧
    Orderly file.lex.tokens ∧
    (file.lex.diagnostics.stored.length < Diagnostics.limit →
      ∃ position, file.lex.tokens.getLast? = some (.endOfInput position) ∧
        position.Ends file.text.toList) := by
  obtain ⟨read, unread, split, reads⟩ := file.lex_reads
  refine ⟨fun token member inside => ?_, fun diagnostic member => ?_,
    orderly_of_reads short split reads, fun few => ?_⟩
  · rw [reads.tokens] at member
    rcases List.mem_append.mp member with early | last
    · exact shows_of_mem_tokensFrom short split early
    · rw [List.mem_singleton.mp last] at inside
      exact absurd rfl inside
  · rw [reads.errors] at member
    refine marks_of_mem_errorsFrom short split (fun token found => ?_) member
    exact reads.tokens ▸ List.mem_append_left _ found
  · obtain rfl := reads.finished few
    rw [List.append_nil] at split
    refine ⟨_, by rw [reads.tokens, List.getLast?_concat], ?_⟩
    rw [← split, text_lexemes]
    exact Position.ends_past (by rwa [String.length_toList])

/-- A name after carriage returns, a number that is too large and a stray character, on lines that
end with carriage returns, are shown between the columns of their spans. -/
theorem SourceFile.lex_shows_returns :
    let file : SourceFile := ⟨"", "é\r\r\n \ru9 99999999999999999999\r\n"⟩
    file.lex.tokens.map Token.span = [⟨⟨2, 3⟩, ⟨2, 4⟩⟩, ⟨⟨2, 6⟩, ⟨2, 25⟩⟩, ⟨⟨3, 1⟩, ⟨3, 1⟩⟩] ∧
    (∀ token ∈ file.lex.tokens, token.kind ≠ .endOfInput →
      file.Shows token.span token.text.toList) ∧
    file.lex.diagnostics.stored.map Diagnostic.span = [⟨⟨1, 1⟩, ⟨1, 1⟩⟩, ⟨⟨2, 6⟩, ⟨2, 25⟩⟩] ∧
    ∀ diagnostic ∈ file.lex.diagnostics.stored, file.Marks diagnostic := by
  intro file
  have shows := lex_shows file (by decide +kernel)
  exact ⟨by decide +kernel, shows.1, by decide +kernel, shows.2.1⟩

end Waggle
