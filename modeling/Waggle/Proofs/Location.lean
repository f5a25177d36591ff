import Waggle.Compile
import Waggle.Proofs.Lines
import Waggle.Proofs.Relocation
import Waggle.Proofs.Tokenisation

/-!
# Where errors are located

A position counts the line feeds before it, so the position of every character of a script, and the
one after its last, is on a line that the script has. Tokens and lexical errors begin at such
positions, an error of syntax is about a span that was merged from those of tokens, and merging
takes over where one of the spans begins. So every diagnostic shows the line that it is on
(`compile_located`).

The counters of a position are words, which do not overflow in a script of fewer than `2 ^ 32 - 1`
characters.
-/

namespace Waggle

namespace Position

/-- A position comes before another one in reading order. -/
def Before (left right : Position) : Prop :=
  left.line < right.line ∨ (left.line = right.line ∧ left.column < right.column)

/-- The order of positions is that of the numbers of their lines and columns. -/
theorem before_iff {left right : Position} :
    left.Before right ↔ left.line.toNat < right.line.toNat ∨
      (left.line.toNat = right.line.toNat ∧ left.column.toNat < right.column.toNat) := by
  simp only [Before, UInt32.lt_iff_toNat_lt, UInt32.toNat_inj]

/-- What comes before a position comes before those after it. -/
theorem Before.trans {first second third : Position} (early : first.Before second)
    (late : second.Before third) : first.Before third := by
  rw [before_iff] at early late ⊢
  omega

/-- The position after a text that begins a script. -/
def past (text : List Char) : Position := text.foldl after .first

/-- The position after one more character. -/
theorem past_concat (text : List Char) (character : Char) :
    past (text ++ [character]) = (past text).after character := by
  simp only [past, List.foldl_append, List.foldl_cons, List.foldl_nil]

/-- The position after more of a text. -/
theorem past_append (text more : List Char) :
    past (text ++ more) = more.foldl after (past text) := by
  simp only [past, List.foldl_append]

/-- The line counts the line feeds. -/
theorem line_past (text : List Char) : (past text).line = UInt32.ofNat (text.count '\n' + 1) := by
  induction text using List.reverseRecOn with
  | nil => rfl
  | append_singleton text character ih =>
    rw [past_concat, after, List.count_append]
    split
    · rename_i feed
      subst feed
      dsimp only
      rw [ih, List.count_singleton_self, UInt32.ofNat_add (_ + 1) 1]
      rfl
    · rename_i other
      have none : List.count '\n' [character] = 0 := by simp [other]
      dsimp only
      rw [ih, none, Nat.add_zero]

/-- The line does not overflow in a short text. -/
theorem toNat_line_past {text : List Char} (short : text.length < 2 ^ 32 - 1) :
    (past text).line.toNat = text.count '\n' + 1 := by
  have feeds := List.count_le_length (a := '\n') (l := text)
  rw [line_past, UInt32.toNat_ofNat', Nat.mod_eq_of_lt (by omega)]

/-- The column counts no more than the characters that are no line feeds. -/
theorem toNat_column_past {text : List Char} (short : text.length < 2 ^ 32 - 1) :
    (past text).column.toNat + text.count '\n' ≤ text.length + 1 := by
  induction text using List.reverseRecOn with
  | nil => decide
  | append_singleton text character ih =>
    rw [List.length_append, List.length_singleton] at short
    have column := ih (by omega)
    rw [past_concat, after, List.count_append, List.length_append, List.length_singleton]
    split
    · rename_i feed
      subst feed
      have feeds := List.count_le_length (a := '\n') (l := text)
      dsimp only
      rw [List.count_singleton_self, UInt32.toNat_one]
      omega
    · rename_i other
      have none : List.count '\n' [character] = 0 := by simp [other]
      have next := Nat.mod_le ((past text).column.toNat + 1) (2 ^ 32)
      dsimp only
      rw [none, UInt32.toNat_add, UInt32.toNat_one]
      omega

/-- One character takes to the next line or to the next column. -/
theorem before_after {text : List Char} (short : text.length + 1 < 2 ^ 32 - 1)
    (character : Char) : (past text).Before ((past text).after character) := by
  have fits : text.length < 2 ^ 32 - 1 := by omega
  have line := toNat_line_past fits
  have column := toNat_column_past fits
  have feeds := List.count_le_length (a := '\n') (l := text)
  rw [after, before_iff]
  split
  · left
    dsimp only
    rw [UInt32.toNat_add, UInt32.toNat_one]
    omega
  · right
    dsimp only
    rw [UInt32.toNat_add, UInt32.toNat_one]
    omega

/-- The position after more of a text is a later one. -/
theorem before_past {text more : List Char} (some : more ≠ [])
    (short : (text ++ more).length < 2 ^ 32 - 1) : (past text).Before (past (text ++ more)) := by
  induction more using List.reverseRecOn with
  | nil => exact absurd rfl some
  | append_singleton more character ih =>
    rw [← List.append_assoc] at short ⊢
    rw [List.length_append, List.length_singleton] at short
    have last := before_after short character
    rw [past_concat]
    by_cases alone : more = []
    · subst alone
      simpa only [List.append_nil] using last
    · exact (ih alone (by omega)).trans last

end Position

namespace SourceFile

/-- A position is on a line of a script. -/
def Holds (file : SourceFile) (position : Position) : Prop :=
  1 ≤ position.line.toNat ∧ position.line.toNat ≤ file.lineCount

/-- The first position is on a line of every script. -/
theorem holds_first (file : SourceFile) : file.Holds .first := by
  refine ⟨Nat.le_refl 1, ?_⟩
  rw [lineCount_eq]
  exact Nat.le_add_left _ _

/-- The position after a text that begins a script is on a line of it. -/
theorem holds_past {file : SourceFile} (short : file.text.length < 2 ^ 32 - 1)
    {text more : List Char} (whole : text ++ more = file.text.toList) :
    file.Holds (Position.past text) := by
  have length : text.length + more.length = file.text.length := by
    rw [← List.length_append, whole, String.length_toList]
  have fits : text.length < 2 ^ 32 - 1 := by omega
  have line := Position.toNat_line_past fits
  refine ⟨by omega, ?_⟩
  rw [line, lineCount_eq, ← whole, List.count_append]
  omega

/-- A line that a script has can be shown. -/
theorem line?_of_holds {file : SourceFile} {position : Position} (holds : file.Holds position) :
    ∃ line, file.line? position.line = some line :=
  Option.isSome_iff_exists.mp ((file.isSome_line? position.line).mpr holds)

end SourceFile

/-- A diagnostic names its script and shows the line that it is on. -/
structure Diagnostic.Located (file : SourceFile) (diagnostic : Diagnostic) : Prop where
  /-- The script is named. -/
  file_eq : diagnostic.file = file.name
  /-- The diagnostic begins on a line of the script. -/
  line : file.Holds diagnostic.span.start
  /-- The line is shown, not an empty one in its place. -/
  sourceLine : file.line? diagnostic.span.start.line = some diagnostic.sourceLine

/-- A diagnostic is a lexical error. -/
def Diagnostic.IsLexical (diagnostic : Diagnostic) : Prop :=
  diagnostic.stage = .lex ∧ (diagnostic.code.number = 100 ∨ diagnostic.code.number = 101)

/-- A diagnostic is an error of syntax. -/
def Diagnostic.IsSyntactic (diagnostic : Diagnostic) : Prop :=
  diagnostic.stage = .parse ∧ 200 ≤ diagnostic.code.number ∧ diagnostic.code.number ≤ 203

/-- A diagnostic about a span on a line of the script is located. -/
theorem SourceFile.diagnose_located {file : SourceFile} {span : Span}
    (holds : file.Holds span.start) (code : ErrorCode) (message : String) :
    (file.diagnose code message span).Located file := by
  obtain ⟨line, found⟩ := line?_of_holds holds
  refine ⟨rfl, holds, ?_⟩
  rw [diagnose, Diagnostic.ofCode, found]
  rfl

/-- What is wrong with a lexeme is a lexical error. -/
theorem LexicalError.isLexical (error : LexicalError) (file : SourceFile) (span : Span) :
    (file.diagnose error.code error.message span).IsLexical := by
  cases error with
  | unexpectedCharacter character => exact ⟨rfl, .inl rfl⟩
  | outOfRange digits => exact ⟨rfl, .inr rfl⟩

/-- A fault is an error of syntax. -/
theorem SyntaxFault.isSyntactic (fault : SyntaxFault) (file : SourceFile) (span : Span) :
    (file.diagnose fault.code fault.message span).IsSyntactic := by
  have range (code : ErrorCode)
      (known : code ∈ [.unexpectedToken, .expectedDirection, .tooManyArguments, .nestingTooDeep]) :
      code.stage = .parse ∧ 200 ≤ code.number ∧ code.number ≤ 203 := by
    revert code
    decide
  have known : fault.code ∈ [ErrorCode.unexpectedToken, .expectedDirection, .tooManyArguments,
      .nestingTooDeep] := by
    cases fault <;> simp [code]
  exact range fault.code known

/-! ### Lexical errors -/

/-- Reading lexemes keeps every error, and each one is lexical. -/
theorem SourceFile.readLexemes_kept (file : SourceFile) (lexemes : List Lexeme)
    (position : Position) {before : Diagnostics} (kept : before.Kept)
    (lexical : ∀ diagnostic ∈ before.stored, diagnostic.IsLexical) :
    (file.readLexemes position before lexemes).diagnostics.Kept ∧
    ∀ diagnostic ∈ (file.readLexemes position before lexemes).diagnostics.stored,
      diagnostic.IsLexical := by
  induction lexemes generalizing position before with
  | nil => exact ⟨kept, lexical⟩
  | cons lexeme rest ih =>
    rcases full : before.isFull with _ | _
    · obtain ⟨still, onward⟩ : (file.noted position before lexeme).Kept ∧
          ∀ diagnostic ∈ (file.noted position before lexeme).stored, diagnostic.IsLexical := by
        rw [noted]
        rcases lexeme.error? with _ | error
        · exact ⟨kept, lexical⟩
        · obtain ⟨still, stored⟩ := kept.push full
            (file.diagnose error.code error.message (.covering position lexeme.text))
          refine ⟨still, ?_⟩
          rw [stored]
          simpa [or_imp, forall_and] using ⟨lexical, error.isLexical file _⟩
      rw [file.readLexemes_cons _ full]
      exact ih _ still onward
    · rw [readLexemes, if_pos full]
      exact ⟨kept, lexical⟩

/-- All lexical errors of a script up to the twentieth are kept, and nothing else is. -/
theorem SourceFile.lex_kept (file : SourceFile) :
    file.lex.diagnostics.Kept ∧
      ∀ diagnostic ∈ file.lex.diagnostics.stored, diagnostic.IsLexical :=
  file.readLexemes_kept _ _ ⟨rfl, by decide⟩ (by simp [Diagnostics.empty])

/-- Errors that are counted are there. -/
theorem Diagnostics.Kept.one_le_of_present {diagnostics : Diagnostics} (kept : diagnostics.Kept)
    (present : diagnostics.isPresent = true) : 1 ≤ diagnostics.stored.length := by
  rw [← kept.total]
  rw [isPresent, bne_iff_ne, ne_eq, ← UInt64.toNat_inj] at present
  exact Nat.one_le_iff_ne_zero.mpr present

/-- Where no error is counted there is none. -/
theorem Diagnostics.Kept.eq_empty_of_absent {diagnostics : Diagnostics} (kept : diagnostics.Kept)
    (absent : diagnostics.isPresent = false) : diagnostics = .empty := by
  rw [isPresent, bne_eq_false_iff_eq] at absent
  have none : diagnostics.stored.length = 0 := by rw [← kept.total, absent, UInt64.toNat_zero]
  cases diagnostics
  rw [List.length_eq_zero_iff] at none
  exact Diagnostics.mk.injEq .. ▸ ⟨none, absent⟩

/-- Diagnostics in the order in which they begin, all of them before a position. -/
structure SourceFile.Charts (file : SourceFile) (limit : Position) (found : List Diagnostic) :
    Prop where
  /-- Each one is located. -/
  located : ∀ diagnostic ∈ found, diagnostic.Located file
  /-- Each one begins before the position. -/
  before : ∀ diagnostic ∈ found, diagnostic.span.start.Before limit
  /-- Each one begins before those after it. -/
  ordered : found.Pairwise fun left right => left.span.start.Before right.span.start

namespace SourceFile.Charts

variable {file : SourceFile} {limit next : Position} {found : List Diagnostic}

/-- What begins before a position begins before a later one. -/
theorem mono (charts : file.Charts limit found) (later : limit.Before next) :
    file.Charts next found :=
  ⟨charts.located, fun diagnostic member => (charts.before diagnostic member).trans later,
    charts.ordered⟩

/-- A diagnostic at the position comes last. -/
theorem push (charts : file.Charts limit found) (later : limit.Before next)
    {diagnostic : Diagnostic} (located : diagnostic.Located file)
    (here : diagnostic.span.start = limit) :
    file.Charts next (found ++ [diagnostic]) where
  located := by simpa [or_imp, forall_and] using ⟨charts.located, located⟩
  before := by simpa [or_imp, forall_and] using ⟨(charts.mono later).before, here ▸ later⟩
  ordered := by
    refine List.pairwise_append.mpr ⟨charts.ordered, List.pairwise_singleton _ _, ?_⟩
    intro left member right last
    rw [List.mem_singleton.mp last, here]
    exact charts.before left member

end SourceFile.Charts

/-- Every lexeme of a text has characters. -/
theorem text_ne_nil_of_mem_lexemes {text : List Char} :
    ∀ lexeme ∈ lexemes text, lexeme.text ≠ [] := by
  fun_induction lexemes text with
  | case1 => simp
  | case2 character rest ih =>
    refine List.forall_mem_cons.mpr ⟨?_, ih⟩
    intro none
    have same := congrArg List.length (Lexeme.text_next character rest)
    have shorter := Lexeme.length_next_le character rest
    rw [none, List.nil_append, List.length_cons] at same
    omega

/-- Reading lexemes from a position on, every token begins on a line of the script, and the errors
are in their order. -/
theorem SourceFile.readLexemes_charts {file : SourceFile} (short : file.text.length < 2 ^ 32 - 1)
    {lexemes : List Lexeme} (solid : ∀ lexeme ∈ lexemes, lexeme.text ≠ []) {text : List Char}
    (whole : text ++ lexemes.flatMap Lexeme.text = file.text.toList) {before : Diagnostics}
    (kept : before.Kept) (charts : file.Charts (.past text) before.stored) :
    (∀ token ∈ (file.readLexemes (.past text) before lexemes).tokens,
      file.Holds token.span.start) ∧
    ∃ limit, file.Charts limit
      (file.readLexemes (.past text) before lexemes).diagnostics.stored := by
  induction lexemes generalizing text before with
  | nil =>
    refine ⟨?_, _, charts⟩
    intro token member
    rw [List.mem_singleton.mp member]
    exact holds_past short whole
  | cons lexeme rest ih =>
    have here := holds_past short whole
    rcases full : before.isFull with _ | _
    · rw [List.flatMap_cons, ← List.append_assoc] at whole
      have length := congrArg List.length whole
      rw [List.length_append, String.length_toList] at length
      have later : (Position.past text).Before (.past (text ++ lexeme.text)) :=
        Position.before_past (solid lexeme List.mem_cons_self) (by omega)
      obtain ⟨still, onward⟩ : (file.noted (.past text) before lexeme).Kept ∧
          file.Charts (.past (text ++ lexeme.text))
            (file.noted (.past text) before lexeme).stored := by
        rw [noted]
        rcases lexeme.error? with _ | error
        · exact ⟨kept, charts.mono later⟩
        · obtain ⟨still, stored⟩ := kept.push full
            (file.diagnose error.code error.message (.covering (.past text) lexeme.text))
          refine ⟨still, ?_⟩
          rw [stored]
          exact charts.push later (diagnose_located here _ _) rfl
      have tail := ih (fun other member => solid other (List.mem_cons_of_mem _ member)) whole still
        onward
      rw [Position.past_append] at tail
      rw [file.readLexemes_cons _ full]
      refine ⟨?_, tail.2⟩
      intro token member
      rcases List.mem_append.mp member with first | others
      · obtain ⟨kind, -, rfl⟩ := Option.map_eq_some_iff.mp (Option.mem_toList.mp first)
        exact here
      · exact tail.1 token others
    · rw [readLexemes, if_pos full]
      refine ⟨?_, _, charts⟩
      intro token member
      rw [List.mem_singleton.mp member]
      exact here

/-- Every token of a script begins on a line of it, and its errors are in their order. -/
theorem SourceFile.lex_charts {file : SourceFile} (short : file.text.length < 2 ^ 32 - 1) :
    (∀ token ∈ file.lex.tokens, file.Holds token.span.start) ∧
      ∃ limit, file.Charts limit file.lex.diagnostics.stored := by
  have kept : Diagnostics.empty.Kept := ⟨rfl, by decide⟩
  have none : file.Charts (.past []) Diagnostics.empty.stored := by
    constructor <;> simp [Diagnostics.empty]
  exact readLexemes_charts short text_ne_nil_of_mem_lexemes
    (text_lexemes file.text.toList) kept none

/-! ### Errors of syntax -/

/-- Where two spans are merged, one of them begins. -/
theorem Span.start_merge (left right : Span) :
    (left.merge right).start = left.start ∨ (left.merge right).start = right.start := by
  change (if left.start ≤ right.start then left.start else right.start) = left.start ∨ _
  split
  · exact .inl rfl
  · right
    change (if left.start ≤ right.start then left.start else right.start) = right.start
    exact if_neg ‹_›

/-- Spans that begin on a line of a script stay where they are. -/
def Relocation.onLines (file : SourceFile) : Relocation where
  move := id
  Covers span := file.Holds span.start
  covers_merge {left right} first second := by
    rcases Span.start_merge left right with same | same
    · exact same ▸ first
    · exact same ▸ second
  move_merge _ _ := rfl

/-- What is wrong with tokens on the lines of a script is one error of syntax on a line of it. -/
theorem SourceFile.parse_located {file : SourceFile} {tokens : List Token} {errors : Diagnostics}
    (holds : ∀ token ∈ tokens, file.Holds token.span.start)
    (failed : file.parse tokens = .error errors) :
    ∃ error, errors = .single error ∧ error.Located file ∧ error.IsSyntactic := by
  have onLines : (Relocation.onLines file).Shifts (.start tokens) (.start tokens) :=
    ⟨rfl, file.holds_first, List.forall₂_same.mpr fun token member =>
      ⟨rfl, rfl, holds token member⟩, rfl⟩
  have moves := Parser.program_moves _ _ onLines
  have ran : Parser.program.run (.start tokens) = Parser.program (.start tokens) := rfl
  rw [parse, ran] at failed
  rcases read : Parser.program (.start tokens) with error | ⟨program, after⟩
  · rw [read] at failed moves
    cases failed
    exact ⟨_, rfl, diagnose_located moves.1 _ _, error.fault.isSyntactic file _⟩
  · rw [read] at failed
    cases failed

/-! ### Both -/

/-- A script is refused with its lexical errors, or it has none and its tokens are parsed. -/
theorem SourceFile.compile_cases (file : SourceFile) :
    (1 ≤ file.lex.diagnostics.stored.length ∧ file.compile = .error file.lex.diagnostics) ∨
      (file.lex.diagnostics = .empty ∧ file.compile = file.parse file.lex.tokens) := by
  obtain ⟨kept, -⟩ := file.lex_kept
  rw [compile]
  rcases present : file.lex.diagnostics.isPresent with _ | _
  · exact .inr ⟨kept.eq_empty_of_absent present, if_neg Bool.false_ne_true⟩
  · exact .inl ⟨kept.one_le_of_present present, if_pos rfl⟩

/-- All errors of a script are kept and located. -/
structure Diagnostics.Located (file : SourceFile) (errors : Diagnostics) : Prop where
  /-- All are kept. -/
  total : errors.total.toNat = errors.stored.length
  /-- All are located. -/
  each : ∀ error ∈ errors.stored, error.Located file

/-- One to twenty lexical errors in the order in which they begin. -/
structure Diagnostics.AreLexical (errors : Diagnostics) : Prop where
  /-- There is one. -/
  some : 1 ≤ errors.stored.length
  /-- There are at most twenty. -/
  few : errors.stored.length ≤ 20
  /-- All are lexical. -/
  each : ∀ error ∈ errors.stored, error.IsLexical
  /-- Each begins before those after it. -/
  ordered : errors.stored.Pairwise fun left right => left.span.start.Before right.span.start

/-- A script is read as a program, or it has one to twenty lexical errors in their order, or it has
none and one error of syntax; and every error is counted, names the script and shows the line of the
script that it is on. -/
theorem SourceFile.compile_located (file : SourceFile) (short : file.text.length < 2 ^ 32 - 1) :
    (∃ program, file.compile = .ok program) ∨
    (∃ errors, file.compile = .error errors ∧ errors.Located file ∧ errors.AreLexical) ∨
    file.lex.diagnostics = .empty ∧ ∃ error, file.compile = .error (.single error) ∧
      (Diagnostics.single error).Located file ∧ error.IsSyntactic := by
  obtain ⟨holds, limit, charts⟩ := lex_charts short
  obtain ⟨kept, lexical⟩ := file.lex_kept
  rcases file.compile_cases with ⟨some, refused⟩ | ⟨none, parsed⟩
  · rw [refused]
    exact .inr (.inl ⟨_, rfl, ⟨kept.total, charts.located⟩, some, kept.few, lexical,
      charts.ordered⟩)
  · rw [parsed]
    rcases read : file.parse file.lex.tokens with errors | program
    · obtain ⟨error, rfl, located, syntactic⟩ := parse_located holds read
      refine .inr (.inr ⟨none, error, rfl, ⟨rfl, ?_⟩, syntactic⟩)
      simpa only [Diagnostics.single, List.mem_singleton, forall_eq] using located
    · exact .inl ⟨program, rfl⟩

/-- The stray characters of a script are located, the second one on its last line. -/
theorem SourceFile.compile_located_stray :
    ∃ errors, compile ⟨"stray.bee", "x = $\n@"⟩ = .error errors ∧
      errors.Located ⟨"stray.bee", "x = $\n@"⟩ ∧ errors.AreLexical := by
  have refused : (compile ⟨"stray.bee", "x = $\n@"⟩).isOk = false := by decide +kernel
  rcases compile_located ⟨"stray.bee", "x = $\n@"⟩ (by decide +kernel) with
    ⟨program, read⟩ | lexical | ⟨clean, -⟩
  · rw [read] at refused
    cases refused
  · exact lexical
  · exact absurd clean (by decide +kernel)

end Waggle
