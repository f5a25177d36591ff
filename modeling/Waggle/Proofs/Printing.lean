import Waggle.Proofs.Concatenation
import Waggle.Proofs.Rendering

/-!
# Tokens are read as they were written

A token is written as its text. Where tokens are written one after the other, with blanks between
each one and the next, the pieces of the whole text are the tokens and these blanks, because no
token goes on over a blank. So the text is read as the tokens that it was written from
(`lex_written`). Numbers have no sign of their own, so a negative one is not read back as one token.
-/

namespace Waggle

/-- The tokens that can be written: numbers that need no sign, names that are words and not
reserved, the reserved words and the symbols. -/
def TokenKind.IsWritable : TokenKind → Prop
  | .number value => 0 ≤ value.toInt
  | .identifier name => IsWord name.toList ∧ ∀ keyword : Keyword, keyword.spelling ≠ name
  | .keyword _ | .symbol _ => True
  | .endOfInput => False

/-- Tokens written one after the other, with one or more blanks between each and the next. -/
inductive Written : List TokenKind → List Char → Prop
  | nil : Written [] []
  | single (kind : TokenKind) : Written [kind] kind.text.toList
  | cons (kind : TokenKind) (gap : List Char) {next : TokenKind} {kinds : List TokenKind}
    {text : List Char} (some : gap ≠ []) (blank : ∀ character ∈ gap, character ∈ blanks)
    (rest : Written (next :: kinds) text) :
    Written (kind :: next :: kinds) (kind.text.toList ++ (gap ++ text))

/-- The digits of a number are a numeral that denotes it. -/
theorem isNumeral_digits (number : Nat) :
    IsNumeral (Numeral.digits 10 number) ∧ decimal (Numeral.digits 10 number) = number := by
  refine ⟨⟨Numeral.digits_ne_nil number, fun character member => ?_⟩, ?_⟩
  · exact isDigit_iff.mp (Numeral.isDigit_of_mem_digits number character member)
  · rw [← value_eq_decimal, Numeral.value_digits]

/-- The text of a token is read as that token. -/
theorem TokenKind.IsWritable.readAs {kind : TokenKind} (writable : kind.IsWritable) :
    ReadAs kind.text.toList (.token kind kind.text.toList) := by
  cases kind with
  | number value =>
    obtain ⟨size, same⟩ := Int.eq_ofNat_of_zero_le writable
    obtain ⟨digits, denotes⟩ := isNumeral_digits size
    have text : (TokenKind.number value).text.toList = Numeral.digits 10 size := by
      rw [TokenKind.text, same, Numeral.ofInt, String.toList_ofList]
      rfl
    rw [text]
    exact .number digits (by rw [denotes, same])
  | identifier name =>
    obtain ⟨word, free⟩ := writable
    have read := ReadAs.name word fun keyword spelled => free keyword (String.toList_inj.mp spelled)
    rwa [String.ofList_toList] at read
  | keyword word => exact .keyword rfl
  | symbol sign => exact .symbol rfl
  | endOfInput => exact writable.elim

/-- The text of a token goes on over no blank. -/
theorem longest_of_blank {text rest : List Char}
    (separated : ∀ character ∈ rest.head?, character ∈ blanks) : Longest text rest := by
  intro more begins token
  cases more with
  | nil => rfl
  | cons first others =>
    obtain ⟨after, rfl⟩ := begins
    exact absurd (separated first rfl) (token.visible first (by simp))

/-- Blanks in front of a text are pieces of their own. -/
theorem Munched.blanks {gap text : List Char} {pieces : List Piece}
    (blank : ∀ character ∈ gap, character ∈ Waggle.blanks) (munched : Munched text pieces) :
    Munched (gap ++ text) (gap.map Piece.blank ++ pieces) := by
  induction gap with
  | nil => exact munched
  | cons first others ih =>
    obtain ⟨separates, further⟩ := List.forall_mem_cons.mp blank
    exact .next (.blank rfl separates) (ih further)

/-- The pieces of tokens and of the blanks between them. -/
structure PiecesOf (kinds : List TokenKind) (pieces : List Piece) : Prop where
  /-- The tokens are those that were written. -/
  tokens : pieces.filterMap Piece.token? = kinds.map fun kind => (kind, kind.text.toList)
  /-- No piece is an error. -/
  clean : ∀ piece ∈ pieces, piece.errorCode? = none

/-- A token and blanks after it come before the pieces of the tokens that follow. -/
theorem PiecesOf.cons {kinds : List TokenKind} {pieces : List Piece}
    (others : PiecesOf kinds pieces) (kind : TokenKind) (gap : List Char) :
    PiecesOf (kind :: kinds)
      (.token kind kind.text.toList :: (gap.map Piece.blank ++ pieces)) where
  tokens := by
    have head : (Piece.token kind kind.text.toList).token? = some (kind, kind.text.toList) := rfl
    have none : (gap.map Piece.blank).filterMap Piece.token? = [] := by simp [Piece.token?]
    rw [List.filterMap_cons_some head, List.filterMap_append, none, others.tokens]
    rfl
  clean := by
    refine List.forall_mem_cons.mpr ⟨rfl, List.forall_mem_append.mpr ⟨?_, others.clean⟩⟩
    simp [Piece.errorCode?]

/-- The pieces of a text are the tokens that it was written from and the blanks between them. -/
theorem Written.munched {kinds : List TokenKind} {text : List Char} (written : Written kinds text)
    (writable : ∀ kind ∈ kinds, kind.IsWritable) :
    ∃ pieces, Munched text pieces ∧ PiecesOf kinds pieces := by
  induction written with
  | nil => exact ⟨[], .done, rfl, List.forall_mem_nil _⟩
  | single kind =>
    have read := (writable kind List.mem_cons_self).readAs
    have cut : Cut kind.text.toList [] (.token kind kind.text.toList) :=
      .token (List.append_nil _).symm read (longest_of_blank (by simp))
    exact ⟨_, .next cut .done, PiecesOf.cons ⟨rfl, List.forall_mem_nil _⟩ kind []⟩
  | @cons kind gap next kinds text some blank rest ih =>
    obtain ⟨first, others⟩ := List.forall_mem_cons.mp writable
    obtain ⟨pieces, munched, ofKinds⟩ := ih others
    have separated : ∀ character ∈ (gap ++ text).head?, character ∈ blanks := by
      intro character found
      rw [List.head?_append_of_ne_nil _ some] at found
      exact blank character (List.mem_of_mem_head? found)
    have cut : Cut (kind.text.toList ++ (gap ++ text)) (gap ++ text)
        (.token kind kind.text.toList) :=
      .token rfl first.readAs (longest_of_blank separated)
    exact ⟨_, .next cut (munched.blanks blank), ofKinds.cons kind gap⟩

/-- The tokens of lexemes are those of the pieces that these are. -/
theorem map_reading_tokensFrom (position : Position) (lexemes : List Lexeme) :
    (tokensFrom position lexemes).map Token.reading =
      (lexemes.map Lexeme.piece).filterMap Piece.token? := by
  induction lexemes generalizing position with
  | nil => rfl
  | cons lexeme rest ih =>
    rw [tokensFrom, List.map_append, ih, List.map_cons, List.filterMap_cons, lexeme.token?_piece,
      Lexeme.token?]
    cases lexeme.kind? with
    | none => rfl
    | some kind => simp [Token.reading]

/-- Tokens that are written with blanks between them are read back, without an error, and then comes
the end of the input. -/
theorem SourceFile.lex_written {file : SourceFile} {kinds : List TokenKind}
    (writable : ∀ kind ∈ kinds, kind.IsWritable) (written : Written kinds file.text.toList) :
    file.lex.diagnostics = .empty ∧
      file.lex.tokens.map Token.kind = kinds ++ [.endOfInput] ∧
      file.lex.tokens.map Token.text = kinds.map TokenKind.text ++ [""] := by
  obtain ⟨pieces, munched, tokens, clean⟩ := written.munched writable
  obtain rfl := munched.unique (munched_lexemes file.text.toList)
  have fine : ∀ lexeme ∈ lexemes file.text.toList, lexeme.error? = none := by
    intro lexeme member
    have none := clean _ (List.mem_map_of_mem member)
    rwa [lexeme.errorCode?_piece, Option.map_eq_none_iff] at none
  have read := map_reading_tokensFrom .first (lexemes file.text.toList)
  rw [tokens] at read
  rw [lex, file.readLexemes_clean .first fine]
  refine ⟨rfl, ?_, ?_⟩
  · have kindsRead := congrArg (List.map Prod.fst) read
    simpa [Token.reading, Function.comp_def, Token.endOfInput] using kindsRead
  · have textsRead := congrArg (List.map fun reading => String.ofList reading.2) read
    simpa [Token.reading, Function.comp_def, Token.endOfInput] using textsRead

/-- A word, signs that begin alike, a name that begins as a word and the greatest number are read
back. -/
theorem SourceFile.lex_written_comparison :
    let file : SourceFile := ⟨"", "moveto\t\r\n=  ==\nmove9 9223372036854775807"⟩
    file.lex.diagnostics = .empty ∧
      file.lex.tokens.map Token.kind =
        [.keyword .moveTo, .symbol .assign, .symbol .equal, .identifier "move9",
          .number 9223372036854775807, .endOfInput] := by
  intro file
  let kinds : List TokenKind :=
    [.keyword .moveTo, .symbol .assign, .symbol .equal, .identifier "move9",
      .number 9223372036854775807]
  have name : IsWord "move9".toList := by
    refine ⟨'m', ['o', 'v', 'e', '9'], rfl, by decide, ?_⟩
    simp only [List.forall_mem_cons]
    exact ⟨by decide, by decide, by decide, by decide, List.forall_mem_nil _⟩
  have free : ∀ keyword ∈ Keyword.all, keyword.spelling ≠ "move9" := by decide
  have size : 0 ≤ (9223372036854775807 : Int64).toInt := by decide
  have writable : ∀ kind ∈ kinds, kind.IsWritable := by
    simp only [kinds, List.forall_mem_cons]
    exact ⟨trivial, trivial, trivial, ⟨name, fun keyword => free keyword keyword.mem_all⟩, size,
      List.forall_mem_nil _⟩
  have written : Written kinds file.text.toList := by
    have text : file.text.toList = (TokenKind.keyword .moveTo).text.toList ++ ("\t\r\n".toList ++
        ((TokenKind.symbol .assign).text.toList ++ ("  ".toList ++
          ((TokenKind.symbol .equal).text.toList ++ ("\n".toList ++
            ((TokenKind.identifier "move9").text.toList ++ (" ".toList ++
              (TokenKind.number 9223372036854775807).text.toList))))))) := by decide +kernel
    rw [text]
    have gap : ∀ gap ∈ ["\t\r\n", "  ", "\n", " "], ∀ character ∈ gap.toList,
        character ∈ blanks := by
      simp [blanks]
    exact .cons _ _ (by decide) (gap _ (by simp)) (.cons _ _ (by decide) (gap _ (by simp))
      (.cons _ _ (by decide) (gap _ (by simp)) (.cons _ _ (by decide) (gap _ (by simp))
        (.single _))))
  obtain ⟨clean, tokens, -⟩ := lex_written writable written
  exact ⟨clean, tokens⟩

end Waggle
