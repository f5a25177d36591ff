import Waggle.Proofs.Excerpt
import Waggle.Proofs.Quotation

/-!
# What is wrong is told in printable ASCII

The messages of diagnostics quote a script: characters that stand outside the language, literals
that are out of range, and tokens. Whatever the script is, all that they show is printable ASCII:
a character is escaped, a literal is made of digits, and tokens are words, numerals and symbols. So
every diagnostic is shown on one line of its own, and nothing else is shown, since all diagnostics
of a script are kept (`SourceFile.compile_legible`).
-/

namespace Waggle

/-- Printable ASCII. -/
def IsPrintable (character : Char) : Prop := 0x20 ≤ character.toNat ∧ character.toNat ≤ 0x7e

instance : DecidablePred IsPrintable := fun _ => inferInstanceAs (Decidable (_ ∧ _))

/-- A text of printable ASCII alone. -/
def Legible (text : String) : Prop := ∀ character ∈ text.toList, IsPrintable character

instance (text : String) : Decidable (Legible text) :=
  List.decidableBAll IsPrintable text.toList

namespace Legible

/-- Legible texts one after the other are legible. -/
theorem append {text more : String} (one : Legible text) (other : Legible more) :
    Legible (text ++ more) := by
  unfold Legible
  rw [String.toList_append]
  exact List.forall_mem_append.mpr ⟨one, other⟩

/-- A text of printable characters is legible. -/
theorem ofList {characters : List Char} (each : ∀ character ∈ characters, IsPrintable character) :
    Legible (String.ofList characters) := by
  unfold Legible
  rwa [String.toList_ofList]

/-- A legible text stands on one line. -/
theorem single {text : String} (legible : Legible text) : '\n' ∉ text.toList := by
  intro member
  have printable := legible '\n' member
  revert printable
  decide

end Legible

/-! ### Numerals and escapes -/

namespace Numeral

/-- Digits are printable. -/
theorem isPrintable_digit : ∀ value < 16, IsPrintable (digit value) := by decide

/-- A number is written in printable characters. -/
theorem isPrintable_of_mem_digits {base : Nat} (least : 2 ≤ base) (most : base ≤ 16)
    (number : Nat) : ∀ character ∈ digits base number, IsPrintable character := by
  induction number using Nat.strongRecOn with
  | ind number ih =>
    rw [digits]
    split
    · simpa using isPrintable_digit number (by omega)
    · refine List.forall_mem_append.mpr ⟨ih _ (Nat.div_lt_self (by omega) least), ?_⟩
      have small := Nat.mod_lt number (by omega : 0 < base)
      exact List.forall_mem_singleton.mpr (isPrintable_digit _ (by omega))

/-- A natural number is legible. -/
theorem legible_ofNat (number : Nat) : Legible (ofNat number) :=
  .ofList (isPrintable_of_mem_digits (by decide) (by decide) number)

/-- An integer is legible. -/
theorem legible_ofInt (number : Int) : Legible (ofInt number) := by
  refine .ofList ?_
  cases number with
  | ofNat number => exact isPrintable_of_mem_digits (by decide) (by decide) number
  | negSucc number =>
    have digits := isPrintable_of_mem_digits (by decide : 2 ≤ 10) (by decide) (number + 1)
    exact List.forall_mem_cons.mpr ⟨by decide, digits⟩

end Numeral

/-- A character is escaped in printable ones. -/
theorem isPrintable_of_mem_escapeCharacter (character : Char) :
    ∀ shown ∈ escapeCharacter character, IsPrintable shown := by
  have short {letter : Char} (printable : IsPrintable letter) :
      ∀ shown ∈ ['\\', letter], IsPrintable shown :=
    List.forall_mem_cons.mpr ⟨by decide, List.forall_mem_singleton.mpr printable⟩
  unfold escapeCharacter
  split
  iterate 6 exact short (by decide)
  split
  · rename_i printable
    exact List.forall_mem_singleton.mpr printable
  · have digits := Numeral.isPrintable_of_mem_digits (by decide) (Nat.le_refl 16) character.toNat
    unfold codePointEscape
    simp only [List.forall_mem_cons, List.forall_mem_append]
    exact ⟨by decide, by decide, by decide, digits, by decide, List.forall_mem_nil _⟩

/-! ### Tokens -/

/-- A digit is printable. -/
theorem IsDigit.isPrintable {character : Char} (digit : IsDigit character) :
    IsPrintable character := by
  obtain ⟨least, most⟩ := digit
  rw [Char.le_def, UInt32.le_iff_toNat_le] at least most
  exact ⟨Nat.le_trans (by decide) least, Nat.le_trans most (by decide)⟩

/-- A letter is printable. -/
theorem IsLetter.isPrintable {character : Char} (letter : IsLetter character) :
    IsPrintable character := by
  rcases letter with ⟨least, most⟩ | ⟨least, most⟩ | rfl
  · rw [Char.le_def, UInt32.le_iff_toNat_le] at least most
    exact ⟨Nat.le_trans (by decide) least, Nat.le_trans most (by decide)⟩
  · rw [Char.le_def, UInt32.le_iff_toNat_le] at least most
    exact ⟨Nat.le_trans (by decide) least, Nat.le_trans most (by decide)⟩
  · decide

/-- A word is made of printable characters. -/
theorem IsWord.isPrintable {text : List Char} (word : IsWord text) :
    ∀ character ∈ text, IsPrintable character := by
  obtain ⟨first, rest, rfl, letter, others⟩ := word
  refine List.forall_mem_cons.mpr ⟨letter.isPrintable, fun character member => ?_⟩
  rcases others character member with letter | digit
  · exact letter.isPrintable
  · exact digit.isPrintable

/-- A reserved word is legible. -/
theorem Keyword.legible_spelling (keyword : Keyword) : Legible keyword.spelling :=
  keyword.isWord_spelling.isPrintable

/-- A symbol is legible. -/
theorem Symbol.legible_spelling (symbol : Symbol) : Legible symbol.spelling := by
  cases symbol <;> decide

/-- A piece that is a token is legible. -/
theorem Cut.legible {source rest : List Char} {piece : Piece} (cut : Cut source rest piece)
    {kind : TokenKind} {text : List Char} (token : piece.token? = some (kind, text)) :
    Legible kind.text := by
  cases cut with
  | blank _ _ | stray _ _ _ => cases token
  | token _ read _ =>
    cases read with
    | number | oversized =>
      cases token
      exact Numeral.legible_ofInt _
    | @keyword word _ =>
      cases token
      exact word.legible_spelling
    | name word _ =>
      cases token
      exact .ofList word.isPrintable
    | @symbol sign _ =>
      cases token
      exact sign.legible_spelling

/-- A lexeme that is a token is legible. -/
theorem Lexeme.IsCut.legible {lexeme : Lexeme} (cut : lexeme.IsCut) {kind : TokenKind}
    (found : lexeme.kind? = some kind) : Legible kind.text := by
  obtain ⟨source, rest, cut⟩ := cut
  have token : lexeme.piece.token? = some (kind, lexeme.text) := by
    rw [lexeme.token?_piece, found, Option.map_some]
  exact cut.legible token

/-- A lexeme that is read is a piece of the script. -/
theorem Lexeme.isCut_of_read {text : List Char} {read unread : List Lexeme}
    (split : lexemes text = read ++ unread) {start position : Position} {lexeme : Lexeme}
    (member : (position, lexeme) ∈ placed start read) : lexeme.IsCut := by
  have early := List.mem_append_left unread (mem_of_mem_placed member)
  rw [← split] at early
  exact isCut_of_mem_lexemes lexeme early

/-- What is seen in the tokens of a script is legible. -/
theorem SourceFile.legible_of_seen {file : SourceFile} {kind : TokenKind}
    (seen : Seen file.lex.tokens kind) : Legible kind.text := by
  have ending : Legible TokenKind.endOfInput.text := by decide
  rcases seen with rfl | member
  · exact ending
  obtain ⟨token, inside, rfl⟩ := List.mem_map.mp member
  obtain ⟨read, unread, split, reads⟩ := file.lex_reads
  rw [reads.tokens] at inside
  rcases List.mem_append.mp inside with early | last
  · rw [tokensFrom_eq_filterMap, List.mem_filterMap] at early
    obtain ⟨⟨position, lexeme⟩, placed, made⟩ := early
    obtain ⟨kind, found, rfl⟩ := Option.map_eq_some_iff.mp made
    exact (Lexeme.isCut_of_read split placed).legible found
  · rw [List.mem_singleton.mp last]
    exact ending

/-! ### Messages -/

/-- A lexical error of a script is legible. -/
theorem LexicalError.legible_message {lexeme : Lexeme} (cut : lexeme.IsCut) {error : LexicalError}
    (found : lexeme.error? = some error) : Legible error.message := by
  cases lexeme with
  | blank | numeral | word | symbol => cases found
  | stray character =>
    cases found
    have escaped := Legible.ofList (isPrintable_of_mem_escapeCharacter character)
    exact (Legible.append (by decide) escaped).append (by decide)
  | oversized digits =>
    cases found
    have numeral := Legible.ofList fun character member =>
      (cut.oversized.1.2 character member).isPrintable
    exact (Legible.append (by decide) numeral).append (by decide)

/-- A place is legible. -/
theorem Place.legible_phrase (place : Place) : Legible place.phrase := by
  cases place with
  | afterKeyword keyword | beforeBody keyword | afterArguments keyword | afterStatement keyword =>
    exact (Legible.append (by decide) keyword.legible_spelling).append (by decide)
  | _ => decide

/-- A fault is legible if what it quotes is. -/
theorem SyntaxFault.legible_message {fault : SyntaxFault}
    (quoted : ∀ found ∈ fault.quoted?, Legible found.text) : Legible fault.message := by
  cases fault with
  | expectedSymbol symbol place found =>
    have expected : Legible ("expected '" ++ symbol.spelling ++ "' " ++ place.phrase) :=
      ((Legible.append (by decide) symbol.legible_spelling).append (by decide)).append
        place.legible_phrase
    exact ((expected.append (by decide)).append (quoted found rfl)).append (by decide)
  | expectedExpression found | expectedDirection found =>
    exact (Legible.append (by decide) (quoted found rfl)).append (by decide)
  | tooManyArguments => decide
  | tooManyCoordinates keyword =>
    exact (Legible.append (by decide) keyword.legible_spelling).append (by decide)
  | nestingTooDeep => exact Legible.append (by decide) (Numeral.legible_ofNat _)

/-- All diagnostics of a script are kept, and their messages are legible. -/
theorem SourceFile.legible_of_compile {file : SourceFile} {errors : Diagnostics}
    (refused : file.compile = .error errors) :
    errors.total.toNat = errors.stored.length ∧
      ∀ error ∈ errors.stored, Legible error.message := by
  rcases file.compile_cases with ⟨-, lexical⟩ | ⟨-, parsed⟩
  · obtain rfl := Except.error.inj (refused.symm.trans lexical)
    refine ⟨file.lex_kept.1.total, fun error member => ?_⟩
    obtain ⟨read, unread, split, reads⟩ := file.lex_reads
    rw [reads.errors, Diagnostics.empty, List.nil_append] at member
    obtain ⟨⟨position, lexeme⟩, placed, made⟩ := List.mem_filterMap.mp member
    obtain ⟨fault, wrong, rfl⟩ := Option.map_eq_some_iff.mp made
    exact LexicalError.legible_message (Lexeme.isCut_of_read split placed) wrong
  · have ran : Parser.program.run (.start file.lex.tokens) =
        Parser.program (.start file.lex.tokens) := rfl
    rw [parsed, parse, ran] at refused
    rcases stopped : Parser.program (.start file.lex.tokens) with error | ⟨program, after⟩
    · rw [stopped] at refused
      cases refused
      refine ⟨rfl, fun diagnostic member => ?_⟩
      rw [List.mem_singleton.mp member]
      exact SyntaxFault.legible_message fun found quoted =>
        legible_of_seen (Parser.seen_of_program stopped found quoted)
    · rw [stopped] at refused
      cases refused

/-! ### Lines -/

/-- A diagnostic with a legible message is legible. -/
theorem Diagnostic.legible_text {diagnostic : Diagnostic} (legible : Legible diagnostic.message) :
    Legible diagnostic.text := by
  have span : Legible diagnostic.span.text :=
    ((Numeral.legible_ofNat _).append (by decide)).append (Numeral.legible_ofNat _)
  have code : Legible diagnostic.code.text := Legible.append (by decide) (Numeral.legible_ofNat _)
  have stage : Legible diagnostic.stage.word := by cases diagnostic.stage <;> decide
  exact (((((span.append (by decide)).append code).append (by decide)).append stage).append
    (by decide)).append legible

/-- Where all diagnostics are kept and each is on one line, these are the lines that are shown. -/
theorem Diagnostics.splitLines_text {errors : Diagnostics}
    (kept : errors.total.toNat = errors.stored.length)
    (single : ∀ error ∈ errors.stored, '\n' ∉ error.text.toList) :
    splitLines errors.text.toList = errors.stored.map (fun error => error.text.toList) ++ [[]] := by
  have all : errors.text = String.join (errors.stored.map fun error => error.text ++ "\n") := by
    rw [text, kept, Nat.sub_self]
    exact String.append_empty
  rw [all, String.join_eq, String.toList_ofList, List.map_map]
  generalize errors.stored = stored at single
  induction stored with
  | nil => rfl
  | cons error rest ih =>
    obtain ⟨first, others⟩ := List.forall_mem_cons.mp single
    have line : (error.text ++ "\n").toList = error.text.toList ++ ['\n'] := String.toList_append
    rw [List.map_cons, List.flatten_cons, Function.comp_apply, line, List.append_assoc,
      List.singleton_append, splitLines_line first, ih others]
    rfl

/-- All that is told of a script that is refused is legible. Every diagnostic has a message of
printable ASCII, so their text has one line for each of them, in order: the place, the code, the
stage and the message. No line tells of others, since none are left out. -/
theorem SourceFile.compile_legible {file : SourceFile} {errors : Diagnostics}
    (refused : file.compile = .error errors) :
    (∀ error ∈ errors.stored, ∀ character ∈ error.message.toList,
      0x20 ≤ character.toNat ∧ character.toNat ≤ 0x7e) ∧
    errors.total.toNat = errors.stored.length ∧
    errors.text.toList.count '\n' = errors.total.toNat ∧
    splitLines errors.text.toList =
      (errors.stored.map fun error =>
        (Numeral.ofNat error.span.start.line.toNat ++ ":" ++
          Numeral.ofNat error.span.start.column.toNat ++ ": " ++
          ("E" ++ Numeral.ofNat error.code.number.toNat) ++ " [" ++ error.stage.word ++ "] " ++
          error.message).toList) ++ [[]] := by
  obtain ⟨kept, legible⟩ := legible_of_compile refused
  have lines := Diagnostics.splitLines_text kept fun error member =>
    (Diagnostic.legible_text (legible error member)).single
  refine ⟨legible, kept, ?_, lines⟩
  have count := length_splitLines errors.text.toList
  rw [lines, List.length_append, List.length_map, List.length_singleton] at count
  omega

/-- A letter, a quote and a control character outside the language are told on three lines. -/
theorem SourceFile.compile_legible_stray :
    ∃ errors, compile ⟨"stray.bee", "x = é;\n\"\x00"⟩ = .error errors ∧
      errors.text = "1:5: E100 [lex] unexpected character '\\u\x7be9\x7d'\n" ++
        "2:1: E100 [lex] unexpected character '\\\"'\n" ++
        "2:2: E100 [lex] unexpected character '\\u\x7b0\x7d'\n" ∧
      errors.text.toList.count '\n' = 3 ∧
      ∀ error ∈ errors.stored, ∀ character ∈ error.message.toList,
        0x20 ≤ character.toNat ∧ character.toNat ≤ 0x7e := by
  have told : (match compile ⟨"stray.bee", "x = é;\n\"\x00"⟩ with
      | .error errors => (errors.text, errors.total)
      | .ok _ => ("", 0)) =
      ("1:5: E100 [lex] unexpected character '\\u\x7be9\x7d'\n" ++
        "2:1: E100 [lex] unexpected character '\\\"'\n" ++
        "2:2: E100 [lex] unexpected character '\\u\x7b0\x7d'\n", 3) := by
    decide +kernel
  rcases refused : compile ⟨"stray.bee", "x = é;\n\"\x00"⟩ with errors | program
  · rw [refused] at told
    have total : errors.total = 3 := congrArg Prod.snd told
    obtain ⟨printable, -, feeds, -⟩ := compile_legible refused
    rw [total] at feeds
    exact ⟨errors, rfl, congrArg Prod.fst told, feeds, printable⟩
  · rw [refused] at told
    have none : (0 : UInt64) = 3 := congrArg Prod.snd told
    exact absurd none (by decide)

end Waggle
