import Waggle.Proofs.Acceptance
import Waggle.Proofs.Evenness
import Waggle.Proofs.Location

/-!
# One fault for what is no program

A list of tokens is a program, and then nothing is wrong with it, or it is none, and then exactly
one thing is. This holds of every list, also of one that no script is read as: the end of the input
may be missing or stand between other tokens, and the spans may be any. Which of the two it is
depends on the grammar and the limit of nesting alone.

A meter says of itself neither of this: it may find a second error on the way out of the first, or
none at all, or give a program in spite of one. That it never does is told by
`SourceFile.readProgram_answer`, and so the check in the end has nothing to take back.
-/

namespace Waggle

/-- Whether the tokens before the end of the input have a derivation within the limit of nesting. -/
def IsScript (tokens : List Token) : Prop :=
  ∃ stmts : Derivation .statements, stmts.written = scriptKinds tokens ∧ stmts.charge ≤ maxNesting

/-- Whether a place is where a token begins, or the first of all, where a cursor stands before it
has passed any token. -/
def BeginsToken (tokens : List Token) (position : Position) : Prop :=
  position = .first ∨ ∃ token ∈ tokens, position = token.span.start

/-- Spans that begin where tokens do stay where they are. -/
def Relocation.onTokens (tokens : List Token) : Relocation where
  move := id
  Covers span := BeginsToken tokens span.start
  covers_merge {left right} first second := by
    rcases Span.start_merge left right with same | same
    · exact same ▸ first
    · exact same ▸ second
  move_merge _ _ := rfl

/-- A script is read as a program. -/
theorem Parser.program_of_isScript {tokens : List Token} (script : IsScript tokens) :
    ∃ result after, program (.start tokens) = .ok (result, after) := by
  obtain ⟨stmts, written, deep⟩ := script
  obtain ⟨rest, split, ended⟩ := exists_takeWhile_append (tokens.map Token.kind)
  rw [← scriptKinds, ← written] at split
  exact program_complete split ended deep

/-- Only a script is read as a program. -/
theorem Parser.isScript_of_program (tokens : List Token) :
    program.Ensures (.start tokens) fun _ _ => IsScript tokens := by
  refine (program_sound tokens).mono ?_
  rintro result after ⟨stmts, written, deep, -⟩
  exact ⟨stmts, written, deep⟩

/-- A program parser that stops does so where a token begins. -/
theorem Parser.beginsToken_of_error {tokens : List Token} {error : SyntaxError}
    (stopped : program (.start tokens) = .error error) : BeginsToken tokens error.span.start := by
  have stays : (Relocation.onTokens tokens).Shifts (.start tokens) (.start tokens) :=
    ⟨rfl, .inl rfl, List.forall₂_same.mpr fun token member =>
      ⟨rfl, rfl, .inr ⟨token, member, rfl⟩⟩, rfl⟩
  have moves := program_moves _ _ stays
  rw [stopped] at moves
  exact moves.1

namespace SourceFile

/-- The check in the end takes no program back, so the answer is that of a parser. -/
theorem parseResult_eq (file : SourceFile) (tokens : List Token) :
    file.parseResult tokens = (file.readProgram tokens).answer := by
  have answer := file.readProgram_answer tokens
  have told : (file.readProgram tokens).reading.errors =
      (ParseResult.ofExcept (file.parse tokens)).errors := congrArg ParseResult.errors answer
  unfold parseResult
  by_cases wrong : (file.readProgram tokens).reading.errors.isPresent
  · rw [if_pos wrong, answer, told]
    cases read : file.parse tokens with
    | ok program =>
      rw [told, read] at wrong
      cases wrong
    | error errors => rfl
  · exact if_neg wrong

/-- Whatever the tokens are, reading them answers a program without any error, or no program and
one error of syntax, which begins where one of them does, and what is answered is what was read:
nothing is taken back in the end. -/
theorem parse_fails_fast (file : SourceFile) (tokens : List Token) :
    file.parseResult tokens = .ofExcept (file.parse tokens) ∧
      (file.parseResult tokens).program = (file.readProgram tokens).result ∧
      ((IsScript tokens ∧ (∃ program, (file.parseResult tokens).program = some program) ∧
          (file.parseResult tokens).errors.total = 0 ∧
          (file.parseResult tokens).errors.stored = []) ∨
        (¬IsScript tokens ∧ (file.parseResult tokens).program = none ∧
          (file.parseResult tokens).errors.total = 1 ∧
          ∃ error, (file.parseResult tokens).errors.stored = [error] ∧ error.IsSyntactic ∧
            error.file = file.name ∧ BeginsToken tokens error.span.start)) := by
  have answer : file.parseResult tokens = .ofExcept (file.parse tokens) :=
    (file.parseResult_eq tokens).trans (file.readProgram_answer tokens)
  refine ⟨answer, congrArg ParseResult.program (file.parseResult_eq tokens), ?_⟩
  have ran : Parser.program.run (.start tokens) = Parser.program (.start tokens) := rfl
  rw [answer, parse, ran]
  rcases read : Parser.program (.start tokens) with error | ⟨program, after⟩
  · right
    have refused : ¬IsScript tokens := by
      intro script
      obtain ⟨result, after, found⟩ := Parser.program_of_isScript script
      rw [read] at found
      cases found
    exact ⟨refused, rfl, rfl, _, rfl, error.fault.isSyntactic file _, rfl,
      Parser.beginsToken_of_error read⟩
  · exact .inl ⟨Parser.isScript_of_program tokens program after read, ⟨program, rfl⟩, rfl, rfl⟩

end SourceFile

/-- What is opened and never closed is told once, and not again for each level on the way out. -/
example : (SourceFile.parseResult default ([.keyword .ifWord, .symbol .leftParen, .symbol .minus,
    .symbol .leftParen, .number 1, .symbol .plus].map fun kind =>
      ⟨kind, "", .point .first⟩)).errors.total = 1 := by
  decide +kernel

end Waggle
