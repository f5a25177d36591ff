import Waggle.Compile
import Waggle.Proofs.Completeness
import Waggle.Proofs.Soundness
import Waggle.Proofs.Unambiguity

/-!
# Programs are exactly what the grammar derives

A list of tokens is accepted as a program exactly if its tokens up to the end of the input have a
derivation whose charge is within the limit of nesting. The derivation is the only one that those
tokens have, and the program without spans is its tree.
-/

namespace Waggle

/-- The kinds of the tokens before the end of the input. -/
def scriptKinds (tokens : List Token) : List TokenKind :=
  (tokens.map Token.kind).takeWhile (· ≠ .endOfInput)

namespace SourceFile

/-- A list of tokens is parsed as a program exactly if the program parser reads it as that one. -/
theorem parse_eq_ok_iff (file : SourceFile) (tokens : List Token) (program : Program) :
    file.parse tokens = .ok program ↔
      ∃ after, Parser.program (.start tokens) = .ok (program, after) := by
  have ran : Parser.program.run (.start tokens) = Parser.program (.start tokens) := rfl
  rw [parse, ran]
  rcases Parser.program (.start tokens) with error | ⟨found, after⟩
  · simp
  · simp

/-- Parsing accepts exactly what the grammar derives within the limit of nesting, and its result is
the tree of the only derivation there is. -/
theorem parse_exact (file : SourceFile) (tokens : List Token) :
    ((∃ program, file.parse tokens = .ok program) ↔
      ∃ stmts : Derivation .statements,
        stmts.written = scriptKinds tokens ∧ stmts.charge ≤ maxNesting) ∧
    ∀ program, file.parse tokens = .ok program →
      ∃ stmts : Derivation .statements,
        stmts.written = scriptKinds tokens ∧ stmts.charge ≤ maxNesting ∧
        program.bare = ⟨stmts.tree, .blank⟩ ∧
        ∀ other : Derivation .statements, other.written = scriptKinds tokens → other = stmts := by
  have derived (program : Program) (parsed : file.parse tokens = .ok program) :
      ∃ stmts : Derivation .statements, stmts.written = scriptKinds tokens ∧
        stmts.charge ≤ maxNesting ∧ program.bare = ⟨stmts.tree, .blank⟩ := by
    obtain ⟨after, ran⟩ := (parse_eq_ok_iff file tokens program).mp parsed
    exact Parser.program_sound tokens program after ran
  refine ⟨⟨?_, ?_⟩, ?_⟩
  · rintro ⟨program, parsed⟩
    obtain ⟨stmts, written, deep, _⟩ := derived program parsed
    exact ⟨stmts, written, deep⟩
  · rintro ⟨stmts, written, deep⟩
    obtain ⟨rest, split, ended⟩ := exists_takeWhile_append (tokens.map Token.kind)
    rw [← scriptKinds, ← written] at split
    obtain ⟨program, after, ran⟩ := Parser.program_complete split ended deep
    exact ⟨program, (parse_eq_ok_iff file tokens program).mpr ⟨after, ran⟩⟩
  · intro program parsed
    obtain ⟨stmts, written, deep, tree⟩ := derived program parsed
    refine ⟨stmts, written, deep, tree, fun other same => ?_⟩
    exact Derivation.eq_of_written_eq (same.trans written.symm)

/-- The tokens of `-x == 8 - 2 - 1;` are a program that compares the negation of `x` with a
difference grouped to the left. -/
theorem parse_exact_difference :
    let tokens : List Token :=
      [.symbol .minus, .identifier "x", .symbol .equal, .number 8, .symbol .minus, .number 2,
        .symbol .minus, .number 1, .symbol .semicolon].map fun kind => ⟨kind, "", .blank⟩
    ∃ program, (SourceFile.mk "" "").parse tokens = .ok program ∧
      program.bare = ⟨[.evaluate (.binary .equal (.negate (.reference "x" .blank) .blank)
        (.binary .subtract (.binary .subtract (.literal (.int 8) .blank)
          (.literal (.int 2) .blank) .blank) (.literal (.int 1) .blank) .blank) .blank) .blank],
        .blank⟩ := by
  intro tokens
  let number (value : Int64) : Derivation (.expr (.chain .product)) :=
    .chain (.unsigned (.literal (.number value))) .noOperator
  let left : Derivation (.expr (.chain .sum)) :=
    .chain (.chain (.minus (.unsigned (.reference "x"))) .noOperator) .noOperator
  let right : Derivation (.expr (.chain .sum)) :=
    .chain (number 8) (.operator .subtract rfl (number 2)
      (.operator .subtract rfl (number 1) .noOperator))
  let stmts : Derivation .statements :=
    .andThen (.evaluate (.expression (.chain left (.operator .equal rfl right .noOperator))))
      .noStatement
  obtain ⟨program, parsed⟩ := (parse_exact ⟨"", ""⟩ tokens).1.mpr ⟨stmts, rfl, by decide⟩
  obtain ⟨found, _, _, tree, only⟩ := (parse_exact ⟨"", ""⟩ tokens).2 program parsed
  rw [← only stmts rfl] at tree
  exact ⟨program, parsed, tree⟩

end SourceFile

end Waggle
