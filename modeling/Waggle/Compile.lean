import Waggle.Syntax.Statement
import Waggle.Token.Lexer

/-!
# Reading a script as a program

A script with a lexical error is refused with all of its lexical errors, and a script whose
tokens are no program with its one error of syntax.
-/

namespace Waggle.SourceFile

/-- The program that a list of tokens is, or the one thing that is wrong with it. -/
def parse (file : SourceFile) (tokens : List Token) : Except Diagnostics Program :=
  match Parser.program.run (.start tokens) with
  | .ok (program, _) => .ok program
  | .error error =>
    .error (.single (file.diagnose error.fault.code error.fault.message error.span))

/-- Reads a script as a program. -/
def compile (file : SourceFile) : Except Diagnostics Program :=
  let lexing := file.lex
  if lexing.diagnostics.isPresent then .error lexing.diagnostics
  else file.parse lexing.tokens

end Waggle.SourceFile
