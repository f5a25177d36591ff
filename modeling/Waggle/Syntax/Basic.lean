import Waggle.Source.Span
import Waggle.Value

/-!
# Programs

The tree that a script is read as. Every node carries the span it was read from; nothing that a
program does depends on one. A host may build trees that no script is read as, such as a move
without coordinates.
-/

namespace Waggle

/-- A name with where it stands. -/
structure Ident where
  /-- The name. -/
  name : String
  /-- Where it stands. -/
  span : Span
deriving DecidableEq, Inhabited

/-- The operators on two values. -/
inductive BinaryOp where
  | equal
  | add
  | subtract
  | multiply
  | divide
deriving DecidableEq, Inhabited

/-- How an operator is written. -/
def BinaryOp.symbol : BinaryOp → String
  | .equal => "=="
  | .add => "+"
  | .subtract => "-"
  | .multiply => "*"
  | .divide => "/"

/-- An expression. -/
inductive Expr where
  /-- A value written down. -/
  | literal (value : Value) (span : Span)
  /-- What a name is bound to. -/
  | reference (name : String) (span : Span)
  /-- An operator on two expressions. -/
  | binary (op : BinaryOp) (left right : Expr) (span : Span)
  /-- The negative of an expression. -/
  | negate (operand : Expr) (span : Span)
  /-- A call of a function by name. -/
  | call (callee : Ident) (arguments : List Expr) (span : Span)
deriving Inhabited

namespace Expr

/-- Where an expression stands. -/
def span : Expr → Span
  | .literal _ span | .reference _ span | .binary _ _ _ span | .negate _ span
  | .call _ _ span => span

/-- The same expression with another span, as between parentheses. -/
def withSpan (span : Span) : Expr → Expr
  | .literal value _ => .literal value span
  | .reference name _ => .reference name span
  | .binary op left right _ => .binary op left right span
  | .negate operand _ => .negate operand span
  | .call callee arguments _ => .call callee arguments span

/-- An operator between two expressions, over both of their spans. -/
def join (op : BinaryOp) (left right : Expr) : Expr :=
  .binary op left right (left.span.merge right.span)

end Expr

/-- How far a move goes. -/
inductive Motion where
  /-- One step in a direction. -/
  | step (direction : Direction)
  /-- By an offset of written coordinates. -/
  | offset (coordinates : List Expr)
deriving Inhabited

/-- Statements between braces. -/
structure Block (σ : Type) where
  /-- The statements, in order. -/
  stmts : List σ
  /-- Where the block stands, braces included. -/
  span : Span

/-- A statement. -/
inductive Stmt where
  /-- Binds a name to the value of an expression. -/
  | assign (name : Ident) (value : Expr) (span : Span)
  /-- Runs a block if a condition holds, and perhaps another one if not. -/
  | branch (condition : Expr) (consequent : Block Stmt) (alternative : Option (Block Stmt))
    (span : Span)
  /-- Runs a block while a condition holds. -/
  | whileLoop (condition : Expr) (body : Block Stmt) (span : Span)
  /-- Runs a block a number of times. -/
  | repeatLoop (count : Expr) (body : Block Stmt) (span : Span)
  /-- Evaluates an expression. -/
  | evaluate (expr : Expr) (span : Span)
  /-- Moves a target, or the actor. -/
  | move (target : Option Expr) (motion : Motion) (span : Span)
  /-- Places the actor. -/
  | moveTo (coordinates : List Expr) (span : Span)
  /-- Lets an entity, or the actor, attack a target. -/
  | attack (attacker : Option Expr) (target : Expr) (span : Span)

instance : Inhabited Stmt := ⟨.evaluate default default⟩

namespace Stmt

/-- Where a statement stands. -/
def span : Stmt → Span
  | .assign _ _ span | .branch _ _ _ span | .whileLoop _ _ span | .repeatLoop _ _ span
  | .evaluate _ span | .move _ _ span | .moveTo _ span | .attack _ _ span => span

/-- A short name for the kind of a statement. -/
def label : Stmt → String
  | .assign .. => "assign"
  | .branch .. => "if"
  | .whileLoop .. => "while"
  | .repeatLoop .. => "repeat"
  | .evaluate .. => "expr"
  | .move .. => "move"
  | .moveTo .. => "moveto"
  | .attack .. => "attack"

end Stmt

/-- A script as a tree. -/
structure Program where
  /-- The statements, in order. -/
  stmts : List Stmt
  /-- From the first token to the last. -/
  span : Span
deriving Inhabited

end Waggle
