import Waggle.Syntax.Statement

/-!
# The grammar of scripts

A derivation says how a stretch of tokens is put together by the rules of the grammar:

    statement   ::=  if ( expr ) block [ else block ]  |  while ( expr ) block
                  |  repeat ( expr ) block  |  move ( direction ) ;
                  |  move ( expr , coordinates ) ;  |  moveto ( coordinates ) ;
                  |  attack ( expr [ , expr ] ) ;  |  name = expr ;  |  expr ;
    block       ::=  left-brace statement* right-brace
    coordinates ::=  expr [ , expr [ , expr ] ]
    expr        ::=  equation
    equation    ::=  sum { == sum }
    sum         ::=  product { (+ | -) product }
    product     ::=  signed { (* | /) signed }
    signed      ::=  - signed  |  primary
    primary     ::=  literal  |  name  |  name ( [ expr { , expr } ] )  |  ( expr )

A derivation has the tokens it is written as, the tree it is read as, and a charge: the number of
levels of nesting that are open at its deepest place. None of this refers to how tokens are read;
the last lemmas tell which tokens a reader takes for operators, literals and directions.
-/

namespace Waggle

/-- A span in place of those that are forgotten. -/
def Span.blank : Span := .point .first

mutual

/-- An expression with its spans forgotten. -/
def Expr.bare : Expr → Expr
  | .literal value _ => .literal value .blank
  | .reference name _ => .reference name .blank
  | .binary op left right _ => .binary op left.bare right.bare .blank
  | .negate operand _ => .negate operand.bare .blank
  | .call callee arguments _ => .call ⟨callee.name, .blank⟩ (bareAll arguments) .blank

/-- Expressions with their spans forgotten. -/
def bareAll : List Expr → List Expr
  | [] => []
  | expr :: rest => expr.bare :: bareAll rest

end

/-- A motion with its spans forgotten. -/
def Motion.bare : Motion → Motion
  | .step direction => .step direction
  | .offset coordinates => .offset (bareAll coordinates)

mutual

/-- A statement with its spans forgotten. -/
def Stmt.bare : Stmt → Stmt
  | .assign name value _ => .assign ⟨name.name, .blank⟩ value.bare .blank
  | .branch condition consequent none _ =>
    .branch condition.bare ⟨bareStmts consequent.stmts, .blank⟩ none .blank
  | .branch condition consequent (some alternative) _ =>
    .branch condition.bare ⟨bareStmts consequent.stmts, .blank⟩
      (some ⟨bareStmts alternative.stmts, .blank⟩) .blank
  | .whileLoop condition body _ =>
    .whileLoop condition.bare ⟨bareStmts body.stmts, .blank⟩ .blank
  | .repeatLoop count body _ => .repeatLoop count.bare ⟨bareStmts body.stmts, .blank⟩ .blank
  | .evaluate expr _ => .evaluate expr.bare .blank
  | .move target motion _ => .move (target.map Expr.bare) motion.bare .blank
  | .moveTo coordinates _ => .moveTo (bareAll coordinates) .blank
  | .attack attacker target _ => .attack (attacker.map Expr.bare) target.bare .blank

/-- Statements with their spans forgotten. -/
def bareStmts : List Stmt → List Stmt
  | [] => []
  | stmt :: rest => stmt.bare :: bareStmts rest

end

/-- A block with its spans forgotten. -/
def Block.bare (block : Block Stmt) : Block Stmt := ⟨bareStmts block.stmts, .blank⟩

/-- A program with its spans forgotten. -/
def Program.bare (program : Program) : Program := ⟨bareStmts program.stmts, .blank⟩

/-- The levels of operators, from the loosest to the tightest. -/
inductive Level where
  | equation
  | sum
  | product
deriving DecidableEq

/-- The level of an operator. -/
def BinaryOp.level : BinaryOp → Level
  | .equal => .equation
  | .add | .subtract => .sum
  | .multiply | .divide => .product

/-- The symbol that an operator is written as. -/
def BinaryOp.sign : BinaryOp → Symbol
  | .equal => .equal
  | .add => .plus
  | .subtract => .minus
  | .multiply => .star
  | .divide => .slash

/-- The tiers of expressions: chains of operators of a level, signs, and what they stand between. -/
inductive Tier where
  | chain (level : Level)
  | signed
  | primary
deriving DecidableEq

/-- What the operators of a level stand between. -/
def Level.operand : Level → Tier
  | .equation => .chain .sum
  | .sum => .chain .product
  | .product => .signed

/-- The parts that a script is put together from. -/
inductive Part where
  /-- An expression of a tier. -/
  | expr (tier : Tier)
  /-- An expression where one can stand on its own: as a condition, as an argument, between
  parentheses. -/
  | expression
  /-- Operators of a level, each with the operand after it. -/
  | tail (level : Level)
  /-- Further expressions, each after a comma. -/
  | items
  /-- One to three coordinates. -/
  | coordinates
  /-- A statement. -/
  | statement
  /-- Any number of statements. -/
  | statements
  /-- A block. -/
  | block
deriving DecidableEq

/-- What is written down as a value. -/
inductive Literal where
  | number (value : Int64)
  | truth (value : Bool)
  | direction (heading : Direction)
deriving DecidableEq

/-- The token of a literal. -/
def Literal.kind : Literal → TokenKind
  | .number value => .number value
  | .truth value => .keyword (.truth value)
  | .direction heading => .keyword (.direction heading)

/-- The value of a literal. -/
def Literal.value : Literal → Value
  | .number value => .int value
  | .truth value => .bool value
  | .direction heading => .direction heading

/-- A derivation of a part by the rules of the grammar. -/
inductive Derivation : Part → Type where
  | chain {level : Level} (first : Derivation (.expr level.operand))
    (rest : Derivation (.tail level)) : Derivation (.expr (.chain level))
  | noOperator {level : Level} : Derivation (.tail level)
  | operator {level : Level} (op : BinaryOp) (fits : op.level = level)
    (operand : Derivation (.expr level.operand)) (rest : Derivation (.tail level)) :
    Derivation (.tail level)
  | minus (operand : Derivation (.expr .signed)) : Derivation (.expr .signed)
  | unsigned (inner : Derivation (.expr .primary)) : Derivation (.expr .signed)
  | literal (token : Literal) : Derivation (.expr .primary)
  | reference (name : String) : Derivation (.expr .primary)
  | callNone (name : String) : Derivation (.expr .primary)
  | call (name : String) (first : Derivation .expression) (rest : Derivation .items) :
    Derivation (.expr .primary)
  | parens (inner : Derivation .expression) : Derivation (.expr .primary)
  | expression (inner : Derivation (.expr (.chain .equation))) : Derivation .expression
  | noItem : Derivation .items
  | item (head : Derivation .expression) (rest : Derivation .items) : Derivation .items
  | one (x : Derivation .expression) : Derivation .coordinates
  | two (x y : Derivation .expression) : Derivation .coordinates
  | three (x y z : Derivation .expression) : Derivation .coordinates
  | branch (condition : Derivation .expression) (consequent : Derivation .block) :
    Derivation .statement
  | branchElse (condition : Derivation .expression)
    (consequent alternative : Derivation .block) : Derivation .statement
  | whileLoop (condition : Derivation .expression) (body : Derivation .block) :
    Derivation .statement
  | repeatLoop (count : Derivation .expression) (body : Derivation .block) :
    Derivation .statement
  | moveStep (heading : Direction) : Derivation .statement
  | moveBy (target : Derivation .expression) (offset : Derivation .coordinates) :
    Derivation .statement
  | moveTo (position : Derivation .coordinates) : Derivation .statement
  | attack (target : Derivation .expression) : Derivation .statement
  | attackBy (attacker target : Derivation .expression) : Derivation .statement
  | assign (name : String) (value : Derivation .expression) : Derivation .statement
  | evaluate (expr : Derivation .expression) : Derivation .statement
  | noStatement : Derivation .statements
  | andThen (head : Derivation .statement) (rest : Derivation .statements) :
    Derivation .statements
  | block (body : Derivation .statements) : Derivation .block

/-- The tokens between a keyword and the end of its arguments in parentheses. -/
def inParens (keyword : Keyword) (inner : List TokenKind) : List TokenKind :=
  .keyword keyword :: .symbol .leftParen :: (inner ++ [.symbol .rightParen])

namespace Derivation

/-- The kinds of tokens that a derivation is written as. -/
@[simp] def written : {part : Part} → Derivation part → List TokenKind
  | _, .chain first rest => first.written ++ rest.written
  | _, .noOperator => []
  | _, .operator op _ operand rest => .symbol op.sign :: (operand.written ++ rest.written)
  | _, .minus operand => .symbol .minus :: operand.written
  | _, .unsigned inner => inner.written
  | _, .literal token => [token.kind]
  | _, .reference name => [.identifier name]
  | _, .callNone name => [.identifier name, .symbol .leftParen, .symbol .rightParen]
  | _, .call name first rest =>
    .identifier name :: .symbol .leftParen ::
      (first.written ++ (rest.written ++ [.symbol .rightParen]))
  | _, .parens inner => .symbol .leftParen :: (inner.written ++ [.symbol .rightParen])
  | _, .expression inner => inner.written
  | _, .noItem => []
  | _, .item head rest => .symbol .comma :: (head.written ++ rest.written)
  | _, .one x => x.written
  | _, .two x y => x.written ++ .symbol .comma :: y.written
  | _, .three x y z =>
    x.written ++ .symbol .comma :: (y.written ++ .symbol .comma :: z.written)
  | _, .branch condition consequent => inParens .ifWord condition.written ++ consequent.written
  | _, .branchElse condition consequent alternative =>
    inParens .ifWord condition.written ++
      (consequent.written ++ .keyword .elseWord :: alternative.written)
  | _, .whileLoop condition body => inParens .whileWord condition.written ++ body.written
  | _, .repeatLoop count body => inParens .repeatWord count.written ++ body.written
  | _, .moveStep heading =>
    inParens .move [.keyword (.direction heading)] ++ [.symbol .semicolon]
  | _, .moveBy target offset =>
    inParens .move (target.written ++ .symbol .comma :: offset.written) ++ [.symbol .semicolon]
  | _, .moveTo position => inParens .moveTo position.written ++ [.symbol .semicolon]
  | _, .attack target => inParens .attack target.written ++ [.symbol .semicolon]
  | _, .attackBy attacker target =>
    inParens .attack (attacker.written ++ .symbol .comma :: target.written) ++
      [.symbol .semicolon]
  | _, .assign name value =>
    .identifier name :: .symbol .assign :: (value.written ++ [.symbol .semicolon])
  | _, .evaluate expr => expr.written ++ [.symbol .semicolon]
  | _, .noStatement => []
  | _, .andThen head rest => head.written ++ rest.written
  | _, .block body => .symbol .leftBrace :: (body.written ++ [.symbol .rightBrace])

/-- The levels of nesting that are open at the deepest place of a derivation. A block opens one
level around its statements, a sign one around its operand, and an expression one wherever it
stands. In a chain the first operator opens one level around all that follows, the second another
one around what follows it, and so on, so that the operand after the `i`-th operator lies `i`
levels deeper than the first operand. -/
@[simp] def charge : {part : Part} → Derivation part → Nat
  | _, .chain first rest => max first.charge rest.charge
  | _, .noOperator => 0
  | _, .operator _ _ operand rest => 1 + max operand.charge rest.charge
  | _, .minus operand => 1 + operand.charge
  | _, .unsigned inner => inner.charge
  | _, .literal _ | _, .reference _ | _, .callNone _ => 0
  | _, .call _ first rest => max first.charge rest.charge
  | _, .parens inner => inner.charge
  | _, .expression inner => 1 + inner.charge
  | _, .noItem => 0
  | _, .item head rest => max head.charge rest.charge
  | _, .one x => x.charge
  | _, .two x y => max x.charge y.charge
  | _, .three x y z => max x.charge (max y.charge z.charge)
  | _, .branch condition consequent => max condition.charge consequent.charge
  | _, .branchElse condition consequent alternative =>
    max condition.charge (max consequent.charge alternative.charge)
  | _, .whileLoop condition body => max condition.charge body.charge
  | _, .repeatLoop count body => max count.charge body.charge
  | _, .moveStep _ => 0
  | _, .moveBy target offset => max target.charge offset.charge
  | _, .moveTo position => position.charge
  | _, .attack target => target.charge
  | _, .attackBy attacker target => max attacker.charge target.charge
  | _, .assign _ value => value.charge
  | _, .evaluate expr => expr.charge
  | _, .noStatement => 0
  | _, .andThen head rest => max head.charge rest.charge
  | _, .block body => 1 + body.charge

end Derivation

/-- What a part is read as. -/
@[reducible] def Part.Tree : Part → Type
  | .expr _ | .expression => Expr
  | .tail _ => List (BinaryOp × Expr)
  | .items | .coordinates => List Expr
  | .statement => Stmt
  | .statements => List Stmt
  | .block => Block Stmt

/-- Operators with their operands after a first operand, grouped to the left. -/
def leaning (first : Expr) (rest : List (BinaryOp × Expr)) : Expr :=
  rest.foldl (fun left step => .binary step.1 left step.2 .blank) first

/-- The tree that a derivation is read as, without spans: operators of one level are grouped to the
left, and parentheses leave no trace. -/
@[simp] def Derivation.tree : {part : Part} → Derivation part → part.Tree
  | _, .chain first rest => leaning first.tree rest.tree
  | _, .noOperator => []
  | _, .operator op _ operand rest => (op, operand.tree) :: rest.tree
  | _, .minus operand => Expr.negate operand.tree .blank
  | _, .unsigned inner => inner.tree
  | _, .literal token => Expr.literal token.value .blank
  | _, .reference name => Expr.reference name .blank
  | _, .callNone name => Expr.call ⟨name, .blank⟩ [] .blank
  | _, .call name first rest => Expr.call ⟨name, .blank⟩ (first.tree :: rest.tree) .blank
  | _, .parens inner => inner.tree
  | _, .expression inner => inner.tree
  | _, .noItem => []
  | _, .item head rest => head.tree :: rest.tree
  | _, .one x => [x.tree]
  | _, .two x y => [x.tree, y.tree]
  | _, .three x y z => [x.tree, y.tree, z.tree]
  | _, .branch condition consequent =>
    Stmt.branch condition.tree consequent.tree none .blank
  | _, .branchElse condition consequent alternative =>
    Stmt.branch condition.tree consequent.tree (some alternative.tree) .blank
  | _, .whileLoop condition body => Stmt.whileLoop condition.tree body.tree .blank
  | _, .repeatLoop count body => Stmt.repeatLoop count.tree body.tree .blank
  | _, .moveStep heading => Stmt.move none (.step heading) .blank
  | _, .moveBy target offset => Stmt.move (some target.tree) (.offset offset.tree) .blank
  | _, .moveTo position => Stmt.moveTo position.tree .blank
  | _, .attack target => Stmt.attack none target.tree .blank
  | _, .attackBy attacker target => Stmt.attack (some attacker.tree) target.tree .blank
  | _, .assign name value => Stmt.assign ⟨name, .blank⟩ value.tree .blank
  | _, .evaluate expr => Stmt.evaluate expr.tree .blank
  | _, .noStatement => []
  | _, .andThen head rest => head.tree :: rest.tree
  | _, .block body => ⟨body.tree, .blank⟩

/-- An operator between two expressions without its spans. -/
@[simp] theorem Expr.bare_join (op : BinaryOp) (left right : Expr) :
    (left.join op right).bare = .binary op left.bare right.bare .blank := by
  simp only [join, bare]

/-- Another span makes no difference without spans. -/
@[simp] theorem Expr.bare_withSpan (span : Span) (expr : Expr) :
    (expr.withSpan span).bare = expr.bare := by
  cases expr <;> simp only [withSpan, bare]

/-- The operator of a level that a token stands for. -/
def Level.operator? : Level → TokenKind → Option BinaryOp
  | .equation => Parser.equation?
  | .sum => Parser.sum?
  | .product => Parser.product?

/-- A token is an operator of a level exactly if it is written as one of that level. -/
theorem Level.operator?_eq_some_iff {level : Level} {kind : TokenKind} {op : BinaryOp} :
    level.operator? kind = some op ↔ kind = .symbol op.sign ∧ op.level = level := by
  constructor
  · intro found
    cases level <;> simp only [operator?] at found
    · unfold Parser.equation? at found
      split at found <;> cases found
      exact ⟨rfl, rfl⟩
    · unfold Parser.sum? at found
      split at found <;> cases found
      · exact ⟨rfl, rfl⟩
      · exact ⟨rfl, rfl⟩
    · unfold Parser.product? at found
      split at found <;> cases found
      · exact ⟨rfl, rfl⟩
      · exact ⟨rfl, rfl⟩
  · rintro ⟨rfl, rfl⟩
    cases op <;> rfl

/-- A token is a literal exactly if it is written as one. -/
theorem literal?_eq_some_iff {kind : TokenKind} {value : Value} :
    Parser.literal? kind = some value ↔
      ∃ literal : Literal, kind = literal.kind ∧ value = literal.value := by
  constructor
  · intro found
    unfold Parser.literal? at found
    split at found <;> cases found
    · exact ⟨.number _, rfl, rfl⟩
    · exact ⟨.truth _, rfl, rfl⟩
    · exact ⟨.direction _, rfl, rfl⟩
  · rintro ⟨literal, rfl, rfl⟩
    cases literal <;> rfl

/-- A token names a direction exactly if it is the word for it. -/
theorem direction?_eq_some_iff {kind : TokenKind} {heading : Direction} :
    kind.direction? = some heading ↔ kind = .keyword (.direction heading) := by
  constructor
  · intro found
    unfold TokenKind.direction? at found
    split at found <;> cases found
    rfl
  · rintro rfl
    rfl

end Waggle
