import Waggle.Eval.Expression
import Waggle.Proofs.Acceptance

/-!
# How high an expression can be

While a chain of operators is read, each of its operators holds a level of nesting, but all of them
are given back where the chain ends. The chain is then an operand of the next looser chain, with
all the levels it had to itself still left for that one. So within `levels` levels an expression
can grow by `levels` operators at each of the three levels of operators, and what stands between
its parentheses grows in the same way within one level less: `tallest` adds this up.

Evaluation descends one node at a time. `parse_height_le` says that it never needs more than 6112
levels for an expression of a program that was parsed, however long the script is.
-/

namespace Waggle

mutual

/-- The height of an expression: the nodes on its longest path. -/
def Expr.height : Expr → Nat
  | .literal _ _ | .reference _ _ => 1
  | .binary _ left right _ => max left.height right.height + 1
  | .negate operand _ => operand.height + 1
  | .call _ arguments _ => heightOfAll arguments + 1

/-- The height of the tallest of some expressions, and none at all without any. -/
def heightOfAll : List Expr → Nat
  | [] => 0
  | expr :: rest => max expr.height (heightOfAll rest)

end

/-- The expressions that a motion is given by. -/
def Motion.exprs : Motion → List Expr
  | .step _ => []
  | .offset coordinates => coordinates

mutual

/-- The expressions that stand in a statement and in its blocks. -/
def Stmt.exprs : Stmt → List Expr
  | .assign _ value _ => [value]
  | .branch condition consequent none _ => condition :: exprsOfStmts consequent.stmts
  | .branch condition consequent (some alternative) _ =>
    condition :: (exprsOfStmts consequent.stmts ++ exprsOfStmts alternative.stmts)
  | .whileLoop condition body _ => condition :: exprsOfStmts body.stmts
  | .repeatLoop count body _ => count :: exprsOfStmts body.stmts
  | .evaluate expr _ => [expr]
  | .move target motion _ => target.toList ++ motion.exprs
  | .moveTo coordinates _ => coordinates
  | .attack attacker target _ => attacker.toList ++ [target]

/-- The expressions that stand in statements. -/
def exprsOfStmts : List Stmt → List Expr
  | [] => []
  | stmt :: rest => stmt.exprs ++ exprsOfStmts rest

end

mutual

/-- How deep blocks are nested in a statement. -/
def Stmt.blockDepth : Stmt → Nat
  | .branch _ consequent none _ => blockDepthOfStmts consequent.stmts + 1
  | .branch _ consequent (some alternative) _ =>
    max (blockDepthOfStmts consequent.stmts) (blockDepthOfStmts alternative.stmts) + 1
  | .whileLoop _ body _ | .repeatLoop _ body _ => blockDepthOfStmts body.stmts + 1
  | .assign .. | .evaluate .. | .move .. | .moveTo .. | .attack .. => 0

/-- How deep blocks are nested in statements. -/
def blockDepthOfStmts : List Stmt → Nat
  | [] => 0
  | stmt :: rest => max stmt.blockDepth (blockDepthOfStmts rest)

end

/-- The expressions that stand in the statements of a program. -/
def Program.exprs (program : Program) : List Expr := exprsOfStmts program.stmts

/-- How deep blocks are nested in a program. -/
def Program.blockDepth (program : Program) : Nat := blockDepthOfStmts program.stmts

/-! ## Spans make no difference -/

mutual

/-- Spans make no difference to heights. -/
theorem Expr.height_bare (expr : Expr) : expr.bare.height = expr.height := by
  match expr with
  | .literal _ _ | .reference _ _ => simp only [Expr.bare, Expr.height]
  | .binary _ left right _ =>
    simp only [Expr.bare, Expr.height, left.height_bare, right.height_bare]
  | .negate operand _ => simp only [Expr.bare, Expr.height, operand.height_bare]
  | .call _ arguments _ => simp only [Expr.bare, Expr.height, heightOfAll_bareAll arguments]

/-- Spans make no difference to the height of the tallest of some expressions. -/
theorem heightOfAll_bareAll (exprs : List Expr) :
    heightOfAll (bareAll exprs) = heightOfAll exprs := by
  match exprs with
  | [] => rfl
  | expr :: rest => simp only [bareAll, heightOfAll, expr.height_bare, heightOfAll_bareAll rest]

end

/-- The tallest of expressions from two lists is the taller of the tallest ones. -/
@[simp] theorem heightOfAll_append (left right : List Expr) :
    heightOfAll (left ++ right) = max (heightOfAll left) (heightOfAll right) := by
  induction left with
  | nil => simp only [List.nil_append, heightOfAll, Nat.zero_max]
  | cons expr rest ih => simp only [List.cons_append, heightOfAll, ih, Nat.max_assoc]

/-- No expression is taller than the tallest. -/
theorem Expr.height_le_of_mem {expr : Expr} {exprs : List Expr} (member : expr ∈ exprs) :
    expr.height ≤ heightOfAll exprs := by
  induction exprs with
  | nil => cases member
  | cons head rest ih =>
    rw [heightOfAll]
    rcases List.mem_cons.mp member with rfl | member
    · exact Nat.le_max_left _ _
    · exact Nat.le_trans (ih member) (Nat.le_max_right _ _)

/-- Spans make no difference to the height of what a motion is given by. -/
theorem Motion.heightOfAll_exprs_bare (motion : Motion) :
    heightOfAll motion.bare.exprs = heightOfAll motion.exprs := by
  cases motion <;> simp only [bare, exprs, heightOfAll_bareAll]

/-- Spans make no difference to the height of an expression that may be left out. -/
theorem heightOfAll_option_bare (expr : Option Expr) :
    heightOfAll (expr.map Expr.bare).toList = heightOfAll expr.toList := by
  cases expr with
  | none => rfl
  | some expr => simp only [Option.map_some, Option.toList_some, heightOfAll, expr.height_bare]

mutual

/-- Spans make no difference to the height of the expressions in a statement. -/
theorem Stmt.heightOfAll_exprs_bare (stmt : Stmt) :
    heightOfAll stmt.bare.exprs = heightOfAll stmt.exprs := by
  match stmt with
  | .assign _ value _ | .evaluate value _ =>
    simp only [Stmt.bare, Stmt.exprs, heightOfAll, value.height_bare]
  | .branch condition consequent none _ =>
    simp only [Stmt.bare, Stmt.exprs, heightOfAll, condition.height_bare,
      heightOfAll_bareStmts consequent.stmts]
  | .branch condition consequent (some alternative) _ =>
    simp only [Stmt.bare, Stmt.exprs, heightOfAll, heightOfAll_append, condition.height_bare,
      heightOfAll_bareStmts consequent.stmts, heightOfAll_bareStmts alternative.stmts]
  | .whileLoop condition body _ | .repeatLoop condition body _ =>
    simp only [Stmt.bare, Stmt.exprs, heightOfAll, condition.height_bare,
      heightOfAll_bareStmts body.stmts]
  | .move target motion _ =>
    simp only [Stmt.bare, Stmt.exprs, heightOfAll_append, heightOfAll_option_bare,
      motion.heightOfAll_exprs_bare]
  | .moveTo coordinates _ => simp only [Stmt.bare, Stmt.exprs, heightOfAll_bareAll]
  | .attack attacker target _ =>
    simp only [Stmt.bare, Stmt.exprs, heightOfAll_append, heightOfAll, heightOfAll_option_bare,
      target.height_bare]

/-- Spans make no difference to the height of the expressions in statements. -/
theorem heightOfAll_bareStmts (stmts : List Stmt) :
    heightOfAll (exprsOfStmts (bareStmts stmts)) = heightOfAll (exprsOfStmts stmts) := by
  match stmts with
  | [] => rfl
  | stmt :: rest =>
    simp only [bareStmts, exprsOfStmts, heightOfAll_append, stmt.heightOfAll_exprs_bare,
      heightOfAll_bareStmts rest]

end

mutual

/-- Spans make no difference to how deep blocks are nested in a statement. -/
theorem Stmt.blockDepth_bare (stmt : Stmt) : stmt.bare.blockDepth = stmt.blockDepth := by
  match stmt with
  | .branch _ consequent none _ =>
    simp only [Stmt.bare, Stmt.blockDepth, blockDepthOfStmts_bareStmts consequent.stmts]
  | .branch _ consequent (some alternative) _ =>
    simp only [Stmt.bare, Stmt.blockDepth, blockDepthOfStmts_bareStmts consequent.stmts,
      blockDepthOfStmts_bareStmts alternative.stmts]
  | .whileLoop _ body _ | .repeatLoop _ body _ =>
    simp only [Stmt.bare, Stmt.blockDepth, blockDepthOfStmts_bareStmts body.stmts]
  | .assign .. | .evaluate .. | .move .. | .moveTo .. | .attack .. =>
    simp only [Stmt.bare, Stmt.blockDepth]

/-- Spans make no difference to how deep blocks are nested in statements. -/
theorem blockDepthOfStmts_bareStmts (stmts : List Stmt) :
    blockDepthOfStmts (bareStmts stmts) = blockDepthOfStmts stmts := by
  match stmts with
  | [] => rfl
  | stmt :: rest =>
    simp only [bareStmts, blockDepthOfStmts, stmt.blockDepth_bare,
      blockDepthOfStmts_bareStmts rest]

end

/-! ## Heights within levels of nesting -/

/-- The greatest height that an expression can have within a number of levels: the outermost level
adds one node, and for each level inside it an operator of every kind of chain. -/
def tallest : Nat → Nat
  | 0 => 0
  | levels + 1 => tallest levels + 3 * levels + 1

/-- The greatest height is one node for each level, and three operators for each level that lies
inside another. -/
theorem tallest_eq (levels : Nat) :
    tallest levels = levels + 3 * (List.range levels).foldl (· + ·) 0 := by
  induction levels with
  | zero => rfl
  | succ levels ih =>
    rw [tallest, ih, List.range_succ, List.foldl_append, List.foldl_cons, List.foldl_nil]
    omega

/-- More levels leave room for higher expressions. -/
theorem tallest_mono {fewer more : Nat} (le : fewer ≤ more) : tallest fewer ≤ tallest more := by
  induction le with
  | refl => exact Nat.le_refl _
  | step _ ih =>
    rw [tallest]
    omega

/-- The greatest height that an expression of a tier can have before it is charged for the level it
stands at: each level of operators in it may add its operators. -/
def Tier.tallest (tier : Tier) (charge : Nat) : Nat :=
  Waggle.tallest charge + tier.levels.length * charge + 1

/-- More levels leave room for higher expressions of a tier. -/
theorem Tier.tallest_mono (tier : Tier) {fewer more : Nat} (le : fewer ≤ more) :
    tier.tallest fewer ≤ tier.tallest more := by
  have inner : Waggle.tallest fewer ≤ Waggle.tallest more := Waggle.tallest_mono le
  have operators : tier.levels.length * fewer ≤ tier.levels.length * more :=
    Nat.mul_le_mul_left _ le
  unfold Tier.tallest
  omega

/-- A chain may add one operator for each level to the height of its operands. -/
theorem Level.tallest_chain (level : Level) (charge : Nat) :
    (Tier.chain level).tallest charge = level.operand.tallest charge + charge := by
  unfold Tier.tallest
  rw [Tier.levels_chain, List.length_cons, Nat.succ_mul]
  omega

namespace Derivation

/-- The heights of a derivation stay within what its charge leaves room for. Of the operators of a
chain each is charged, so there are no more of them than that. -/
def Low : {part : Part} → Derivation part → Prop
  | .expr tier, derivation => derivation.tree.height ≤ tier.tallest derivation.charge
  | .expression, derivation => derivation.tree.height ≤ tallest derivation.charge
  | .tail level, derivation =>
    derivation.tree.length ≤ derivation.charge ∧
      heightOfAll (derivation.tree.map Prod.snd) ≤ level.operand.tallest derivation.charge
  | .items, derivation | .coordinates, derivation =>
    heightOfAll derivation.tree ≤ tallest derivation.charge
  | .statement, derivation =>
    heightOfAll derivation.tree.exprs ≤ tallest derivation.charge ∧
      derivation.tree.blockDepth ≤ derivation.charge
  | .statements, derivation =>
    heightOfAll (exprsOfStmts derivation.tree) ≤ tallest derivation.charge ∧
      blockDepthOfStmts derivation.tree ≤ derivation.charge
  | .block, derivation =>
    heightOfAll (exprsOfStmts derivation.tree.stmts) ≤ tallest derivation.charge ∧
      blockDepthOfStmts derivation.tree.stmts + 1 ≤ derivation.charge

end Derivation

/-- A chain is higher than its highest operand by no more than one for each operator. -/
theorem height_leaning (first : Expr) (steps : List (BinaryOp × Expr)) :
    (leaning first steps).height ≤
      max first.height (heightOfAll (steps.map Prod.snd)) + steps.length := by
  induction steps generalizing first with
  | nil => exact Nat.le_max_left _ _
  | cons step rest ih =>
    have joined := ih (.binary step.1 first step.2 .blank)
    simp only [Expr.height] at joined
    simp only [List.map_cons, List.length_cons, heightOfAll]
    refine Nat.le_trans joined ?_
    omega

namespace Derivation

/-- A chain is low if its operands are. -/
theorem chain_low {level : Level} {first : Derivation (.expr level.operand)}
    {rest : Derivation (.tail level)} (head : first.Low) (tail : rest.Low) :
    (chain first rest).Low := by
  obtain ⟨short, operands⟩ := tail
  simp only [Low, tree, charge] at head ⊢
  have left := level.operand.tallest_mono (Nat.le_max_left first.charge rest.charge)
  have right := level.operand.tallest_mono (Nat.le_max_right first.charge rest.charge)
  have leans := height_leaning first.tree rest.tree
  rw [level.tallest_chain]
  omega

/-- An operator in front of further ones is low if its operand and they are. -/
theorem operator_low {level : Level} {op : BinaryOp} (fits : op.level = level)
    {operand : Derivation (.expr level.operand)} {rest : Derivation (.tail level)}
    (inner : operand.Low) (tail : rest.Low) : (operator op fits operand rest).Low := by
  obtain ⟨short, operands⟩ := tail
  simp only [Low, tree, charge, List.map_cons, List.length_cons, heightOfAll] at inner ⊢
  have left := level.operand.tallest_mono
    (show operand.charge ≤ 1 + max operand.charge rest.charge by omega)
  have right := level.operand.tallest_mono
    (show rest.charge ≤ 1 + max operand.charge rest.charge by omega)
  omega

/-- Parts beside each other keep within what the greater charge leaves room for. -/
theorem beside {left right first second : Nat} (one : left ≤ tallest first)
    (two : right ≤ tallest second) : max left right ≤ tallest (max first second) :=
  Nat.max_le.mpr ⟨Nat.le_trans one (tallest_mono (Nat.le_max_left _ _)),
    Nat.le_trans two (tallest_mono (Nat.le_max_right _ _))⟩

/-- The heights of every derivation stay within what its charge leaves room for, and so do its
blocks. -/
theorem low {part : Part} (derivation : Derivation part) : derivation.Low := by
  induction derivation with
  | chain _ _ head tail => exact chain_low head tail
  | noOperator => exact ⟨Nat.le_refl 0, Nat.zero_le _⟩
  | operator _ fits _ _ inner tail => exact operator_low fits inner tail
  | minus operand inner =>
    have next : tallest (1 + operand.charge) = tallest operand.charge + 3 * operand.charge + 1 := by
      rw [Nat.add_comm, tallest]
    simp only [Low, tree, charge, Expr.height, Tier.tallest, Tier.levels,
      List.length_nil] at inner ⊢
    omega
  | unsigned _ inner => exact inner
  | literal _ | reference _ | callNone _ =>
    simp only [Low, tree, Expr.height, heightOfAll, Tier.tallest]
    omega
  | call _ _ _ first rest =>
    have arguments := beside first rest
    simp only [Low, tree, charge, Expr.height, heightOfAll, Tier.tallest]
    omega
  | parens _ inner =>
    simp only [Low, tree, charge, Tier.tallest] at inner ⊢
    omega
  | expression inner within =>
    have next : tallest (1 + inner.charge) = tallest inner.charge + 3 * inner.charge + 1 := by
      rw [Nat.add_comm, tallest]
    simp only [Low, tree, charge, Tier.tallest, Tier.levels, List.length_cons,
      List.length_nil] at within ⊢
    omega
  | noItem => exact Nat.zero_le _
  | item _ _ head rest => exact beside head rest
  | one _ x =>
    simp only [Low, tree, charge, heightOfAll, Nat.max_zero] at x ⊢
    exact x
  | two _ _ x y =>
    simp only [Low, tree, charge, heightOfAll, Nat.max_zero] at x y ⊢
    exact beside x y
  | three _ _ _ x y z =>
    simp only [Low, tree, charge, heightOfAll, Nat.max_zero] at x y z ⊢
    exact beside x (beside y z)
  | branch _ _ condition body | whileLoop _ _ condition body | repeatLoop _ _ condition body =>
    refine ⟨beside condition body.1, ?_⟩
    simp only [tree, charge, Stmt.blockDepth]
    exact Nat.le_trans body.2 (Nat.le_max_right _ _)
  | branchElse _ _ _ condition consequent alternative =>
    simp only [Low, tree, charge, Stmt.exprs, Stmt.blockDepth, heightOfAll,
      heightOfAll_append] at condition consequent alternative ⊢
    exact ⟨beside condition (beside consequent.1 alternative.1), by omega⟩
  | moveStep _ => exact ⟨Nat.zero_le _, Nat.zero_le _⟩
  | moveBy _ _ target offset => exact ⟨beside target offset, Nat.zero_le _⟩
  | moveTo _ position => exact ⟨position, Nat.zero_le _⟩
  | attack _ expr | assign _ _ expr | evaluate _ expr =>
    simp only [Low, tree, charge, Stmt.exprs, Option.toList_none, List.nil_append, heightOfAll,
      Nat.max_zero] at expr ⊢
    exact ⟨expr, Nat.zero_le _⟩
  | attackBy _ _ attacker target =>
    simp only [Low, tree, charge, Stmt.exprs, Option.toList_some, List.singleton_append,
      heightOfAll, Nat.max_zero] at attacker target ⊢
    exact ⟨beside attacker target, Nat.zero_le _⟩
  | noStatement => exact ⟨Nat.zero_le _, Nat.zero_le _⟩
  | andThen _ _ head rest =>
    simp only [Low, tree, charge, exprsOfStmts, heightOfAll_append,
      blockDepthOfStmts] at head rest ⊢
    exact ⟨beside head.1 rest.1, by omega⟩
  | block _ body =>
    simp only [Low, tree, charge] at body ⊢
    exact ⟨Nat.le_trans body.1 (tallest_mono (by omega)), by omega⟩

end Derivation

/-! ## Evaluation within levels -/

section Evaluation

variable {ω : Type}

/-- A sequence never runs out of levels if its parts do not. -/
theorem lift_bind {α β : Type} (computation : Eval ω α) (next : α → Eval ω β) :
    OptionT.lift (computation >>= next) =
      OptionT.lift computation >>= fun result => OptionT.lift (next result) := by
  apply OptionT.ext
  simp

variable [World ω]

/-- The value of an expression if evaluation may descend only so many levels: each expression that
is being evaluated holds one of them. There is no value where the levels run out. -/
def Expr.evalWithin (scope : Scope) : (levels : Nat) → Expr → OptionT (Eval ω) Value
  | 0, _ => failure
  | _ + 1, .literal value _ => return value
  | _ + 1, .reference name _ => .lift (scope.lookup name)
  | levels + 1, .binary op left right _ => do
    let first ← evalWithin scope levels left
    let second ← evalWithin scope levels right
    .lift (Eval.ofExcept (op.apply first second))
  | levels + 1, .negate operand _ => do
    let value ← evalWithin scope levels operand
    .lift (Eval.ofExcept value.negate)
  | levels + 1, .call callee arguments _ => do
    let builtin ← .lift (Eval.ofExcept (Builtin.find callee.name arguments.length))
    let values ← arguments.mapM (evalWithin scope levels)
    .lift (builtin.call scope values)

mutual

/-- Evaluation never descends more levels than the expression is high. -/
theorem Expr.evalWithin_eq (scope : Scope) (levels : Nat) (expr : Expr)
    (enough : expr.height ≤ levels) :
    expr.evalWithin scope levels = OptionT.lift (expr.eval scope : Eval ω Value) := by
  match levels, expr with
  | 0, expr =>
    -- Every expression has a node, so some level is needed.
    cases expr <;> simp only [Expr.height] at enough <;> omega
  | _ + 1, .literal _ _ =>
    simp only [Expr.evalWithin, Expr.eval]
    rfl
  | _ + 1, .reference _ _ => simp only [Expr.evalWithin, Expr.eval]
  | levels + 1, .binary _ left right _ =>
    rw [Expr.height] at enough
    have first := left.evalWithin_eq scope levels (by omega)
    have second := right.evalWithin_eq scope levels (by omega)
    simp only [Expr.evalWithin, Expr.eval, lift_bind, first, second]
  | levels + 1, .negate operand _ =>
    rw [Expr.height] at enough
    have inner := operand.evalWithin_eq scope levels (by omega)
    simp only [Expr.evalWithin, Expr.eval, lift_bind, inner]
  | levels + 1, .call _ arguments _ =>
    rw [Expr.height] at enough
    have inner := mapM_evalWithin scope levels arguments (by omega)
    simp only [Expr.evalWithin, Expr.eval, lift_bind, inner]

/-- Evaluating expressions in order never descends more levels than the tallest of them is high. -/
theorem mapM_evalWithin (scope : Scope) (levels : Nat) (exprs : List Expr)
    (enough : heightOfAll exprs ≤ levels) :
    exprs.mapM (Expr.evalWithin scope levels) =
      OptionT.lift (evalAll scope exprs : Eval ω (List Value)) := by
  match exprs with
  | [] =>
    simp only [List.mapM_nil, evalAll]
    rfl
  | expr :: rest =>
    rw [heightOfAll] at enough
    have head := expr.evalWithin_eq scope levels (by omega)
    have tail := mapM_evalWithin scope levels rest (by omega)
    simp only [List.mapM_cons, evalAll, lift_bind, head, tail]
    rfl

end

end Evaluation

namespace SourceFile

/-- The expressions of a program that was parsed are at most 6112 high, however long the script is,
so that evaluation never descends further, and its blocks are nested no deeper than the limit. -/
theorem parse_height_le {file : SourceFile} {tokens : List Token} {program : Program}
    (parsed : file.parse tokens = .ok program) :
    maxNesting + 3 * (List.range maxNesting).foldl (· + ·) 0 = 6112 ∧
    (∀ expr ∈ program.exprs, expr.height ≤ 6112 ∧
      ∀ (ω : Type) [World ω] (scope : Scope),
        expr.evalWithin scope 6112 = OptionT.lift (expr.eval scope : Eval ω Value)) ∧
    program.blockDepth ≤ maxNesting := by
  have limit : maxNesting + 3 * (List.range maxNesting).foldl (· + ·) 0 = 6112 := by decide
  obtain ⟨after, ran⟩ := (parse_eq_ok_iff file tokens program).mp parsed
  obtain ⟨stmts, _, deep, tree⟩ := Parser.program_sound tokens program after ran
  obtain ⟨heights, blocks⟩ : heightOfAll (exprsOfStmts stmts.tree) ≤ tallest stmts.charge ∧
      blockDepthOfStmts stmts.tree ≤ stmts.charge := stmts.low
  have bare : bareStmts program.stmts = stmts.tree := congrArg Program.stmts tree
  rw [← bare, heightOfAll_bareStmts] at heights
  rw [← bare, blockDepthOfStmts_bareStmts] at blocks
  refine ⟨limit, fun expr member => ?_, Nat.le_trans blocks deep⟩
  have high : expr.height ≤ 6112 :=
    calc expr.height ≤ heightOfAll program.exprs := Expr.height_le_of_mem member
      _ ≤ tallest stmts.charge := heights
      _ ≤ tallest maxNesting := tallest_mono deep
      _ = 6112 := by rw [tallest_eq, limit]
  exact ⟨high, fun _ _ scope => expr.evalWithin_eq scope 6112 high⟩

/-- In `while(x==2-1){attack(-f(y));}` two expressions of height 3 stand, one of them in a block. -/
theorem parse_height_le_loop :
    let file : SourceFile := ⟨"", "while(x==2-1)\x7battack(-f(y));\x7d"⟩
    ∃ program, file.parse file.lex.tokens = .ok program ∧
      program.exprs.map Expr.height = [3, 3] ∧ program.blockDepth = 1 ∧
      ∀ expr ∈ program.exprs, ∀ (ω : Type) [World ω] (scope : Scope),
        expr.evalWithin scope 6112 = OptionT.lift (expr.eval scope : Eval ω Value) := by
  intro file
  have shape : (file.parse file.lex.tokens).toOption.map
      (fun program => (program.exprs.map Expr.height, program.blockDepth)) = some ([3, 3], 1) := by
    decide +kernel
  rcases parsed : file.parse file.lex.tokens with errors | program
  · rw [parsed] at shape
    cases shape
  · rw [parsed] at shape
    obtain ⟨heights, blocks⟩ := Prod.mk.inj (Option.some.inj shape)
    exact ⟨program, rfl, heights, blocks,
      fun expr member => ((parse_height_le parsed).2.1 expr member).2⟩

end SourceFile

end Waggle
