import Waggle.Proofs.Acceptance

/-!
# How deep a script can be

The limit of nesting counts the levels that are open while tokens are read, and a chain of
operators closes its levels where it ends. The tree of the chain stays, and whatever operator
follows is put on top of it. So the limit bounds a path through the tree only as far as no operand
that has to carry further operators of its chain is deep itself: `compile_within` says by how much
a path can exceed the limit, and `compile_tall_product` is a script that does.
-/

namespace Waggle

/-- What a path through a program passes: the blocks and the nodes of expressions. -/
inductive Landmark where
  | block
  | operator
  | sign
  | call
  | literal
  | reference
deriving DecidableEq

/-- A path from a node of a program down to a leaf. -/
abbrev Path := List Landmark

/-- The paths of a node from the paths of the nodes below it; without any, a path ends here. -/
def orEnd (below : List Path) : List Path := if below.isEmpty then [[]] else below

mutual

/-- The paths of an expression. -/
def Expr.paths : Expr → List Path
  | .literal _ _ => [[.literal]]
  | .reference _ _ => [[.reference]]
  | .binary _ left right _ => (left.paths ++ right.paths).map (.operator :: ·)
  | .negate operand _ => operand.paths.map (.sign :: ·)
  | .call _ arguments _ => (orEnd (pathsOf arguments)).map (.call :: ·)

/-- The paths of expressions beside each other. -/
def pathsOf : List Expr → List Path
  | [] => []
  | expr :: rest => expr.paths ++ pathsOf rest

end

/-- The paths of an expression that may be left out. -/
def pathsOfOption : Option Expr → List Path
  | some expr => expr.paths
  | none => []

/-- The paths of a motion. -/
def Motion.paths : Motion → List Path
  | .step _ => []
  | .offset coordinates => pathsOf coordinates

/-- The paths of a block from those of its statements. -/
def blockPaths (below : List Path) : List Path := (orEnd below).map (.block :: ·)

mutual

/-- The paths of a statement. -/
def Stmt.paths : Stmt → List Path
  | .assign _ value _ => value.paths
  | .branch condition consequent none _ =>
    condition.paths ++ blockPaths (pathsOfStmts consequent.stmts)
  | .branch condition consequent (some alternative) _ =>
    condition.paths ++ (blockPaths (pathsOfStmts consequent.stmts) ++
      blockPaths (pathsOfStmts alternative.stmts))
  | .whileLoop condition body _ => condition.paths ++ blockPaths (pathsOfStmts body.stmts)
  | .repeatLoop count body _ => count.paths ++ blockPaths (pathsOfStmts body.stmts)
  | .evaluate expr _ => expr.paths
  | .move target motion _ => orEnd (pathsOfOption target ++ motion.paths)
  | .moveTo coordinates _ => orEnd (pathsOf coordinates)
  | .attack attacker target _ => pathsOfOption attacker ++ target.paths

/-- The paths of statements beside each other. -/
def pathsOfStmts : List Stmt → List Path
  | [] => []
  | stmt :: rest => stmt.paths ++ pathsOfStmts rest

end

/-- The paths of a program from its root to its leaves. -/
def Program.paths (program : Program) : List Path := orEnd (pathsOfStmts program.stmts)

/-- No path is longer than a limit. -/
def Within (limit : Nat) (paths : List Path) : Prop := ∀ path ∈ paths, path.length ≤ limit

namespace Within

/-- A limit can be raised. -/
theorem mono {small large : Nat} {paths : List Path} (within : Within small paths)
    (le : small ≤ large) : Within large paths :=
  fun path found => Nat.le_trans (within path found) le

/-- Paths beside each other are within a limit if all of them are. -/
@[simp] theorem append {limit : Nat} {left right : List Path} :
    Within limit (left ++ right) ↔ Within limit left ∧ Within limit right :=
  List.forall_mem_append

/-- A node on top of paths needs one more. -/
@[simp] theorem cons {limit : Nat} {paths : List Path} {landmark : Landmark} :
    Within (limit + 1) (paths.map (landmark :: ·)) ↔ Within limit paths := by
  simp [Within]

/-- A path that ends here is within every limit. -/
@[simp] theorem orEnd {limit : Nat} {paths : List Path} :
    Within limit (Waggle.orEnd paths) ↔ Within limit paths := by
  cases paths <;> simp [Within, Waggle.orEnd]

/-- A block needs one more than its statements. -/
@[simp] theorem block {limit : Nat} {paths : List Path} :
    Within (limit + 1) (blockPaths paths) ↔ Within limit paths := by
  simp only [blockPaths, cons, orEnd]

/-- Parts beside each other are within a limit that leaves room for the greater charge. -/
theorem beside {first second surplus : Nat} {left right : List Path}
    (one : Within (first + surplus) left) (two : Within (second + surplus) right) :
    Within (max first second + surplus) (left ++ right) :=
  append.mpr ⟨one.mono (by omega), two.mono (by omega)⟩

/-- No paths are within every limit. -/
@[simp] theorem nil {limit : Nat} : Within limit [] := fun _ found => nomatch found

end Within

mutual

/-- Spans make no difference to paths. -/
theorem Expr.paths_bare (expr : Expr) : expr.bare.paths = expr.paths := by
  match expr with
  | .literal _ _ | .reference _ _ => simp only [Expr.bare, Expr.paths]
  | .binary _ left right _ => simp only [Expr.bare, Expr.paths, left.paths_bare, right.paths_bare]
  | .negate operand _ => simp only [Expr.bare, Expr.paths, operand.paths_bare]
  | .call _ arguments _ => simp only [Expr.bare, Expr.paths, pathsOf_bareAll arguments]

/-- Spans make no difference to paths of expressions beside each other. -/
theorem pathsOf_bareAll (exprs : List Expr) : pathsOf (bareAll exprs) = pathsOf exprs := by
  match exprs with
  | [] => rfl
  | expr :: rest => simp only [bareAll, pathsOf, expr.paths_bare, pathsOf_bareAll rest]

end

/-- Spans make no difference to paths of a motion. -/
theorem Motion.paths_bare (motion : Motion) : motion.bare.paths = motion.paths := by
  cases motion <;> simp only [bare, paths, pathsOf_bareAll]

/-- Spans make no difference to paths of an expression that may be left out. -/
theorem pathsOfOption_bare (expr : Option Expr) :
    pathsOfOption (expr.map Expr.bare) = pathsOfOption expr := by
  cases expr
  · rfl
  · exact Expr.paths_bare _

mutual

/-- Spans make no difference to paths of a statement. -/
theorem Stmt.paths_bare (stmt : Stmt) : stmt.bare.paths = stmt.paths := by
  match stmt with
  | .assign _ value _ | .evaluate value _ => simp only [Stmt.bare, Stmt.paths, value.paths_bare]
  | .branch condition consequent none _ =>
    simp only [Stmt.bare, Stmt.paths, condition.paths_bare, pathsOfStmts_bareStmts consequent.stmts]
  | .branch condition consequent (some alternative) _ =>
    simp only [Stmt.bare, Stmt.paths, condition.paths_bare, pathsOfStmts_bareStmts consequent.stmts,
      pathsOfStmts_bareStmts alternative.stmts]
  | .whileLoop condition body _ | .repeatLoop condition body _ =>
    simp only [Stmt.bare, Stmt.paths, condition.paths_bare, pathsOfStmts_bareStmts body.stmts]
  | .move target motion _ =>
    simp only [Stmt.bare, Stmt.paths, pathsOfOption_bare, motion.paths_bare]
  | .moveTo coordinates _ => simp only [Stmt.bare, Stmt.paths, pathsOf_bareAll]
  | .attack attacker target _ =>
    simp only [Stmt.bare, Stmt.paths, pathsOfOption_bare, target.paths_bare]

/-- Spans make no difference to paths of statements beside each other. -/
theorem pathsOfStmts_bareStmts (stmts : List Stmt) :
    pathsOfStmts (bareStmts stmts) = pathsOfStmts stmts := by
  match stmts with
  | [] => rfl
  | stmt :: rest =>
    simp only [bareStmts, pathsOfStmts, stmt.paths_bare, pathsOfStmts_bareStmts rest]

end

/-- Spans make no difference to paths of a program. -/
theorem Program.paths_bare (program : Program) : program.bare.paths = program.paths := by
  simp only [bare, paths, pathsOfStmts_bareStmts]

namespace Derivation

/-- The operands of a derivation that another operator of their chain follows. -/
def followed : {part : Part} → Derivation part → List Expr
  | _, .chain first rest =>
    (first.tree :: rest.tree.map Prod.snd).dropLast ++ (first.followed ++ rest.followed)
  | _, .operator _ _ operand rest => operand.followed ++ rest.followed
  | _, .minus inner | _, .unsigned inner | _, .parens inner | _, .expression inner
  | _, .one inner | _, .moveTo inner | _, .attack inner | _, .assign _ inner
  | _, .evaluate inner | _, .block inner => inner.followed
  | _, .noOperator | _, .literal _ | _, .reference _ | _, .callNone _ | _, .noItem
  | _, .moveStep _ | _, .noStatement => []
  | _, .call _ left right | _, .item left right | _, .two left right | _, .branch left right
  | _, .whileLoop left right | _, .repeatLoop left right | _, .moveBy left right
  | _, .attackBy left right | _, .andThen left right => left.followed ++ right.followed
  | _, .three left middle right | _, .branchElse left middle right =>
    left.followed ++ (middle.followed ++ right.followed)

/-- The paths of a derivation leave the charge of the derivation by no more than a surplus. An
expression at a place of its own is charged for its first node there, and one inside a chain is
not. Of the operators of a chain each is charged, and the last operand is charged on top of them. -/
def Bounded (surplus : Nat) : {part : Part} → Derivation part → Prop
  | .expr _, derivation => Within (derivation.charge + surplus + 1) derivation.tree.paths
  | .expression, derivation => Within (derivation.charge + surplus) derivation.tree.paths
  | .tail _, derivation =>
    derivation.tree.length ≤ derivation.charge ∧
      ∀ last ∈ (derivation.tree.map Prod.snd).getLast?,
        Within (derivation.charge - derivation.tree.length + surplus + 1) last.paths
  | .items, derivation | .coordinates, derivation =>
    Within (derivation.charge + surplus) (pathsOf derivation.tree)
  | .statement, derivation => Within (derivation.charge + surplus) derivation.tree.paths
  | .statements, derivation =>
    Within (derivation.charge + surplus) (pathsOfStmts derivation.tree)
  | .block, derivation =>
    Within (derivation.charge + surplus) (blockPaths (pathsOfStmts derivation.tree.stmts))

end Derivation

/-- In a chain that leans to the left, the first operand lies under all of the operators, the last
one under one of them, and those between under fewer than all. -/
theorem leaning_within {limit surplus target : Nat} {first : Expr}
    {steps : List (BinaryOp × Expr)} (head : Within limit first.paths)
    (between : ∀ operand ∈ (steps.map Prod.snd).dropLast, Within (surplus + 1) operand.paths)
    (last : ∀ operand ∈ (steps.map Prod.snd).getLast?, Within target operand.paths)
    (under : limit + steps.length ≤ target + 1) (room : steps.length + surplus ≤ target) :
    Within (target + 1) (leaning first steps).paths := by
  induction steps generalizing limit first with
  | nil => exact head.mono under
  | cons step rest ih =>
    obtain ⟨op, operand⟩ := step
    rw [List.length_cons] at under room
    cases rest with
    | nil =>
      have below : Within target operand.paths := last operand rfl
      simp only [leaning, List.foldl_cons, List.foldl_nil, Expr.paths, Within.cons, Within.append]
      exact ⟨head.mono (by omega), below⟩
    | cons next more =>
      have shallow : Within (surplus + 1) operand.paths := between operand (by simp)
      have joined : Within (max limit (surplus + 1) + 1)
          (Expr.binary op first operand .blank).paths := by
        simp only [Expr.paths, Within.cons, Within.append]
        exact ⟨head.mono (by omega), shallow.mono (by omega)⟩
      refine ih joined ?_ ?_ (by omega) (by omega)
      · intro other found
        exact between other (by simpa using .inr found)
      · intro other found
        exact last other (by simpa using found)

namespace Derivation

variable {surplus : Nat}

/-- A chain is bounded if its operands are, and those that are followed are shallow. -/
theorem chain_bounded {level : Level} {first : Derivation (.expr level.operand)}
    {rest : Derivation (.tail level)} (head : first.Bounded surplus) (tail : rest.Bounded surplus)
    (shallow : ∀ operand ∈ (first.tree :: rest.tree.map Prod.snd).dropLast,
      Within (surplus + 1) operand.paths) : (chain first rest).Bounded surplus := by
  obtain ⟨short, last⟩ := tail
  simp only [Bounded, tree, charge] at head ⊢
  rcases steps : rest.tree with _ | ⟨step, more⟩
  · exact head.mono (by omega)
  · rw [steps] at short last shallow
    simp only [List.map_cons, List.length_cons] at short last shallow
    have front : Within (surplus + 1) first.tree.paths := shallow _ (by simp)
    have between : ∀ operand ∈ ((step :: more).map Prod.snd).dropLast,
        Within (surplus + 1) operand.paths :=
      fun operand found => shallow operand (by simpa using .inr found)
    have final : ∀ operand ∈ ((step :: more).map Prod.snd).getLast?,
        Within (max first.charge rest.charge + surplus) operand.paths :=
      fun operand found => (last operand found).mono (by omega)
    exact leaning_within front between final (by rw [List.length_cons]; omega)
      (by rw [List.length_cons]; omega)

/-- An operator in front of further ones is bounded if its operand and they are. -/
theorem operator_bounded {level : Level} {op : BinaryOp} (fits : op.level = level)
    {operand : Derivation (.expr level.operand)} {rest : Derivation (.tail level)}
    (inner : operand.Bounded surplus) (tail : rest.Bounded surplus) :
    (operator op fits operand rest).Bounded surplus := by
  obtain ⟨short, last⟩ := tail
  simp only [Bounded, tree, charge, List.length_cons] at inner ⊢
  refine ⟨by omega, ?_⟩
  rcases steps : rest.tree with _ | ⟨step, more⟩
  · rintro _ ⟨⟩
    simp only [List.length_nil]
    exact inner.mono (by omega)
  · intro other found
    rw [steps] at short last
    rw [List.length_cons] at short last ⊢
    exact (last other (by simpa using found)).mono (by omega)

/-- Every path of a derivation is bounded by its charge and the depth of the operands that another
operator of their chain follows. -/
theorem bounded {part : Part} (derivation : Derivation part)
    (shallow : ∀ operand ∈ derivation.followed, Within (surplus + 1) operand.paths) :
    derivation.Bounded surplus := by
  induction derivation with
  | chain first rest head tail =>
    simp only [followed, List.forall_mem_append] at shallow
    exact chain_bounded (head shallow.2.1) (tail shallow.2.2) shallow.1
  | noOperator => exact ⟨Nat.le_refl 0, fun _ absurd => nomatch absurd⟩
  | operator op fits operand rest inner tail =>
    simp only [followed, List.forall_mem_append] at shallow
    exact operator_bounded fits (inner shallow.1) (tail shallow.2)
  | minus operand inner =>
    simp only [Bounded, tree, charge, Expr.paths, Within.cons]
    exact (inner shallow).mono (by omega)
  | unsigned _ inner => exact inner shallow
  | literal _ | reference _ | callNone _ =>
    simp [Bounded, Within, Expr.paths, pathsOf, orEnd]
  | call _ _ _ first rest =>
    simp only [followed, List.forall_mem_append] at shallow
    simp only [Bounded, tree, charge, Expr.paths, pathsOf, Within.cons, Within.orEnd]
    exact .beside (first shallow.1) (rest shallow.2)
  | parens _ inner => exact (inner shallow).mono (Nat.le_succ _)
  | expression _ inner =>
    simp only [Bounded, tree, charge]
    exact (inner shallow).mono (by omega)
  | noItem => exact .nil
  | item _ _ head rest =>
    simp only [followed, List.forall_mem_append] at shallow
    exact .beside (head shallow.1) (rest shallow.2)
  | one _ x =>
    simp only [Bounded, tree, charge, pathsOf, List.append_nil]
    exact x shallow
  | two _ _ x y =>
    simp only [followed, List.forall_mem_append] at shallow
    simp only [Bounded, tree, charge, pathsOf, List.append_nil]
    exact .beside (x shallow.1) (y shallow.2)
  | three _ _ _ x y z =>
    simp only [followed, List.forall_mem_append] at shallow
    simp only [Bounded, tree, charge, pathsOf, List.append_nil]
    exact .beside (x shallow.1) (.beside (y shallow.2.1) (z shallow.2.2))
  | branch _ _ condition body | whileLoop _ _ condition body | repeatLoop _ _ condition body =>
    simp only [followed, List.forall_mem_append] at shallow
    simp only [Bounded, tree, charge, Stmt.paths]
    exact .beside (condition shallow.1) (body shallow.2)
  | branchElse _ _ _ condition consequent alternative =>
    simp only [followed, List.forall_mem_append] at shallow
    simp only [Bounded, tree, charge, Stmt.paths]
    exact .beside (condition shallow.1) (.beside (consequent shallow.2.1) (alternative shallow.2.2))
  | moveStep _ => simp [Bounded, Stmt.paths, pathsOfOption, Motion.paths]
  | moveBy _ _ target offset =>
    simp only [followed, List.forall_mem_append] at shallow
    simp only [Bounded, tree, charge, Stmt.paths, pathsOfOption, Motion.paths, Within.orEnd]
    exact .beside (target shallow.1) (offset shallow.2)
  | moveTo _ position =>
    simp only [Bounded, tree, charge, Stmt.paths, Within.orEnd]
    exact position shallow
  | attack _ target =>
    simp only [Bounded, tree, charge, Stmt.paths, pathsOfOption, List.nil_append]
    exact target shallow
  | attackBy _ _ attacker target =>
    simp only [followed, List.forall_mem_append] at shallow
    simp only [Bounded, tree, charge, Stmt.paths, pathsOfOption]
    exact .beside (attacker shallow.1) (target shallow.2)
  | assign _ _ value =>
    simp only [Bounded, tree, charge, Stmt.paths]
    exact value shallow
  | evaluate _ expr =>
    simp only [Bounded, tree, charge, Stmt.paths]
    exact expr shallow
  | noStatement => exact .nil
  | andThen _ _ head rest =>
    simp only [followed, List.forall_mem_append] at shallow
    exact .beside (head shallow.1) (rest shallow.2)
  | block _ body =>
    simp only [Bounded, tree, charge]
    exact (Within.block.mpr (body shallow)).mono (by omega)

end Derivation

namespace SourceFile

/-- A script that compiles is parsed from its tokens. -/
theorem parse_of_compile {file : SourceFile} {program : Program}
    (compiled : file.compile = .ok program) : file.parse file.lex.tokens = .ok program := by
  unfold compile at compiled
  dsimp only at compiled
  split at compiled
  · cases compiled
  · exact compiled

/-- In a script that compiles, no path of the program exceeds the limit of nesting by more than the
operands have below them that another operator of their chain follows. In particular, the limit
holds where each of those operands is a literal, a name or a call without arguments. -/
theorem compile_within {file : SourceFile} {program : Program}
    (compiled : file.compile = .ok program) :
    ∃ script : Derivation .statements, script.written = scriptKinds file.lex.tokens ∧
      (∀ other : Derivation .statements, other.written = scriptKinds file.lex.tokens →
        other = script) ∧
      ∀ surplus, (∀ operand ∈ script.followed, ∀ path ∈ operand.paths, path.length ≤ surplus + 1) →
        ∀ path ∈ program.paths, path.length ≤ maxNesting + surplus := by
  obtain ⟨after, ran⟩ := (parse_eq_ok_iff file _ program).mp (parse_of_compile compiled)
  obtain ⟨script, written, deep, tree⟩ := Parser.program_sound _ program after ran
  refine ⟨script, written, fun other same => ?_, fun surplus shallow => ?_⟩
  · exact Derivation.eq_of_written_eq (same.trans written.symm)
  · have bounded : Within (script.charge + surplus) (pathsOfStmts script.tree) :=
      script.bounded shallow
    have paths : program.paths = orEnd (pathsOfStmts script.tree) := by
      rw [← program.paths_bare, tree, Program.paths]
    rw [paths]
    exact (Within.orEnd.mpr bounded).mono (by omega)

/-- The paths of `x=1-2-y;` are within the limit, since its operands have nothing below them. -/
theorem compile_within_difference :
    ∃ program, (SourceFile.mk "" "x=1-2-y;").compile = .ok program ∧
      ∀ path ∈ program.paths, path.length ≤ maxNesting := by
  have accepted : (SourceFile.mk "" "x=1-2-y;").compile.isOk = true := by decide +kernel
  rcases compiled : (SourceFile.mk "" "x=1-2-y;").compile with errors | program
  · rw [compiled] at accepted
    cases accepted
  let number (value : Int64) : Derivation (.expr (.chain .product)) :=
    .chain (.unsigned (.literal (.number value))) .noOperator
  let difference : Derivation (.expr (.chain .sum)) :=
    .chain (number 1) (.operator .subtract rfl (number 2)
      (.operator .subtract rfl (.chain (.unsigned (.reference "y")) .noOperator) .noOperator))
  let stmts : Derivation .statements :=
    .andThen (.assign "x" (.expression (.chain difference .noOperator))) .noStatement
  have written : stmts.written = scriptKinds (SourceFile.mk "" "x=1-2-y;").lex.tokens := by
    decide +kernel
  obtain ⟨script, _, only, within⟩ := compile_within compiled
  have shallow : ∀ operand ∈ stmts.followed, ∀ path ∈ operand.paths, path.length ≤ 0 + 1 := by
    decide
  rw [only stmts written] at shallow
  exact ⟨program, rfl, within 0 shallow⟩

/-- A sum that begins with a product of 64 factors is accepted, although the product alone is at the
limit: the path to the first factor passes 65 nodes. -/
theorem compile_tall_product :
    let file : SourceFile :=
      ⟨"", String.ofList ('2' :: (List.replicate 63 "*2".toList).flatten ++ "+1;".toList)⟩
    ∃ program, file.compile = .ok program ∧ ∃ path ∈ program.paths, maxNesting < path.length := by
  intro file
  have first : (file.compile.toOption.bind fun program => program.paths.head?).map List.length =
      some 65 := by
    decide +kernel
  rcases compiled : file.compile with errors | program
  · rw [compiled] at first
    cases first
  · rw [compiled] at first
    obtain ⟨path, found, long⟩ := Option.map_eq_some_iff.mp first
    refine ⟨program, rfl, path, List.mem_of_head? found, ?_⟩
    rw [long]
    decide

end SourceFile

end Waggle
