import Waggle.Proofs.Location
import Waggle.Proofs.Lookahead

/-!
# Where the parts of a script stand

The extent of some tokens runs from where the first of them begins to where the last one ends.
`Stands part tokens tree` says that a tree is written as tokens by the rules of the grammar, and
that the span of every node in it is the extent of the tokens that this node is written as:
parentheses belong to the expression between them, a statement ends with its semicolon or its block,
and a block begins and ends with its braces.

Where tokens follow each other in reading order, such a tree is nested as its spans are: a node
contains its children, and these come one after the other (`Stands.fits`).
-/

namespace Waggle

namespace Position

/-- The order of positions is that of the numbers of their lines and columns. -/
theorem le_iff {left right : Position} :
    left ≤ right ↔ left.line.toNat < right.line.toNat ∨
      (left.line.toNat = right.line.toNat ∧ left.column.toNat ≤ right.column.toNat) := by
  change left.line < right.line ∨ (left.line = right.line ∧ left.column ≤ right.column) ↔ _
  simp only [UInt32.lt_iff_toNat_lt, UInt32.le_iff_toNat_le, UInt32.toNat_inj]

/-- A position is not after itself. -/
theorem le_refl (position : Position) : position ≤ position := by
  rw [le_iff]
  omega

/-- What is not after a position is not after those that this one is not after. -/
theorem le_trans {first second third : Position} (early : first ≤ second)
    (late : second ≤ third) : first ≤ third := by
  rw [le_iff] at early late ⊢
  omega

/-- What comes before a position is not after it. -/
theorem Before.le {left right : Position} (before : left.Before right) : left ≤ right := by
  rw [before_iff] at before
  rw [le_iff]
  omega

/-- What comes before a position comes before those that are not earlier. -/
theorem Before.trans_le {first second third : Position} (early : first.Before second)
    (late : second ≤ third) : first.Before third := by
  rw [before_iff] at early ⊢
  rw [le_iff] at late
  omega

/-- The earlier of two positions is the one that is not after the other. -/
theorem min_of_le {left right : Position} (early : left ≤ right) : min left right = left :=
  if_pos early

/-- The later of two positions is the one that the other is not after. -/
theorem max_of_le {left right : Position} (early : left ≤ right) : max left right = right :=
  if_pos early

end Position

/-- From where the first of some tokens begins to where the last of them ends. -/
def extent (tokens : List Token) : Span :=
  ⟨(tokens.headD default).span.start, (tokens.getLastD default).span.stop⟩

/-- Tokens end where the last one does. -/
theorem extent_concat_stop (tokens : List Token) (last : Token) :
    (extent (tokens ++ [last])).stop = last.span.stop := by
  rw [extent, List.getLastD_concat]

/-- Tokens end where they begin or later, and before the next one begins. -/
structure Orderly (tokens : List Token) : Prop where
  /-- No token ends before it begins. -/
  forward : ∀ token ∈ tokens, token.span.start ≤ token.span.stop
  /-- Each one ends before those after it begin. -/
  apart : tokens.Pairwise fun first second => first.span.stop.Before second.span.start

namespace Orderly

variable {tokens more : List Token}

/-- Some of the tokens in order are in order. -/
theorem sublist (orderly : Orderly more) (some : tokens.Sublist more) : Orderly tokens :=
  ⟨fun token member => orderly.forward token (some.subset member), orderly.apart.sublist some⟩

/-- The first tokens are in order. -/
theorem left (orderly : Orderly (tokens ++ more)) : Orderly tokens :=
  orderly.sublist (List.sublist_append_left tokens more)

/-- The last tokens are in order. -/
theorem right (orderly : Orderly (tokens ++ more)) : Orderly more :=
  orderly.sublist (List.sublist_append_right tokens more)

/-- The first tokens end before the last ones begin. -/
theorem before (orderly : Orderly (tokens ++ more)) {first second : Token}
    (early : first ∈ tokens) (late : second ∈ more) :
    first.span.stop.Before second.span.start :=
  (List.pairwise_append.mp orderly.apart).2.2 first early second late

/-- Every token lies within the extent of all. -/
theorem within (orderly : Orderly tokens) {token : Token} (member : token ∈ tokens) :
    (extent tokens).start ≤ token.span.start ∧ token.span.stop ≤ (extent tokens).stop := by
  constructor
  · cases tokens with
    | nil => cases member
    | cons first others =>
      rcases List.mem_cons.mp member with rfl | later
      · exact Position.le_refl _
      · have next := (List.pairwise_cons.mp orderly.apart).1 token later
        exact Position.le_trans (orderly.forward first List.mem_cons_self) next.le
  · rcases List.eq_nil_or_concat tokens with rfl | ⟨others, last, rfl⟩
    · cases member
    · rw [List.concat_eq_append] at orderly member ⊢
      rw [extent_concat_stop]
      rcases List.mem_append.mp member with earlier | same
      · have next := orderly.before earlier List.mem_cons_self
        exact Position.le_trans next.le
          (orderly.forward last (List.mem_append_right _ List.mem_cons_self))
      · rw [List.mem_singleton.mp same]
        exact Position.le_refl _

end Orderly

/-- Tokens begin where the first of them do. -/
theorem extent_append_start {tokens : List Token} (some : tokens ≠ []) (more : List Token) :
    (extent (tokens ++ more)).start = (extent tokens).start := by
  cases tokens with
  | nil => exact absurd rfl some
  | cons first others => rfl

/-- Tokens end where the last of them do. -/
theorem extent_append_stop (tokens : List Token) {more : List Token} (some : more ≠ []) :
    (extent (tokens ++ more)).stop = (extent more).stop := by
  rcases List.eq_nil_or_concat more with rfl | ⟨others, last, rfl⟩
  · exact absurd rfl some
  · rw [List.concat_eq_append, ← List.append_assoc, extent_concat_stop, extent_concat_stop]

/-- A span that begins tokens and a span that ends them merge to their extent. -/
theorem merge_eq_extent {tokens : List Token} {first last : Span}
    (starts : first.start = (extent tokens).start) (ends : last.stop = (extent tokens).stop)
    (later : (extent tokens).start ≤ last.start) (earlier : first.stop ≤ (extent tokens).stop) :
    first.merge last = extent tokens := by
  rw [Span.merge, starts, ends, Position.min_of_le later, Position.max_of_le earlier]

/-- The extents of the first and of the last tokens merge to that of all. -/
theorem extent_merge {left right : List Token} (middle : List Token)
    (orderly : Orderly (left ++ (middle ++ right))) (some : left ≠ []) (last : right ≠ []) :
    (extent left).merge (extent right) = extent (left ++ (middle ++ right)) := by
  obtain ⟨head, others, rfl⟩ := List.exists_cons_of_ne_nil last
  obtain ⟨early, final, rfl⟩ := (List.eq_nil_or_concat left).resolve_left some
  rw [List.concat_eq_append] at some orderly ⊢
  refine merge_eq_extent (extent_append_start some _).symm ?_ ?_ ?_
  · rw [← List.append_assoc, extent_append_stop _ last]
  · exact (orderly.within (by simp)).1
  · rw [extent_concat_stop]
    exact (orderly.within (by simp)).2

/-! ### Trees of spans -/

/-- A span and those within it. -/
inductive SpanTree where
  | node (span : Span) (children : List SpanTree)

namespace SpanTree

/-- The span of a node. -/
def span : SpanTree → Span
  | .node span _ => span

/-- The same children under another span. -/
def withSpan (span : Span) : SpanTree → SpanTree
  | .node _ children => .node span children

end SpanTree

/-- One span lies within another. -/
structure Span.Contains (outer inner : Span) : Prop where
  /-- It begins no earlier. -/
  start : outer.start ≤ inner.start
  /-- It ends no later. -/
  stop : inner.stop ≤ outer.stop

/-- One tree ends before another one begins. -/
def SpanTree.Precedes (first second : SpanTree) : Prop :=
  first.span.stop.Before second.span.start

/-- No span of a tree ends before it begins, each contains those of its children, and these come one
after the other. -/
inductive SpanTree.Sound : SpanTree → Prop where
  | node {span : Span} {children : List SpanTree} (forward : span.start ≤ span.stop)
    (within : ∀ child ∈ children, span.Contains child.span) (apart : children.Pairwise Precedes)
    (each : ∀ child ∈ children, child.Sound) : Sound (.node span children)

mutual

/-- The spans of an expression. -/
def Expr.spanTree : Expr → SpanTree
  | .literal _ span | .reference _ span => .node span []
  | .binary _ left right span => .node span [left.spanTree, right.spanTree]
  | .negate operand span => .node span [operand.spanTree]
  | .call callee arguments span => .node span (.node callee.span [] :: spanTreesOf arguments)

/-- The spans of expressions. -/
def spanTreesOf : List Expr → List SpanTree
  | [] => []
  | expr :: rest => expr.spanTree :: spanTreesOf rest

end

/-- The spans of a motion. -/
def Motion.spanTrees : Motion → List SpanTree
  | .step _ => []
  | .offset coordinates => spanTreesOf coordinates

mutual

/-- The spans of a statement. -/
def Stmt.spanTree : Stmt → SpanTree
  | .assign name value span => .node span [.node name.span [], value.spanTree]
  | .branch condition consequent none span =>
    .node span [condition.spanTree,
      .node consequent.span (spanTreesOfStmts consequent.stmts)]
  | .branch condition consequent (some alternative) span =>
    .node span [condition.spanTree,
      .node consequent.span (spanTreesOfStmts consequent.stmts),
      .node alternative.span (spanTreesOfStmts alternative.stmts)]
  | .whileLoop condition body span =>
    .node span [condition.spanTree, .node body.span (spanTreesOfStmts body.stmts)]
  | .repeatLoop count body span =>
    .node span [count.spanTree, .node body.span (spanTreesOfStmts body.stmts)]
  | .evaluate expr span => .node span [expr.spanTree]
  | .move target motion span =>
    .node span (target.toList.map Expr.spanTree ++ motion.spanTrees)
  | .moveTo coordinates span => .node span (spanTreesOf coordinates)
  | .attack attacker target span =>
    .node span (attacker.toList.map Expr.spanTree ++ [target.spanTree])

/-- The spans of statements. -/
def spanTreesOfStmts : List Stmt → List SpanTree
  | [] => []
  | stmt :: rest => stmt.spanTree :: spanTreesOfStmts rest

end

/-- The spans of a block. -/
def Block.spanTree (block : Block Stmt) : SpanTree :=
  .node block.span (spanTreesOfStmts block.stmts)

/-- The spans of a program. -/
def Program.spanTree (program : Program) : SpanTree :=
  .node program.span (spanTreesOfStmts program.stmts)

/-- The spans of what a part is read as. -/
def Part.forest : (part : Part) → part.Tree → List SpanTree
  | .expr _, tree | .expression, tree => [Expr.spanTree tree]
  | .tail _, _ => []
  | .items, trees | .coordinates, trees => spanTreesOf trees
  | .statement, tree => [Stmt.spanTree tree]
  | .statements, trees => spanTreesOfStmts trees
  | .block, tree => [Block.spanTree tree]

/-! ### What stands on tokens -/

/-- A part of a script stands on tokens: they are written as the grammar says, and the span of every
node is the extent of the tokens that it is written as. -/
inductive Stands : (part : Part) → List Token → part.Tree → Prop where
  | operand {level : Level} {tokens : List Token} {expr : Expr}
    (inner : Stands (.expr level.operand) tokens expr) : Stands (.expr (.chain level)) tokens expr
  | binary {level : Level} {op : BinaryOp} {before sign after : List Token} {left right : Expr}
    (fits : op.level = level) (signed : sign.map Token.kind = [.symbol op.sign])
    (first : Stands (.expr (.chain level)) before left)
    (second : Stands (.expr level.operand) after right) :
    Stands (.expr (.chain level)) (before ++ (sign ++ after))
      (.binary op left right (extent (before ++ (sign ++ after))))
  | negate {sign after : List Token} {operand : Expr}
    (signed : sign.map Token.kind = [.symbol .minus])
    (inner : Stands (.expr .signed) after operand) :
    Stands (.expr .signed) (sign ++ after) (.negate operand (extent (sign ++ after)))
  | unsigned {tokens : List Token} {expr : Expr} (inner : Stands (.expr .primary) tokens expr) :
    Stands (.expr .signed) tokens expr
  | literal {tokens : List Token} {token : Literal}
    (written : tokens.map Token.kind = [token.kind]) :
    Stands (.expr .primary) tokens (.literal token.value (extent tokens))
  | reference {tokens : List Token} {name : String}
    (written : tokens.map Token.kind = [.identifier name]) :
    Stands (.expr .primary) tokens (.reference name (extent tokens))
  | callNone {callee brackets : List Token} {name : String}
    (written : callee.map Token.kind = [.identifier name])
    (empty : brackets.map Token.kind = [.symbol .leftParen, .symbol .rightParen]) :
    Stands (.expr .primary) (callee ++ brackets)
      (.call ⟨name, extent callee⟩ [] (extent (callee ++ brackets)))
  | call {callee opening head tail closing : List Token} {name : String} {first : Expr}
    {others : List Expr} (written : callee.map Token.kind = [.identifier name])
    (opened : opening.map Token.kind = [.symbol .leftParen])
    (closed : closing.map Token.kind = [.symbol .rightParen])
    (argument : Stands .expression head first) (arguments : Stands .items tail others) :
    Stands (.expr .primary) (callee ++ (opening ++ (head ++ (tail ++ closing))))
      (.call ⟨name, extent callee⟩ (first :: others)
        (extent (callee ++ (opening ++ (head ++ (tail ++ closing))))))
  | parens {opening inside closing : List Token} {expr : Expr}
    (opened : opening.map Token.kind = [.symbol .leftParen])
    (closed : closing.map Token.kind = [.symbol .rightParen])
    (inner : Stands .expression inside expr) :
    Stands (.expr .primary) (opening ++ (inside ++ closing))
      (expr.withSpan (extent (opening ++ (inside ++ closing))))
  | expression {tokens : List Token} {expr : Expr}
    (inner : Stands (.expr (.chain .equation)) tokens expr) : Stands .expression tokens expr
  | noItem : Stands .items [] []
  | item {comma head tail : List Token} {first : Expr} {others : List Expr}
    (divided : comma.map Token.kind = [.symbol .comma]) (item : Stands .expression head first)
    (items : Stands .items tail others) :
    Stands .items (comma ++ (head ++ tail)) (first :: others)
  | coordinates {head tail : List Token} {first : Expr} {others : List Expr}
    (item : Stands .expression head first) (items : Stands .items tail others)
    (few : others.length ≤ 2) : Stands .coordinates (head ++ tail) (first :: others)
  | branch {opening guard closing body : List Token} {condition : Expr} {consequent : Block Stmt}
    (opened : opening.map Token.kind = [.keyword .ifWord, .symbol .leftParen])
    (closed : closing.map Token.kind = [.symbol .rightParen])
    (test : Stands .expression guard condition) (stmts : Stands .block body consequent) :
    Stands .statement (opening ++ (guard ++ (closing ++ body)))
      (.branch condition consequent none (extent (opening ++ (guard ++ (closing ++ body)))))
  | branchElse {opening guard closing body otherwise rest : List Token} {condition : Expr}
    {consequent alternative : Block Stmt}
    (opened : opening.map Token.kind = [.keyword .ifWord, .symbol .leftParen])
    (closed : closing.map Token.kind = [.symbol .rightParen])
    (turned : otherwise.map Token.kind = [.keyword .elseWord])
    (test : Stands .expression guard condition) (stmts : Stands .block body consequent)
    (others : Stands .block rest alternative) :
    Stands .statement (opening ++ (guard ++ (closing ++ (body ++ (otherwise ++ rest)))))
      (.branch condition consequent (some alternative)
        (extent (opening ++ (guard ++ (closing ++ (body ++ (otherwise ++ rest)))))))
  | whileLoop {opening guard closing rest : List Token} {condition : Expr} {body : Block Stmt}
    (opened : opening.map Token.kind = [.keyword .whileWord, .symbol .leftParen])
    (closed : closing.map Token.kind = [.symbol .rightParen])
    (test : Stands .expression guard condition) (stmts : Stands .block rest body) :
    Stands .statement (opening ++ (guard ++ (closing ++ rest)))
      (.whileLoop condition body (extent (opening ++ (guard ++ (closing ++ rest)))))
  | repeatLoop {opening guard closing rest : List Token} {count : Expr} {body : Block Stmt}
    (opened : opening.map Token.kind = [.keyword .repeatWord, .symbol .leftParen])
    (closed : closing.map Token.kind = [.symbol .rightParen])
    (test : Stands .expression guard count) (stmts : Stands .block rest body) :
    Stands .statement (opening ++ (guard ++ (closing ++ rest)))
      (.repeatLoop count body (extent (opening ++ (guard ++ (closing ++ rest)))))
  | moveStep {tokens : List Token} {heading : Direction}
    (written : tokens.map Token.kind = [.keyword .move, .symbol .leftParen,
      .keyword (.direction heading), .symbol .rightParen, .symbol .semicolon]) :
    Stands .statement tokens (.move none (.step heading) (extent tokens))
  | moveBy {opening actor comma offset closing : List Token} {target : Expr} {distance : List Expr}
    (opened : opening.map Token.kind = [.keyword .move, .symbol .leftParen])
    (divided : comma.map Token.kind = [.symbol .comma])
    (closed : closing.map Token.kind = [.symbol .rightParen, .symbol .semicolon])
    (moved : Stands .expression actor target) (shifted : Stands .coordinates offset distance) :
    Stands .statement (opening ++ (actor ++ (comma ++ (offset ++ closing))))
      (.move (some target) (.offset distance)
        (extent (opening ++ (actor ++ (comma ++ (offset ++ closing))))))
  | moveTo {opening place closing : List Token} {position : List Expr}
    (opened : opening.map Token.kind = [.keyword .moveTo, .symbol .leftParen])
    (closed : closing.map Token.kind = [.symbol .rightParen, .symbol .semicolon])
    (there : Stands .coordinates place position) :
    Stands .statement (opening ++ (place ++ closing))
      (.moveTo position (extent (opening ++ (place ++ closing))))
  | attack {opening enemy closing : List Token} {target : Expr}
    (opened : opening.map Token.kind = [.keyword .attack, .symbol .leftParen])
    (closed : closing.map Token.kind = [.symbol .rightParen, .symbol .semicolon])
    (attacked : Stands .expression enemy target) :
    Stands .statement (opening ++ (enemy ++ closing))
      (.attack none target (extent (opening ++ (enemy ++ closing))))
  | attackBy {opening fighter comma enemy closing : List Token} {attacker target : Expr}
    (opened : opening.map Token.kind = [.keyword .attack, .symbol .leftParen])
    (divided : comma.map Token.kind = [.symbol .comma])
    (closed : closing.map Token.kind = [.symbol .rightParen, .symbol .semicolon])
    (attacks : Stands .expression fighter attacker) (attacked : Stands .expression enemy target) :
    Stands .statement (opening ++ (fighter ++ (comma ++ (enemy ++ closing))))
      (.attack (some attacker) target
        (extent (opening ++ (fighter ++ (comma ++ (enemy ++ closing))))))
  | assign {word sign content closing : List Token} {name : String} {value : Expr}
    (written : word.map Token.kind = [.identifier name])
    (signed : sign.map Token.kind = [.symbol .assign])
    (closed : closing.map Token.kind = [.symbol .semicolon])
    (assigned : Stands .expression content value) :
    Stands .statement (word ++ (sign ++ (content ++ closing)))
      (.assign ⟨name, extent word⟩ value (extent (word ++ (sign ++ (content ++ closing)))))
  | evaluate {content closing : List Token} {expr : Expr}
    (closed : closing.map Token.kind = [.symbol .semicolon])
    (evaluated : Stands .expression content expr) :
    Stands .statement (content ++ closing) (.evaluate expr (extent (content ++ closing)))
  | noStatement : Stands .statements [] []
  | andThen {head tail : List Token} {first : Stmt} {others : List Stmt}
    (stmt : Stands .statement head first) (stmts : Stands .statements tail others) :
    Stands .statements (head ++ tail) (first :: others)
  | block {opening inside closing : List Token} {body : List Stmt}
    (opened : opening.map Token.kind = [.symbol .leftBrace])
    (closed : closing.map Token.kind = [.symbol .rightBrace])
    (stmts : Stands .statements inside body) :
    Stands .block (opening ++ (inside ++ closing))
      ⟨body, extent (opening ++ (inside ++ closing))⟩

/-- The span of what a part is read as, if it is one node. -/
def Part.span? : (part : Part) → part.Tree → Option Span
  | .expr _, tree | .expression, tree => some (Expr.span tree)
  | .statement, tree => some (Stmt.span tree)
  | .block, tree => some (Block.span tree)
  | .tail _, _ | .items, _ | .coordinates, _ | .statements, _ => none

/-- An expression with another span has that one. -/
@[simp] theorem Expr.span_withSpan (span : Span) (expr : Expr) :
    (expr.withSpan span).span = span := by
  cases expr <;> rfl

/-- An expression with another span has the same children under it. -/
theorem Expr.spanTree_withSpan (span : Span) (expr : Expr) :
    (expr.withSpan span).spanTree = expr.spanTree.withSpan span := by
  cases expr <;> simp only [withSpan, spanTree, SpanTree.withSpan]

/-- Tokens of some kinds are some tokens. -/
theorem ne_nil_of_kinds {tokens : List Token} {kind : TokenKind} {kinds : List TokenKind}
    (written : tokens.map Token.kind = kind :: kinds) : tokens ≠ [] := by
  rintro rfl
  cases written

/-- Tokens that begin with some kinds are some tokens. -/
theorem append_ne_nil_of_kinds {tokens : List Token} {kind : TokenKind} {kinds : List TokenKind}
    (written : tokens.map Token.kind = kind :: kinds) (more : List Token) : tokens ++ more ≠ [] :=
  List.append_ne_nil_of_left_ne_nil (ne_nil_of_kinds written) more

namespace Stands

/-- A node stands on its extent. -/
theorem span_eq {part : Part} {tokens : List Token} {tree : part.Tree}
    (stands : Stands part tokens tree) : ∀ span ∈ part.span? tree, span = extent tokens := by
  induction stands with
  | operand inner ih | unsigned inner ih | expression inner ih => exact ih
  | parens opened closed inner ih =>
    rintro _ ⟨⟩
    exact Expr.span_withSpan _ _
  | noItem | item | coordinates | noStatement | andThen => exact nofun
  | _ =>
    rintro _ ⟨⟩
    rfl

/-- What has to be written stands on some tokens. -/
theorem ne_nil {part : Part} {tokens : List Token} {tree : part.Tree}
    (stands : Stands part tokens tree) (solid : part.nullable = false) : tokens ≠ [] := by
  induction stands with
  | operand inner ih | unsigned inner ih | expression inner ih => exact ih rfl
  | literal written | reference written | moveStep written => exact ne_nil_of_kinds written
  | binary fits signed first second ih _ => exact List.append_ne_nil_of_left_ne_nil (ih rfl) _
  | negate signed inner => exact append_ne_nil_of_kinds signed _
  | callNone written | call written | assign written =>
    exact append_ne_nil_of_kinds written _
  | coordinates item items few ih _ => exact List.append_ne_nil_of_left_ne_nil (ih rfl) _
  | evaluate closed evaluated ih => exact List.append_ne_nil_of_left_ne_nil (ih rfl) _
  | noItem | item | noStatement | andThen => cases solid
  | parens opened | branch opened | branchElse opened | whileLoop opened | repeatLoop opened
  | moveBy opened | moveTo opened | attack opened | attackBy opened | block opened =>
    exact append_ne_nil_of_kinds opened _

/-- Some statements stand on some tokens. -/
theorem statements_ne_nil {tokens : List Token} {stmts : List Stmt}
    (stands : Stands .statements tokens stmts) (some : stmts ≠ []) : tokens ≠ [] := by
  cases stands with
  | noStatement => exact absurd rfl some
  | andThen stmt _ => exact List.append_ne_nil_of_left_ne_nil (stmt.ne_nil rfl) _

end Stands

/-! ### Nested as the spans are -/

/-- Trees of spans lie on tokens one after the other: each of them is sound, begins with a token and
ends with one. -/
structure Fits (tokens : List Token) (forest : List SpanTree) : Prop where
  /-- Each of them is sound. -/
  sound : ∀ tree ∈ forest, tree.Sound
  /-- Each of them begins with a token and ends with one. -/
  bounds : ∀ tree ∈ forest, ∃ first ∈ tokens, ∃ last ∈ tokens,
    tree.span.start = first.span.start ∧ tree.span.stop = last.span.stop
  /-- They come one after the other. -/
  apart : forest.Pairwise SpanTree.Precedes

/-- No extent ends before it begins. -/
theorem Orderly.extent_forward {tokens : List Token} (orderly : Orderly tokens)
    (some : tokens ≠ []) : (extent tokens).start ≤ (extent tokens).stop := by
  obtain ⟨token, others, rfl⟩ := List.exists_cons_of_ne_nil some
  obtain ⟨start, stop⟩ := orderly.within List.mem_cons_self
  exact Position.le_trans start
    (Position.le_trans (orderly.forward token List.mem_cons_self) stop)

namespace Fits

variable {tokens more : List Token} {forest others : List SpanTree}

/-- No trees lie on any tokens. -/
theorem nil (tokens : List Token) : Fits tokens [] := ⟨nofun, nofun, .nil⟩

/-- What lies on some tokens lies on them and those before. -/
theorem after (fits : Fits more forest) (tokens : List Token) : Fits (tokens ++ more) forest where
  sound := fits.sound
  bounds tree member := by
    obtain ⟨first, early, last, late, ends⟩ := fits.bounds tree member
    exact ⟨first, List.mem_append_right _ early, last, List.mem_append_right _ late, ends⟩
  apart := fits.apart

/-- What lies on some tokens and on those after them lies on all in order. -/
theorem append (one : Fits tokens forest) (two : Fits more others)
    (orderly : Orderly (tokens ++ more)) : Fits (tokens ++ more) (forest ++ others) where
  sound := List.forall_mem_append.mpr ⟨one.sound, two.sound⟩
  bounds := by
    refine List.forall_mem_append.mpr ⟨fun tree member => ?_, (two.after tokens).bounds⟩
    obtain ⟨first, early, last, late, ends⟩ := one.bounds tree member
    exact ⟨first, List.mem_append_left _ early, last, List.mem_append_left _ late, ends⟩
  apart := by
    refine List.pairwise_append.mpr ⟨one.apart, two.apart, fun left inLeft right inRight => ?_⟩
    obtain ⟨_, _, last, early, _, stop⟩ := one.bounds left inLeft
    obtain ⟨first, late, _, _, start, _⟩ := two.bounds right inRight
    rw [SpanTree.Precedes, stop, start]
    exact orderly.before early late

/-- What lies on some tokens lies on them and those after. -/
theorem ahead (fits : Fits tokens forest) (orderly : Orderly (tokens ++ more)) :
    Fits (tokens ++ more) forest := by
  simpa only [List.append_nil] using fits.append (.nil more) orderly

/-- Every tree lies within the extent of the tokens. -/
theorem contains (fits : Fits tokens forest) (orderly : Orderly tokens) {tree : SpanTree}
    (member : tree ∈ forest) : (extent tokens).Contains tree.span := by
  obtain ⟨first, early, last, late, start, stop⟩ := fits.bounds tree member
  constructor
  · rw [start]
    exact (orderly.within early).1
  · rw [stop]
    exact (orderly.within late).2

/-- A node over some tokens lies on them if its children do. -/
theorem node (fits : Fits tokens forest) (orderly : Orderly tokens) (some : tokens ≠ []) :
    Fits tokens [.node (extent tokens) forest] where
  sound := by
    refine List.forall_mem_singleton.mpr (.node (orderly.extent_forward some) ?_ fits.apart
      fits.sound)
    exact fun child member => fits.contains orderly member
  bounds := by
    obtain ⟨early, last, rfl⟩ := (List.eq_nil_or_concat tokens).resolve_left some
    obtain ⟨first, late, split⟩ := List.exists_cons_of_ne_nil some
    refine List.forall_mem_singleton.mpr ⟨first, ?_, last, ?_, ?_, ?_⟩
    · rw [split]
      exact List.mem_cons_self
    · rw [List.concat_eq_append]
      exact List.mem_append_right _ List.mem_cons_self
    · rw [split]
      rfl
    · rw [SpanTree.span, List.concat_eq_append, extent_concat_stop]
  apart := List.pairwise_singleton _ _

/-- A node over some tokens lies on them if its children lie under a smaller one. -/
theorem widen {tree : SpanTree} (fits : Fits tokens [tree]) (orderly : Orderly tokens)
    (some : tokens ≠ []) : Fits tokens [tree.withSpan (extent tokens)] where
  sound := by
    obtain ⟨forward, within, apart, each⟩ := fits.sound tree List.mem_cons_self
    have inside := fits.contains orderly List.mem_cons_self
    refine List.forall_mem_singleton.mpr (.node (orderly.extent_forward some) ?_ apart each)
    intro child member
    exact ⟨Position.le_trans inside.start (within child member).start,
      Position.le_trans (within child member).stop inside.stop⟩
  bounds := by
    have bounds := ((nil tokens).node orderly some).bounds _ List.mem_cons_self
    cases tree
    exact List.forall_mem_singleton.mpr bounds
  apart := List.pairwise_singleton _ _

end Fits

/-- What stands on tokens in reading order lies on them: spans are nested as the nodes are. -/
theorem Stands.fits {part : Part} {tokens : List Token} {tree : part.Tree}
    (stands : Stands part tokens tree) (orderly : Orderly tokens) :
    Fits tokens (part.forest tree) := by
  induction stands with
  | operand inner ih | unsigned inner ih | expression inner ih => exact ih orderly
  | binary fits signed first second ih ih' =>
    have children := (ih orderly.left).append ((ih' orderly.right.right).after _) orderly
    simp only [Part.forest, Expr.spanTree]
    exact children.node orderly ((binary fits signed first second).ne_nil rfl)
  | negate signed inner ih =>
    simp only [Part.forest, Expr.spanTree]
    exact ((ih orderly.right).after _).node orderly ((negate signed inner).ne_nil rfl)
  | literal written | reference written =>
    simp only [Part.forest, Expr.spanTree]
    exact (Fits.nil _).node orderly (ne_nil_of_kinds written)
  | callNone written empty =>
    have callee := (Fits.nil _).node orderly.left (ne_nil_of_kinds written)
    simp only [Part.forest, Expr.spanTree, spanTreesOf]
    exact (callee.ahead orderly).node orderly ((callNone written empty).ne_nil rfl)
  | call written opened closed argument arguments ih ih' =>
    have callee := (Fits.nil _).node orderly.left (ne_nil_of_kinds written)
    have items := (ih orderly.right.right.left).append
      ((ih' orderly.right.right.right.left).ahead orderly.right.right.right) orderly.right.right
    simp only [Part.forest, Expr.spanTree, spanTreesOf]
    exact (callee.append (items.after _) orderly).node orderly
      ((call written opened closed argument arguments).ne_nil rfl)
  | parens opened closed inner ih =>
    have inside := (ih orderly.right.left).ahead orderly.right
    -- The parentheses give the expression their span, and its children stay under it.
    simp only [Part.forest, Expr.spanTree_withSpan]
    exact (inside.after _).widen orderly ((parens opened closed inner).ne_nil rfl)
  | noItem | noStatement => exact .nil _
  | item divided item items ih ih' =>
    have fits := (ih orderly.right.left).append (ih' orderly.right.right) orderly.right
    simp only [Part.forest, spanTreesOf]
    exact fits.after _
  | coordinates item items few ih ih' =>
    simp only [Part.forest, spanTreesOf]
    exact (ih orderly.left).append (ih' orderly.right) orderly
  | branch opened closed test stmts ih ih' | whileLoop opened closed test stmts ih ih'
  | repeatLoop opened closed test stmts ih ih' =>
    have children := (ih orderly.right.left).append ((ih' orderly.right.right.right).after _)
      orderly.right
    simp only [Part.forest, Stmt.spanTree]
    exact (children.after _).node orderly (append_ne_nil_of_kinds opened _)
  | branchElse opened closed turned test stmts others ih ih' ih'' =>
    have blocks := (ih' orderly.right.right.right.left).append
      ((ih'' orderly.right.right.right.right.right).after _) orderly.right.right.right
    have children := (ih orderly.right.left).append (blocks.after _) orderly.right
    simp only [Part.forest, Stmt.spanTree]
    exact (children.after _).node orderly (append_ne_nil_of_kinds opened _)
  | moveStep written =>
    simp only [Part.forest, Stmt.spanTree, Option.toList, Motion.spanTrees]
    exact (Fits.nil _).node orderly (ne_nil_of_kinds written)
  | moveBy opened divided closed moved shifted ih ih' =>
    have offset := (ih' orderly.right.right.right.left).ahead orderly.right.right.right
    have children := (ih orderly.right.left).append (offset.after _) orderly.right
    simp only [Part.forest, Stmt.spanTree, Option.toList, Motion.spanTrees]
    exact (children.after _).node orderly (append_ne_nil_of_kinds opened _)
  | moveTo opened closed there ih =>
    have children := (ih orderly.right.left).ahead orderly.right
    simp only [Part.forest, Stmt.spanTree]
    exact (children.after _).node orderly (append_ne_nil_of_kinds opened _)
  | attack opened closed attacked ih =>
    have children := (ih orderly.right.left).ahead orderly.right
    simp only [Part.forest, Stmt.spanTree, Option.toList]
    exact (children.after _).node orderly (append_ne_nil_of_kinds opened _)
  | attackBy opened divided closed attacks attacked ih ih' =>
    have target := (ih' orderly.right.right.right.left).ahead orderly.right.right.right
    have children := (ih orderly.right.left).append (target.after _) orderly.right
    simp only [Part.forest, Stmt.spanTree, Option.toList]
    exact (children.after _).node orderly (append_ne_nil_of_kinds opened _)
  | assign written signed closed assigned ih =>
    have word := (Fits.nil _).node orderly.left (ne_nil_of_kinds written)
    have value := (ih orderly.right.right.left).ahead orderly.right.right
    simp only [Part.forest, Stmt.spanTree]
    exact (word.append (value.after _) orderly).node orderly (append_ne_nil_of_kinds written _)
  | evaluate closed evaluated ih =>
    simp only [Part.forest, Stmt.spanTree]
    exact ((ih orderly.left).ahead orderly).node orderly ((evaluate closed evaluated).ne_nil rfl)
  | andThen stmt stmts ih ih' =>
    simp only [Part.forest, spanTreesOfStmts]
    exact (ih orderly.left).append (ih' orderly.right) orderly
  | block opened closed stmts ih =>
    have children := (ih orderly.right.left).ahead orderly.right
    exact (children.after _).node orderly ((block opened closed stmts).ne_nil rfl)

end Waggle
