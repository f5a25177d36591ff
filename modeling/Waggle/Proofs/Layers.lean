import Mathlib.Algebra.Group.Nat.Defs
import Waggle.Proofs.Stepping

/-!
# What is left of a run is a path through its program

A frame says what is left of a part of a program, but not which part that is. `Layer` is a frame
that does: it holds a whole block with the index of its next statement, and a loop with its body,
the number of repetitions that it was created with, and counters that are words. `descend` takes a
step over layers, and forgetting what layers say beyond frames gives the step of the run
(`advance_layers`).

In layers it can be seen that what is left is a path (`IsPath`): the program, then one of its
statements that has a block, then a statement in there, and so on. A step leaves a path
(`descend_isPath`), so a run never holds more frames than such statements are nested, twice, and
one more (`IsPath.length_le`).
-/

namespace Waggle

/-- A frame with the part of the program that it is for. -/
inductive Layer where
  /-- A block, with the index of the statement that comes next. -/
  | block (stmts : List Stmt) (next : Nat)
  /-- A `while` loop that has begun a number of iterations. -/
  | whileLoop (condition : Expr) (body : Block Stmt) (span : Span) (begun : UInt64)
  /-- A `repeat` loop that was created with a number of repetitions, with those that remain and
  those that have begun. -/
  | repeatLoop (count : Expr) (body : Block Stmt) (span : Span) (created remaining : Int64)
    (begun : UInt64)

namespace Layer

/-- What a layer says is left. -/
def frame : Layer → Frame
  | .block stmts next => .block (stmts.drop next)
  | .whileLoop condition body span begun => .whileLoop condition body.stmts span begun.toNat
  | .repeatLoop _ body span _ remaining begun =>
    .repeatLoop body.stmts span remaining.toInt.toNat begun.toNat

/-- The index of a block is one of its statements or comes after them, a `while` loop has begun no
more iterations than it may, and the repetitions of a `repeat` loop are those that remain and those
that have begun. -/
def InRange : Layer → Prop
  | .block stmts next => next ≤ stmts.length
  | .whileLoop _ _ _ begun => begun.toNat ≤ maxIterations
  | .repeatLoop _ _ _ created remaining begun =>
    0 ≤ remaining.toInt ∧ remaining.toInt + begun.toNat = created.toInt

/-- The next change of a counter does not leave the range of words. -/
def CountsExactly : Layer → Prop
  | .block _ _ => True
  | .whileLoop _ _ _ begun => (begun + 1).toNat = begun.toNat + 1
  | .repeatLoop _ _ _ _ remaining begun =>
    (0 < remaining → (remaining - 1).toInt = remaining.toInt - 1) ∧
      (begun + 1).toNat = begun.toNat + 1

/-- Counting up is exact below the greatest word. -/
theorem toNat_add_one {word : UInt64} (below : word.toNat + 1 < 2 ^ 64) :
    (word + 1).toNat = word.toNat + 1 := by
  rw [UInt64.toNat_add]
  exact Nat.mod_eq_of_lt below

/-- Counting down is exact above the least word. -/
theorem toInt_sub_one {word : Int64} (above : 0 < word.toInt) :
    (word - 1).toInt = word.toInt - 1 := by
  have range := Integer.inRange word
  unfold Integer.greatest at range
  have exact := Int64.toInt_ofInt_of_le (n := word.toInt - 1) (by omega) (by omega)
  have difference : word - 1 = Int64.ofInt (word.toInt - 1) := by
    rw [Int64.ofInt_sub, Int64.ofInt_toInt]
    rfl
  rw [difference, exact]

/-- Counters that are in range count exactly. -/
theorem InRange.countsExactly {layer : Layer} (inRange : layer.InRange) : layer.CountsExactly := by
  cases layer with
  | block stmts next => trivial
  | whileLoop condition body span begun =>
    have few : begun.toNat ≤ 1000 := inRange
    exact toNat_add_one (by omega)
  | repeatLoop count body span created remaining begun =>
    obtain ⟨positive, total⟩ := inRange
    have range := Integer.inRange created
    unfold Integer.greatest at range
    constructor
    · intro more
      apply toInt_sub_one
      exact Int64.lt_iff_toInt_lt.mp more
    · exact toNat_add_one (by omega)

end Layer

/-! ### Steps over layers -/

/-- What one step leaves behind, in layers. -/
structure Stride where
  /-- Where the run pauses. -/
  point : SuspendPoint
  /-- What is left of it. -/
  layers : List Layer
  /-- The bindings. -/
  environment : Environment

/-- What a step leaves behind, in frames. -/
def Stride.progress (stride : Stride) : Progress :=
  ⟨stride.point, stride.layers.map Layer.frame, stride.environment⟩

/-- The word of repetitions that a value stands for. -/
def Value.repeatWord : Value → Except RuntimeError Int64
  | .int number => if number < 0 then .error (.negativeRepeatCount number) else .ok number
  | value => .error (.typeMismatch (.argument "'repeat' count" "int" value))

/-- The number of repetitions is what the word of them says. -/
theorem Value.repeatCount_eq (value : Value) :
    value.repeatCount = value.repeatWord.map fun number => number.toInt.toNat := by
  cases value with
  | int number =>
    unfold repeatCount repeatWord
    dsimp only
    split <;> rfl
  | _ => rfl

/-- A number of repetitions is not negative. -/
theorem Value.repeatWord_nonneg {value : Value} {number : Int64}
    (counted : value.repeatWord = .ok number) : 0 ≤ number.toInt := by
  unfold repeatWord at counted
  split at counted
  · split at counted
    · cases counted
    · rename_i positive
      cases counted
      rw [Int64.lt_iff_toInt_lt] at positive
      exact Int.not_lt.mp positive
  · cases counted

section Machine

variable {ω : Type} [World ω]

/-- Carries out a statement before the layers of what is left of a run. -/
def Stmt.enter (scope : Scope) (stmt : Stmt) (layers : List Layer) : Eval ω Stride :=
  match stmt with
  | .branch condition consequent alternative span => do
    let value ← condition.eval scope
    let layers :=
      if value.truthy then .block consequent.stmts 0 :: layers
      else
        match alternative with
        | some block => .block block.stmts 0 :: layers
        | none => layers
    return ⟨.statement span, layers, scope.environment⟩
  | .whileLoop condition body span =>
    return ⟨.statement span, .whileLoop condition body span 0 :: layers, scope.environment⟩
  | .repeatLoop count body span => do
    let value ← count.eval scope
    let number ← Eval.ofExcept value.repeatWord
    return ⟨.statement span, .repeatLoop count body span number number 0 :: layers,
      scope.environment⟩
  | simple => do
    let deed ← simple.deed scope
    let environment ← deed.perform scope.environment
    return ⟨.statement simple.span, layers, environment⟩

/-- Takes one step, or none if nothing is left; layers that have ended are passed over. -/
def descend (scope : Scope) : List Layer → Eval ω (Option Stride)
  | [] => return none
  | .block stmts next :: below =>
    match stmts[next]? with
    | none => descend scope below
    | some stmt => some <$> stmt.enter scope (.block stmts (next + 1) :: below)
  | .whileLoop condition body span begun :: below => do
    let value ← condition.eval scope
    if value.truthy then
      if maxIterations ≤ begun.toNat then
        throw .infiniteLoopGuardTripped
      else
        let begun := begun + 1
        return some ⟨.iteration span begun.toNat,
          .block body.stmts 0 :: .whileLoop condition body span begun :: below,
          scope.environment⟩
    else
      descend scope below
  | .repeatLoop count body span created remaining begun :: below =>
    if remaining ≤ 0 then
      descend scope below
    else
      let begun := begun + 1
      return some ⟨.iteration span begun.toNat,
        .block body.stmts 0 :: .repeatLoop count body span created (remaining - 1) begun :: below,
        scope.environment⟩

/-- Carrying out a statement before layers is carrying it out before their frames. -/
theorem Stmt.execute_layers (scope : Scope) (stmt : Stmt) (layers : List Layer) :
    (stmt.execute scope (layers.map Layer.frame) : Eval ω Progress) =
      Stride.progress <$> stmt.enter scope layers := by
  cases stmt with
  | branch condition consequent alternative span =>
    unfold execute enter
    rw [map_bind]
    apply bind_congr
    intro value
    by_cases holds : value.truthy = true
    · simp only [if_pos holds]
      rfl
    · simp only [if_neg holds]
      cases alternative <;> rfl
  | whileLoop condition body span => rfl
  | repeatLoop count body span =>
    unfold execute enter
    rw [map_bind]
    apply bind_congr
    intro value
    rw [Value.repeatCount_eq, map_bind]
    cases value.repeatWord <;> rfl
  | _ =>
    unfold execute enter
    simp only [map_bind, map_pure]
    rfl

/-- A step over layers that are in range is a step over their frames. -/
theorem advance_layers (scope : Scope) {layers : List Layer}
    (inRange : ∀ layer ∈ layers, layer.InRange) :
    (advance scope (layers.map Layer.frame) : Eval ω (Option Progress)) =
      Option.map Stride.progress <$> descend scope layers := by
  induction layers with
  | nil => rfl
  | cons layer below ih =>
    have here := inRange layer List.mem_cons_self
    have exactly := here.countsExactly
    have later := ih fun other member => inRange other (List.mem_cons_of_mem _ member)
    cases layer with
    | block stmts next =>
      rw [List.map_cons, Layer.frame, descend]
      by_cases within : next < stmts.length
      · rw [List.drop_eq_getElem_cons within, List.getElem?_eq_getElem within, advance]
        have carried := Stmt.execute_layers (ω := ω) scope stmts[next]
          (.block stmts (next + 1) :: below)
        rw [List.map_cons, Layer.frame] at carried
        simp only [carried, Functor.map_map, Option.map_some]
      · have past : stmts.length ≤ next := Nat.not_lt.mp within
        rw [List.drop_eq_nil_of_le past, List.getElem?_eq_none past, advance]
        exact later
    | whileLoop condition body span begun =>
      have up : (begun + 1).toNat = begun.toNat + 1 := exactly
      rw [List.map_cons, Layer.frame, descend, advance, map_bind]
      apply bind_congr
      intro value
      split
      · split
        · rfl
        · simp only [map_pure, Option.map_some, Stride.progress, List.map_cons, Layer.frame, up,
            List.drop_zero]
      · exact later
    | repeatLoop count body span created remaining begun =>
      obtain ⟨positive, -⟩ := here
      obtain ⟨down, up⟩ := exactly
      rw [List.map_cons, Layer.frame, descend]
      by_cases used : remaining ≤ 0
      · have none : remaining.toInt.toNat = 0 := by
          rw [Int64.le_iff_toInt_le] at used
          exact Int.toNat_of_nonpos used
        rw [if_pos used, none, advance]
        exact later
      · have more : 0 < remaining := Int64.not_le.mp used
        have fewer := down more
        have split : remaining.toInt.toNat = (remaining - 1).toInt.toNat + 1 := by
          rw [Int64.lt_iff_toInt_lt] at more
          have zero : (0 : Int64).toInt = 0 := rfl
          omega
        rw [if_neg used, split, advance]
        simp only [map_pure, Option.map_some, Stride.progress, List.map_cons, Layer.frame, up,
          List.drop_zero]

end Machine

/-! ### Paths -/

/-- The statement that the nearest block below is at: the one before its next. -/
def current? : List Layer → Option Stmt
  | [] => none
  | .block stmts next :: _ => if next = 0 then none else stmts[next - 1]?
  | .whileLoop .. :: below | .repeatLoop .. :: below => current? below

/-- A layer belongs to a statement, on top of other layers: it is a block of a branch or a loop, and
the block where the statement stands is right below it; or it is the block of the body of a loop,
and that loop is right below it. -/
inductive Layer.BelongsTo : Layer → Stmt → List Layer → Prop
  | consequent {condition consequent alternative span next stmts place below} :
    BelongsTo (.block consequent.stmts next) (.branch condition consequent alternative span)
      (.block stmts place :: below)
  | alternative {condition consequent alternative span next stmts place below} :
    BelongsTo (.block alternative.stmts next)
      (.branch condition consequent (some alternative) span) (.block stmts place :: below)
  | whileLoop {condition body span begun stmts place below} :
    BelongsTo (.whileLoop condition body span begun) (.whileLoop condition body span)
      (.block stmts place :: below)
  | whileBody {condition body span begun next below} :
    BelongsTo (.block body.stmts next) (.whileLoop condition body span)
      (.whileLoop condition body span begun :: below)
  | repeatLoop {count body span created remaining begun stmts place below} :
    BelongsTo (.repeatLoop count body span created remaining begun) (.repeatLoop count body span)
      (.block stmts place :: below)
  | repeatBody {count body span created remaining begun next below} :
    BelongsTo (.block body.stmts next) (.repeatLoop count body span)
      (.repeatLoop count body span created remaining begun :: below)

/-- Layers are a path in a program: the last one is the block of the program, every other one
belongs to the statement that the nearest block below it is at, and all of them are in range. -/
inductive IsPath (program : Program) : List Layer → Prop
  | bottom {next} (inRange : (Layer.block program.stmts next).InRange) :
    IsPath program [.block program.stmts next]
  | above {layer stmt below} (path : IsPath program below) (current : current? below = some stmt)
    (belongs : layer.BelongsTo stmt below) (inRange : layer.InRange) :
    IsPath program (layer :: below)

namespace IsPath

variable {program : Program} {layers below : List Layer}

/-- All layers of a path are in range. -/
theorem inRange (path : IsPath program layers) : ∀ layer ∈ layers, layer.InRange := by
  induction path with
  | bottom inRange =>
    intro layer member
    rw [List.mem_singleton.mp member]
    exact inRange
  | above path current belongs inRange ih =>
    intro layer member
    rcases List.mem_cons.mp member with rfl | further
    · exact inRange
    · exact ih layer further

/-- A path stays one without its first layer, if it was not the last. -/
theorem tail {layer : Layer} (path : IsPath program (layer :: below)) :
    below = [] ∨ IsPath program below := by
  cases path with
  | bottom inRange => exact .inl rfl
  | above path current belongs inRange => exact .inr path

/-- A path stays one where its first block goes on to its next statement. -/
theorem goOn {stmts : List Stmt} {next : Nat} (path : IsPath program (.block stmts next :: below))
    (within : next < stmts.length) : IsPath program (.block stmts (next + 1) :: below) := by
  cases path with
  | bottom inRange => exact .bottom within
  | above path current belongs inRange =>
    rename_i stmt
    have stands : (Layer.block stmts (next + 1)).BelongsTo stmt below := by
      cases belongs <;> constructor
    exact .above path current stands within

/-- A path goes on into the body of a `while` loop that begins an iteration. -/
theorem beginWhile {condition : Expr} {body : Block Stmt} {span : Span} {begun : UInt64}
    (path : IsPath program (.whileLoop condition body span begun :: below))
    (few : begun.toNat < maxIterations) :
    IsPath program
      (.block body.stmts 0 :: .whileLoop condition body span (begun + 1) :: below) := by
  cases path with
  | above path current belongs inRange =>
    have up : (begun + 1).toNat = begun.toNat + 1 := inRange.countsExactly
    have still : (Layer.whileLoop condition body span (begun + 1)).InRange := by
      change (begun + 1).toNat ≤ maxIterations
      omega
    cases belongs
    exact .above (.above path current .whileLoop still) current .whileBody (Nat.zero_le _)

/-- A path goes on into the body of a `repeat` loop that begins a repetition. -/
theorem beginRepeat {count : Expr} {body : Block Stmt} {span : Span}
    {created remaining : Int64} {begun : UInt64}
    (path : IsPath program (.repeatLoop count body span created remaining begun :: below))
    (more : 0 < remaining) :
    IsPath program (.block body.stmts 0 ::
      .repeatLoop count body span created (remaining - 1) (begun + 1) :: below) := by
  cases path with
  | above path current belongs inRange =>
    obtain ⟨down, up⟩ := inRange.countsExactly
    obtain ⟨-, total⟩ := inRange
    have fewer := down more
    have positive : 0 < remaining.toInt := Int64.lt_iff_toInt_lt.mp more
    have still :
        (Layer.repeatLoop count body span created (remaining - 1) (begun + 1)).InRange := by
      change 0 ≤ (remaining - 1).toInt ∧
        (remaining - 1).toInt + ((begun + 1).toNat : Int) = created.toInt
      omega
    cases belongs
    exact .above (.above path current .repeatLoop still) current .repeatBody (Nat.zero_le _)

end IsPath

/-- Carrying out the statement that a path is at leaves a path. -/
theorem Stmt.enter_isPath {ω : Type} [World ω] (scope : Scope) {program : Program} {stmt : Stmt}
    {stmts : List Stmt} {next : Nat} {below : List Layer}
    (path : IsPath program (.block stmts next :: below))
    (current : current? (.block stmts next :: below) = some stmt) :
    (stmt.enter scope (.block stmts next :: below) : Eval ω Stride).Ensures fun stride =>
      IsPath program stride.layers := by
  cases stmt with
  | branch condition consequent alternative span =>
    apply Eval.Ensures.bind
    intro value
    apply Eval.Ensures.pure
    change IsPath program (if value.truthy = true then _ else _)
    split
    · exact .above path current .consequent (Nat.zero_le _)
    · cases alternative with
      | none => exact path
      | some alternative => exact .above path current .alternative (Nat.zero_le _)
  | whileLoop condition body span =>
    apply Eval.Ensures.pure
    exact .above path current .whileLoop (Nat.zero_le _)
  | repeatLoop count body span =>
    apply Eval.Ensures.bind
    intro value
    refine .bind_of (.ofExcept fun _ counted => Value.repeatWord_nonneg counted) ?_
    intro number positive
    apply Eval.Ensures.pure
    have created : (Layer.repeatLoop count body span number number 0).InRange :=
      ⟨positive, Int.add_zero _⟩
    exact .above path current .repeatLoop created
  | _ =>
    exact .bind fun _ => .bind fun _ => .pure path

/-- A step over a path leaves a path. -/
theorem descend_isPath {ω : Type} [World ω] (scope : Scope) {program : Program}
    {layers : List Layer} (path : IsPath program layers) :
    (descend scope layers : Eval ω (Option Stride)).Ensures fun result =>
      ∀ stride, result = some stride → IsPath program stride.layers := by
  induction layers with
  | nil => cases path
  | cons layer below ih =>
    -- If the layer has ended, the step goes on below it, where there may be nothing left.
    have beneath : (descend scope below : Eval ω (Option Stride)).Ensures fun result =>
        ∀ stride, result = some stride → IsPath program stride.layers := by
      rcases path.tail with rfl | further
      · exact .pure fun stride absurd => nomatch absurd
      · exact ih further
    cases layer with
    | block stmts next =>
      rw [descend]
      by_cases within : next < stmts.length
      · rw [List.getElem?_eq_getElem within]
        apply Eval.Ensures.map
        have current : current? (.block stmts (next + 1) :: below) = some stmts[next] := by
          rw [current?, if_neg (Nat.succ_ne_zero next), Nat.add_sub_cancel,
            List.getElem?_eq_getElem within]
        have carried := Stmt.enter_isPath (ω := ω) scope (path.goOn within) current
        intro world stride after ran other same
        cases same
        exact carried world stride after ran
      · rw [List.getElem?_eq_none (Nat.not_lt.mp within)]
        exact beneath
    | whileLoop condition body span begun =>
      rw [descend]
      apply Eval.Ensures.bind
      intro value
      split
      · split
        · exact .throw
        · rename_i few
          apply Eval.Ensures.pure
          rintro stride ⟨⟩
          exact path.beginWhile (Nat.not_le.mp few)
      · exact beneath
    | repeatLoop count body span created remaining begun =>
      rw [descend]
      split
      · exact beneath
      · rename_i more
        apply Eval.Ensures.pure
        rintro stride ⟨⟩
        exact path.beginRepeat (Int64.not_le.mp more)

/-! ### How high a path can be -/

mutual

/-- How many statements with blocks are nested in a statement, itself included. -/
def Stmt.nesting : Stmt → Nat
  | .branch _ consequent none _ => nestingOf consequent.stmts + 1
  | .branch _ consequent (some alternative) _ =>
    max (nestingOf consequent.stmts) (nestingOf alternative.stmts) + 1
  | .whileLoop _ body _ | .repeatLoop _ body _ => nestingOf body.stmts + 1
  | .assign .. | .evaluate .. | .move .. | .moveTo .. | .attack .. => 0

/-- How many statements with blocks are nested in one of some statements. -/
def nestingOf : List Stmt → Nat
  | [] => 0
  | stmt :: rest => max stmt.nesting (nestingOf rest)

end

/-- A statement is nested no deeper than the statements that it is among. -/
theorem Stmt.nesting_le {stmt : Stmt} {stmts : List Stmt} (member : stmt ∈ stmts) :
    stmt.nesting ≤ nestingOf stmts := by
  induction stmts with
  | nil => cases member
  | cons head rest ih =>
    rw [nestingOf]
    rcases List.mem_cons.mp member with rfl | further
    · exact Nat.le_max_left _ _
    · exact Nat.le_trans (ih further) (Nat.le_max_right _ _)

/-- How many layers can still come on top of some layers: two for every loop in the first one, and
the body if that is a loop itself. -/
def layersOnTop : List Layer → Nat
  | [] => 0
  | .block stmts _ :: _ => 2 * nestingOf stmts
  | .whileLoop _ body _ _ :: _ | .repeatLoop _ body _ _ _ _ :: _ => 2 * nestingOf body.stmts + 1

/-- The statement that a block is at is nested no deeper than the block. -/
theorem nesting_current {stmts : List Stmt} {next : Nat} {below : List Layer} {stmt : Stmt}
    (current : current? (.block stmts next :: below) = some stmt) :
    stmt.nesting ≤ nestingOf stmts := by
  rw [current?] at current
  split at current
  · cases current
  · exact Stmt.nesting_le (List.mem_of_getElem? current)

/-- The layers of a path and those that can still come on top of it are no more than two for each
of the statements with blocks that are nested in the program, and one for the program itself. -/
theorem IsPath.length_le {program : Program} {layers : List Layer}
    (path : IsPath program layers) :
    layers.length + layersOnTop layers ≤ 1 + 2 * nestingOf program.stmts := by
  induction path with
  | bottom inRange => exact Nat.le_refl _
  | above path current belongs inRange ih =>
    cases belongs with
    | consequent =>
      rename_i condition consequent alternative span next stmts place below
      have deeper := nesting_current current
      cases alternative <;> simp only [Stmt.nesting, layersOnTop, List.length_cons] at * <;> omega
    | alternative | whileLoop | repeatLoop =>
      have deeper := nesting_current current
      simp only [Stmt.nesting, layersOnTop, List.length_cons] at *
      omega
    | whileBody | repeatBody =>
      simp only [layersOnTop, List.length_cons] at *
      omega

/-! ### Runs with their layers -/

variable {ω : Type}

/-- What can happen between two moments of a run. -/
inductive Move (ω : Type) where
  /-- A step is taken. -/
  | step
  /-- Anything happens to the interpreter: the run is to be cancelled, say, or the world changes by
  itself. -/
  | meddle (change : Interpreter ω → Interpreter ω)

/-- A run with the layers of what is left of it. -/
structure Tracked (ω : Type) where
  /-- The run. -/
  run : Execution ω
  /-- The layers. -/
  layers : List Layer

/-- Begins a run with its layers. -/
def Tracked.start (host : Interpreter ω) (program : Program) : Tracked ω :=
  ⟨host.start program, [.block program.stmts 0]⟩

variable [World ω]

/-- What happens to a run. -/
def Execution.move (run : Execution ω) : Move ω → Execution ω
  | .step => run.step.2
  | .meddle change => { run with host := change run.host }

/-- What happens to a run in some moves. -/
def Execution.moves (run : Execution ω) (moves : List (Move ω)) : Execution ω :=
  moves.foldl move run

namespace Tracked

/-- The layers that a step over them leaves in the world of a run, or none if it ends the run. -/
def layersAfterStep (tracked : Tracked ω) : List Layer :=
  let run := tracked.run
  match run.step.1, (descend run.host.scope tracked.layers run.host.world).1 with
  | .suspended _, .ok (some stride) => stride.layers
  | _, _ => []

/-- What happens to a run and its layers. -/
def move (tracked : Tracked ω) (move : Move ω) : Tracked ω where
  run := tracked.run.move move
  layers :=
    match move with
    | .step => tracked.layersAfterStep
    | .meddle _ => tracked.layers

/-- What happens to a run and its layers in some moves. -/
def moves (tracked : Tracked ω) (moves : List (Move ω)) : Tracked ω := moves.foldl move tracked

/-- The run happens as it does without layers. -/
theorem run_moves (tracked : Tracked ω) (moves : List (Move ω)) :
    (tracked.moves moves).run = tracked.run.moves moves := by
  induction moves generalizing tracked with
  | nil => rfl
  | cons move rest ih => exact ih (tracked.move move)

/-- The layers are a path, and are what is left of the run, as long as it is unfinished. -/
def OnPath (program : Program) (tracked : Tracked ω) : Prop :=
  tracked.run.outcome = none →
    tracked.layers.map Layer.frame = tracked.run.frames ∧ IsPath program tracked.layers

variable {program : Program} {tracked : Tracked ω}

/-- A step keeps to a path. -/
theorem OnPath.step (onPath : OnPath program tracked) :
    OnPath program (tracked.move .step) := by
  intro unfinished
  change tracked.run.step.2.outcome = none at unfinished
  change tracked.layersAfterStep.map Layer.frame = tracked.run.step.2.frames ∧
    IsPath program tracked.layersAfterStep
  rcases known : tracked.run.outcome with _ | outcome
  · obtain ⟨frames, path⟩ := onPath known
    have agree := advance_layers (ω := ω) tracked.run.host.scope path.inRange
    rw [frames] at agree
    rcases requested : tracked.run.host.cancelRequested with _ | _
    · rcases found : descend tracked.run.host.scope tracked.layers tracked.run.host.world with
        ⟨error | _ | stride, world⟩
      · have advanced : advance tracked.run.host.scope tracked.run.frames
            tracked.run.host.world = (.error error, world) := by
          rw [agree, Eval.map_apply, found]
        rw [Execution.step_of_error known requested advanced] at unfinished
        cases unfinished
      · have advanced : advance tracked.run.host.scope tracked.run.frames
            tracked.run.host.world = (.ok none, world) := by
          rw [agree, Eval.map_apply, found]
          rfl
        rw [Execution.step_of_none known requested advanced] at unfinished
        cases unfinished
      · have advanced : advance tracked.run.host.scope tracked.run.frames
            tracked.run.host.world = (.ok (some stride.progress), world) := by
          rw [agree, Eval.map_apply, found]
          rfl
        have stepped := Execution.step_of_some known requested advanced
        have left : tracked.layersAfterStep = stride.layers := by
          unfold layersAfterStep
          simp only [stepped, found]
        rw [stepped, left]
        exact ⟨rfl, descend_isPath _ path _ _ _ found stride rfl⟩
    · rw [Execution.step_of_cancelled known requested] at unfinished
      cases unfinished
  · rw [Execution.step_of_finished known, known] at unfinished
    cases unfinished

/-- Whatever happens keeps to a path. -/
theorem OnPath.moves (onPath : OnPath program tracked) (moves : List (Move ω)) :
    OnPath program (tracked.moves moves) := by
  induction moves generalizing tracked with
  | nil => exact onPath
  | cons move rest ih =>
    cases move with
    | step => exact ih onPath.step
    | meddle change =>
      have still : OnPath program (tracked.move (.meddle change)) := onPath
      exact ih still

end Tracked

/-- What is left of an unfinished run is a path in its program at any time, whatever happens to the
interpreter between its steps: the frames are those of layers, the last of which is the block of the
program, and every other one belongs to the statement that the nearest block below it is at. They
are no more than two for each of the statements with blocks that are nested in the program, and
one. The counters of a loop are in range, add up to the repetitions that it was created with, and
are far enough from the ends of words to count on. -/
theorem Interpreter.start_onPath (host : Interpreter ω) (program : Program)
    (moves : List (Move ω)) :
    let tracked := (Tracked.start host program).moves moves
    tracked.run = (host.start program).moves moves ∧
      (tracked.run.outcome = none →
        tracked.layers.map Layer.frame = tracked.run.frames ∧
          IsPath program tracked.layers ∧
          tracked.run.frames.length ≤ 1 + 2 * nestingOf program.stmts ∧
          ∀ layer ∈ tracked.layers, layer.InRange ∧ layer.CountsExactly) := by
  intro tracked
  have start : Tracked.OnPath program (Tracked.start host program) := by
    intro unfinished
    exact ⟨rfl, .bottom (Nat.zero_le _)⟩
  constructor
  · exact Tracked.run_moves _ moves
  · intro unfinished
    obtain ⟨frames, path⟩ := start.moves moves unfinished
    have height := path.length_le
    refine ⟨frames, path, ?_, fun layer member => ?_⟩
    · rw [← frames, List.length_map]
      omega
    · have inRange := path.inRange layer member
      exact ⟨inRange, inRange.countsExactly⟩

/-- The bound is met: within the innermost of two loops there are five frames. -/
example (host : Interpreter ω) :
    let span : Span := .point .first
    let inner : Block Stmt := ⟨[.assign ⟨"x", span⟩ (.literal (.int 1) span) span], span⟩
    let outer : Block Stmt := ⟨[.whileLoop (.literal (.bool true) span) inner span], span⟩
    let program : Program := ⟨[.repeatLoop (.literal (.int 1) span) outer span], span⟩
    let run := (host.start program).moves [.step, .step, .step, .step]
    run.outcome = none ∧ run.frames.length = 1 + 2 * nestingOf program.stmts :=
  ⟨rfl, rfl⟩

end Waggle
