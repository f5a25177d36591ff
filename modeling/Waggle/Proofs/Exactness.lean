import Waggle.Eval.Expression
import Waggle.World.Grid

/-!
# Arithmetic is exact or an error

The integers of a script are words, but no result of a script is ever cut to one. `Expr.survey` is
an ideal evaluation: its integers have no bounds, and it notes what it visits on its way through an
expression, operands before their operator and from left to right. Evaluation goes the same way and
compares with it at each visit (`Expr.eval_follows`): as long as everything is in range the values
are the same, and where evaluation fails it is at the first visit that has no value in range, for
the reason that the visit gives (`Expr.eval_exact`).

An ideal evaluation goes on after a result that is out of range, so what it notes from there on is
of no interest.
-/

namespace Waggle

/-- A value with an integer of any size. -/
inductive IdealValue where
  | int (number : Int)
  | bool (truth : Bool)
  | direction (direction : Direction)
  | entity (entity : EntityRef)
  | null
deriving DecidableEq

/-- Whether an ideal value is an integer out of range. -/
def IdealValue.isOutside : IdealValue → Bool
  | .int number => !decide (Integer.least ≤ number ∧ number ≤ Integer.greatest)
  | _ => false

/-- A value with its integer taken out of its word. -/
def Value.ideal : Value → IdealValue
  | .int number => .int number.toInt
  | .bool truth => .bool truth
  | .direction heading => .direction heading
  | .entity handle => .entity handle
  | .null => .null

/-- An ideal value as a value, unless it is out of range. -/
def IdealValue.value? : IdealValue → Option Value
  | .int number => (Integer.fit? number).map .int
  | .bool truth => some (.bool truth)
  | .direction heading => some (.direction heading)
  | .entity handle => some (.entity handle)
  | .null => some .null

/-- Whether an operator takes two values: integers, or truth values to be compared. -/
def BinaryOp.Takes (op : BinaryOp) : IdealValue → IdealValue → Prop
  | .int _, .int _ => True
  | .bool _, .bool _ => op = .equal
  | _, _ => False

/-- The exact value of an operator between two values, if there is one. A quotient is cut toward
zero. -/
def BinaryOp.ideal? : BinaryOp → IdealValue → IdealValue → Option IdealValue
  | .add, .int a, .int b => some (.int (a + b))
  | .subtract, .int a, .int b => some (.int (a - b))
  | .multiply, .int a, .int b => some (.int (a * b))
  | .divide, .int a, .int b => if b = 0 then none else some (.int (a.tdiv b))
  | .equal, .int a, .int b => some (.bool (a = b))
  | .equal, .bool a, .bool b => some (.bool (a = b))
  | _, _, _ => none

/-! ### The ideal evaluation -/

/-- What an ideal evaluation comes upon. -/
inductive Visit where
  /-- A literal, or a name or a call that has a value. -/
  | found (value : IdealValue)
  /-- A name or a call that has none. -/
  | missing
  /-- An operator between two values. -/
  | binary (op : BinaryOp) (left right : IdealValue)
  /-- The sign before a value. -/
  | negation (operand : IdealValue)
deriving DecidableEq

namespace Visit

/-- The exact value at a visit, if there is one. -/
def result? : Visit → Option IdealValue
  | .found value => some value
  | .missing => none
  | .binary op left right => op.ideal? left right
  | .negation (.int number) => some (.int (-number))
  | .negation _ => none

/-- The values that an operator is applied to at a visit. -/
def operands : Visit → List IdealValue
  | .found _ | .missing => []
  | .binary _ left right => [left, right]
  | .negation operand => [operand]

/-- The values that are met at a visit: what an operator is applied to, and the exact value. -/
def values (visit : Visit) : List IdealValue := visit.operands ++ visit.result?.toList

/-- Whether there is no exact value at a visit, or one that is out of range. -/
def fails (visit : Visit) : Bool :=
  match visit.result? with
  | some value => value.isOutside
  | none => true

/-- The exact value of an operator on integers is out of range. -/
inductive Overflows : Visit → Operator → Prop
  | binary {op : BinaryOp} {left right result : Int}
    (exact : op.ideal? (.int left) (.int right) = some (.int result))
    (outside : (IdealValue.int result).isOutside = true) :
    Overflows (.binary op (.int left) (.int right)) (.binary op)
  | negation {number : Int} (outside : (IdealValue.int (-number)).isOutside = true) :
    Overflows (.negation (.int number)) .negation

end Visit

/-- An ideal computation over a world. -/
structure Survey (ω α : Type) where
  /-- What is visited, the value that the computation comes to unless it stops at a visit without
  one, and the world after it. -/
  run : ω → List Visit × Option α × ω

namespace Survey

variable {ω α β : Type}

instance : Monad (Survey ω) where
  pure value := ⟨fun world => ([], some value, world)⟩
  bind first next := ⟨fun world =>
    match first.run world with
    | (visits, some value, after) =>
      let (more, result, last) := (next value).run after
      (visits ++ more, result, last)
    | (visits, none, after) => (visits, none, after)⟩

/-- Notes a visit and takes its exact value. -/
def note (visit : Visit) : Survey ω IdealValue := ⟨fun world => ([visit], visit.result?, world)⟩

/-- Notes what the world and the bindings have a value for. -/
def consult (computation : Eval ω Value) : Survey ω IdealValue := ⟨fun world =>
  match computation world with
  | (.ok value, after) => ([.found value.ideal], some value.ideal, after)
  | (.error _, after) => ([.missing], none, after)⟩

/-- A sequence visits what its parts visit. -/
theorem bind_of_some {first : Survey ω α} (next : α → Survey ω β) {world after : ω}
    {visits : List Visit} {value : α} (ran : first.run world = (visits, some value, after)) :
    (first >>= next).run world =
      (visits ++ ((next value).run after).1, ((next value).run after).2) := by
  change (match first.run world with
    | (visits, some value, after) => _
    | (visits, none, after) => _) = _
  rw [ran]

/-- A sequence stops where its first part does. -/
theorem bind_of_none {first : Survey ω α} (next : α → Survey ω β) {world after : ω}
    {visits : List Visit} (ran : first.run world = (visits, none, after)) :
    (first >>= next).run world = (visits, none, after) := by
  change (match first.run world with
    | (visits, some value, after) => _
    | (visits, none, after) => _) = _
  rw [ran]

end Survey

open Survey

variable {ω : Type} [World ω]

mutual

/-- The ideal evaluation of an expression. No function takes an integer, so none takes one that is
out of range. -/
def Expr.survey (scope : Scope) : Expr → Survey ω IdealValue
  | .literal value _ => note (.found value.ideal)
  | .reference name _ => consult (scope.lookup name)
  | .binary op left right _ => do
    let first ← left.survey scope
    let second ← right.survey scope
    note (.binary op first second)
  | .negate operand _ => do
    let value ← operand.survey scope
    note (.negation value)
  | .call callee arguments _ =>
    match Builtin.find callee.name arguments.length with
    | .error _ => note .missing
    | .ok builtin => do
      let found ← surveyAll scope arguments
      match found.mapM IdealValue.value? with
      | some values => consult (builtin.call scope values)
      | none => note .missing

/-- The ideal evaluation of expressions in order. -/
def surveyAll (scope : Scope) : List Expr → Survey ω (List IdealValue)
  | [] => return []
  | expr :: rest => do
    let value ← expr.survey scope
    let values ← surveyAll scope rest
    return value :: values

end

/-- Whether a failure is one of an operator. -/
def RuntimeError.isOfOperator : RuntimeError → Bool
  | .arithmeticOverflow _ | .divisionByZero | .typeMismatch (.binary ..)
  | .typeMismatch (.unary _) => true
  | _ => false

/-! ### Visits and failures -/

/-- What evaluation fails with at a visit. -/
inductive Visit.Raises : Visit → RuntimeError → Prop
  /-- The exact value is out of range. -/
  | overflow {visit : Visit} {operator : Operator} (overflows : visit.Overflows operator) :
    Raises visit (.arithmeticOverflow operator)
  /-- A quotient by zero has no exact value. -/
  | zero (dividend : Int) : Raises (.binary .divide (.int dividend) (.int 0)) .divisionByZero
  /-- The operator does not take the values. -/
  | mismatch {op : BinaryOp} {left right : Value} {first second : IdealValue}
    (one : left.ideal = first) (two : right.ideal = second) (apart : ¬op.Takes first second) :
    Raises (.binary op first second) (.typeMismatch (.binary op left right))
  /-- The value has no sign. -/
  | unsigned {operand : Value} {only : IdealValue} (one : operand.ideal = only)
    (other : ∀ number, only ≠ .int number) :
    Raises (.negation only) (.typeMismatch (.unary operand))
  /-- There is no value, and no operator is to blame. -/
  | missing {error : RuntimeError} (other : error.isOfOperator = false) : Raises .missing error

/-- A visit has a value in range, and so are the values that an operator is between. -/
structure Visit.Fine (visit : Visit) : Prop where
  /-- There is a value in range. -/
  succeeds : visit.fails = false
  /-- No value is out of range. -/
  inside : ∀ value ∈ visit.values, value.isOutside = false

/-- No value is out of range. -/
theorem Value.isOutside_ideal (value : Value) : value.ideal.isOutside = false := by
  cases value with
  | int number =>
    rw [ideal, IdealValue.isOutside, decide_eq_true (Integer.inRange number), Bool.not_true]
  | _ => rfl

/-- A value is its ideal one. -/
theorem Value.value?_ideal (value : Value) : value.ideal.value? = some value := by
  cases value with
  | int number => rw [ideal, IdealValue.value?, Integer.fit?_eq_some_iff.mpr rfl, Option.map_some]
  | _ => rfl

/-! ### Operators -/

/-- What is computed at a visit is its exact value, or fails for its reason. -/
def Visit.Agrees (visit : Visit) : Except RuntimeError Value → Prop
  | .ok value => visit.result? = some value.ideal
  | .error error => visit.Raises error

/-- An exact integer agrees with the visit that it is the exact value of. -/
theorem Visit.agrees_exactInt {visit : Visit} {operator : Operator} {result : Int}
    (exact : visit.result? = some (.int result))
    (overflows : (IdealValue.int result).isOutside = true → visit.Overflows operator) :
    visit.Agrees (exactInt operator result) := by
  unfold exactInt
  split
  · rename_i word found
    have same : word.toInt = result := Integer.fit?_eq_some_iff.mp found
    rw [Visit.Agrees, exact, Value.ideal, same]
  · rename_i absent
    refine .overflow (overflows ?_)
    unfold Integer.fit? at absent
    split at absent
    · cases absent
    · rename_i outside
      rw [IdealValue.isOutside, decide_eq_false outside, Bool.not_false]

/-- An operator between two values agrees with the exact one. -/
theorem BinaryOp.apply_agrees (op : BinaryOp) (left right : Value) :
    (Visit.binary op left.ideal right.ideal).Agrees (op.apply left right) := by
  unfold BinaryOp.apply
  split
  · exact Visit.agrees_exactInt rfl (.binary rfl)
  · exact Visit.agrees_exactInt rfl (.binary rfl)
  · exact Visit.agrees_exactInt rfl (.binary rfl)
  · rename_i a b
    split
    · rename_i zero
      subst zero
      exact .zero a.toInt
    · rename_i nonzero
      have divisor : b.toInt ≠ 0 := fun zero => nonzero (Int64.toInt_inj.mp zero)
      exact Visit.agrees_exactInt (if_neg divisor) (.binary (if_neg divisor))
  · simp only [Visit.Agrees, Visit.result?, Value.ideal, ideal?, Int64.toInt_inj]
    rfl
  · rename_i a b
    cases a <;> cases b <;> rfl
  · refine .mismatch rfl rfl ?_
    cases left <;> cases right <;> simp_all [Value.ideal, Takes]
    cases op <;> simp_all

/-- A sign before a value agrees with the exact one. -/
theorem Value.negate_agrees (operand : Value) :
    (Visit.negation operand.ideal).Agrees operand.negate := by
  cases operand with
  | int number => exact Visit.agrees_exactInt rfl .negation
  | _ => exact .unsigned rfl fun _ => nofun

/-! ### Names and calls -/

/-- A computation never fails as an operator does. -/
def Eval.SparesOperators {ω α : Type} (computation : Eval ω α) : Prop :=
  ∀ world error, (computation world).1 = .error error → error.isOfOperator = false

namespace Eval.SparesOperators

variable {ω α β : Type}

/-- A result that is given is no failure. -/
theorem pure (value : α) : SparesOperators (Pure.pure value : Eval ω α) := by
  intro world error failed
  cases failed

/-- A failure of another kind is none of an operator. -/
theorem throw {error : RuntimeError} (other : error.isOfOperator = false) :
    SparesOperators (MonadExcept.throw error : Eval ω α) := by
  intro world found failed
  cases failed
  exact other

/-- Queries do not fail. -/
theorem ask [World ω] (query : Query) :
    SparesOperators (Waggle.ask query : Eval ω query.Answer) := by
  intro world error failed
  cases failed

/-- A sequence fails as one of its parts does. -/
theorem bind {first : Eval ω α} {next : α → Eval ω β} (spares : SparesOperators first)
    (onward : ∀ value, SparesOperators (next value)) : SparesOperators (first >>= next) := by
  intro world error failed
  rw [bind_apply] at failed
  split at failed
  · exact onward _ _ _ failed
  · rename_i stopped
    cases failed
    exact spares world error (congrArg Prod.fst stopped)

end Eval.SparesOperators

namespace Scope

variable (scope : Scope)

/-- Finding a name does not fail. -/
theorem find?_sparesOperators (name : String) :
    (scope.find? name : Eval ω (Option Value)).SparesOperators := by
  unfold find?
  split
  · exact .pure _
  · exact .bind (.ask _) fun _ => .pure _

/-- A name without a value is no operator's fault. -/
theorem lookup_sparesOperators (name : String) :
    (scope.lookup name : Eval ω Value).SparesOperators := by
  refine .bind (scope.find?_sparesOperators name) fun found => ?_
  split
  · exact .pure _
  · exact .throw rfl

/-- A missing actor is no operator's fault. -/
theorem actorEntity_sparesOperators :
    (scope.actorEntity : Eval ω EntityRef).SparesOperators := by
  refine .bind (scope.find?_sparesOperators scope.actor) fun found => ?_
  split
  · rename_i value
    unfold Value.expectEntity
    split
    · exact .pure _
    · exact .throw rfl
  · exact .throw rfl

/-- What a function does not take is no operator's fault. -/
theorem call_sparesOperators (builtin : Builtin) (values : List Value) :
    (builtin.call scope values : Eval ω Value).SparesOperators := by
  unfold Builtin.call
  split
  · exact .bind scope.actorEntity_sparesOperators fun _ => .bind (.ask _) fun _ => .pure _
  · exact .throw rfl
  · exact .bind (.ask _) fun _ => .pure _
  · exact .bind (.ask _) fun _ => .pure _
  · exact .throw rfl

end Scope

/-- A function that is not found is no operator's fault. -/
theorem Builtin.isOfOperator_of_find {name : String} {count : Nat} {error : RuntimeError}
    (failed : Builtin.find name count = .error error) : error.isOfOperator = false := by
  unfold Builtin.find at failed
  split at failed
  · cases failed
    rfl
  · split at failed
    · cases failed
    · cases failed
      rfl

/-! ### Evaluation -/

/-- Evaluation goes the way of an ideal computation: it comes to the same value, past nothing but
visits that are fine, or it fails at the first visit that is not. -/
def Follows {ω α β : Type} (ideal : α → β) (computation : Eval ω α) (survey : Survey ω β) : Prop :=
  ∀ world,
    match computation world with
    | (.ok result, after) =>
      ∃ visits, survey.run world = (visits, some (ideal result), after) ∧
        ∀ visit ∈ visits, visit.Fine
    | (.error error, _) =>
      ∃ early visit late, (survey.run world).1 = early ++ visit :: late ∧
        (∀ visit ∈ early, visit.Fine) ∧ visit.Raises error

namespace Follows

variable {ω α β γ δ : Type} {ideal : α → β} {ideal' : γ → δ}

/-- A result that is given visits nothing. -/
theorem pure (value : α) :
    Follows ideal (Pure.pure value : Eval ω α) (Pure.pure (ideal value)) :=
  fun _ => ⟨[], rfl, List.forall_mem_nil _⟩

/-- A sequence goes the way of its parts. -/
theorem bind {first : Eval ω α} {survey : Survey ω β} {next : α → Eval ω γ}
    {onward : β → Survey ω δ} (head : Follows ideal first survey)
    (tail : ∀ value, Follows ideal' (next value) (onward (ideal value))) :
    Follows ideal' (first >>= next) (survey >>= onward) := by
  intro world
  have begun := head world
  rw [Eval.bind_apply]
  rcases ran : first world with ⟨error | value, between⟩
  · rw [ran] at begun
    obtain ⟨early, visit, late, noted, fine, raises⟩ := begun
    -- The ideal computation may go on after the visit, which adds to what comes late.
    rcases surveyed : survey.run world with ⟨visits, _ | found, after⟩
    · rw [surveyed] at noted
      have stopped := congrArg Prod.fst (bind_of_none onward surveyed)
      exact ⟨early, visit, late, stopped.trans noted, fine, raises⟩
    · rw [surveyed] at noted
      refine ⟨early, visit, late ++ ((onward found).run after).1, ?_, fine, raises⟩
      rw [bind_of_some onward surveyed, show visits = early ++ visit :: late from noted,
        List.append_assoc, List.cons_append]
  · rw [ran] at begun
    obtain ⟨visits, noted, fine⟩ := begun
    have ended := tail value between
    dsimp only
    rcases ran' : next value between with ⟨error | result, after⟩
    · rw [ran'] at ended
      obtain ⟨early, visit, late, more, fine', raises⟩ := ended
      refine ⟨visits ++ early, visit, late, ?_, List.forall_mem_append.mpr ⟨fine, fine'⟩, raises⟩
      rw [bind_of_some onward noted, more, List.append_assoc]
    · rw [ran'] at ended
      obtain ⟨more, noted', fine'⟩ := ended
      refine ⟨visits ++ more, ?_, List.forall_mem_append.mpr ⟨fine, fine'⟩⟩
      rw [bind_of_some onward noted, noted']

/-- A computation that needs no world goes the way of a visit that it agrees with. -/
theorem note {result : Except RuntimeError Value} {visit : Visit}
    (operands : ∀ value ∈ visit.operands, value.isOutside = false)
    (agrees : visit.Agrees result) :
    Follows Value.ideal (Eval.ofExcept result : Eval ω Value) (Survey.note visit) := by
  intro world
  cases result with
  | ok value =>
    have found : visit.result? = some value.ideal := agrees
    refine ⟨[visit], by rw [Survey.note, found], List.forall_mem_singleton.mpr ⟨?_, ?_⟩⟩
    · rw [Visit.fails, found]
      exact value.isOutside_ideal
    · rw [Visit.values, found]
      have inside := value.isOutside_ideal
      exact List.forall_mem_append.mpr ⟨operands, List.forall_mem_singleton.mpr inside⟩
  | error error => exact ⟨[], visit, [], rfl, List.forall_mem_nil _, agrees⟩

/-- What the world and the bindings have a value for is found, and no operator is to blame for what
they have none for. -/
theorem consult {computation : Eval ω Value} (spares : computation.SparesOperators) :
    Follows Value.ideal computation (Survey.consult computation) := by
  intro world
  have consulted : (Survey.consult computation).run world =
      match computation world with
      | (.ok value, after) => ([.found value.ideal], some value.ideal, after)
      | (.error _, after) => ([.missing], none, after) := rfl
  rw [consulted]
  rcases ran : computation world with ⟨error | value, after⟩
  · have other := spares world error (congrArg Prod.fst ran)
    exact ⟨[], .missing, [], rfl, List.forall_mem_nil _, .missing other⟩
  · have fine : (Visit.found value.ideal).Fine :=
      ⟨value.isOutside_ideal, List.forall_mem_singleton.mpr value.isOutside_ideal⟩
    exact ⟨[.found value.ideal], rfl, List.forall_mem_singleton.mpr fine⟩

end Follows

mutual

/-- Evaluation goes the way of the ideal evaluation. -/
theorem Expr.eval_follows (scope : Scope) (expr : Expr) :
    Follows Value.ideal (expr.eval scope : Eval ω Value) (expr.survey scope) := by
  match expr with
  | .literal value _ =>
    simp only [Expr.eval, Expr.survey]
    have agrees : (Visit.found value.ideal).Agrees (.ok value) := rfl
    exact Follows.note (List.forall_mem_nil _) agrees
  | .reference name _ =>
    simp only [Expr.eval, Expr.survey]
    exact Follows.consult (scope.lookup_sparesOperators name)
  | .binary op left right _ =>
    simp only [Expr.eval, Expr.survey]
    refine (left.eval_follows scope).bind fun first => ?_
    refine (right.eval_follows scope).bind fun second => ?_
    refine Follows.note ?_ (op.apply_agrees first second)
    simp only [Visit.operands, List.forall_mem_cons]
    exact ⟨first.isOutside_ideal, second.isOutside_ideal, List.forall_mem_nil _⟩
  | .negate operand _ =>
    simp only [Expr.eval, Expr.survey]
    refine (operand.eval_follows scope).bind fun value => ?_
    exact Follows.note (List.forall_mem_singleton.mpr value.isOutside_ideal) value.negate_agrees
  | .call callee arguments _ =>
    simp only [Expr.eval, Expr.survey]
    rcases found : Builtin.find callee.name arguments.length with error | builtin
    · have other := Builtin.isOfOperator_of_find found
      exact fun world => ⟨[], .missing, [], rfl, List.forall_mem_nil _, .missing other⟩
    · refine (evalAll_follows scope arguments).bind fun values => ?_
      have same : (values.map Value.ideal).mapM IdealValue.value? = some values := by
        induction values with
        | nil => rfl
        | cons value values ih => simp [ih, Value.value?_ideal]
      rw [same]
      exact Follows.consult (scope.call_sparesOperators builtin values)

/-- Expressions in order go the way of their ideal evaluations. -/
theorem evalAll_follows (scope : Scope) (exprs : List Expr) :
    Follows (List.map Value.ideal) (evalAll scope exprs : Eval ω (List Value))
      (surveyAll scope exprs) := by
  match exprs with
  | [] =>
    simp only [evalAll, surveyAll]
    exact Follows.pure []
  | expr :: rest =>
    simp only [evalAll, surveyAll]
    exact (expr.eval_follows scope).bind fun value =>
      (evalAll_follows scope rest).bind fun values => Follows.pure (value :: values)

end

/-! ### The first failure -/

/-- Values that an operator does not take have no exact value between them. -/
theorem BinaryOp.ideal?_eq_none {op : BinaryOp} {left right : IdealValue}
    (apart : ¬op.Takes left right) : op.ideal? left right = none := by
  unfold ideal?
  split <;> simp_all [Takes]

namespace Visit

variable {visit : Visit}

/-- Where an exact value is out of range, there is no other reason to fail. -/
theorem Overflows.unique {one two : Operator} (first : visit.Overflows one)
    (second : visit.Overflows two) : one = two := by
  cases first <;> cases second <;> rfl

/-- What overflows has an exact value. -/
theorem Overflows.exists_result {operator : Operator} (overflows : visit.Overflows operator) :
    ∃ result, visit.result? = some result ∧ result.isOutside = true := by
  cases overflows with
  | binary exact outside => exact ⟨_, exact, outside⟩
  | negation outside => exact ⟨_, rfl, outside⟩

namespace Raises

variable {error : RuntimeError} (raises : visit.Raises error)
include raises

/-- Where evaluation fails, an exact value is out of range or there is none. -/
theorem overflow_or_none :
    (∃ operator, error = .arithmeticOverflow operator ∧ visit.Overflows operator) ∨
      visit.result? = none := by
  cases raises with
  | overflow overflows => exact .inl ⟨_, rfl, overflows⟩
  | zero dividend => exact .inr rfl
  | mismatch one two apart => exact .inr (BinaryOp.ideal?_eq_none apart)
  | @unsigned operand only one other =>
    cases only with
    | int number => exact absurd rfl (other number)
    | _ => exact .inr rfl
  | missing other => exact .inr rfl

/-- A visit where evaluation fails has no value in range. -/
theorem fails : visit.fails = true := by
  rcases raises.overflow_or_none with ⟨operator, -, overflows⟩ | none
  · obtain ⟨result, exact, outside⟩ := overflows.exists_result
    rwa [Visit.fails, exact]
  · rw [Visit.fails, none]

/-- Evaluation overflows where an exact value is out of range. -/
theorem overflow_iff {operator : Operator} :
    error = .arithmeticOverflow operator ↔ visit.Overflows operator := by
  constructor
  · rintro rfl
    cases raises with
    | overflow overflows => exact overflows
    | missing other => cases other
  · intro overflows
    rcases raises.overflow_or_none with ⟨other, rfl, alike⟩ | none
    · rw [alike.unique overflows]
    · obtain ⟨result, exact, -⟩ := overflows.exists_result
      cases exact.symm.trans none

/-- Evaluation divides by zero where the exact quotient is one by zero. -/
theorem zero_iff :
    error = .divisionByZero ↔
      ∃ dividend, visit = .binary .divide (.int dividend) (.int 0) := by
  constructor
  · rintro rfl
    cases raises with
    | zero dividend => exact ⟨dividend, rfl⟩
    | missing other => cases other
  · rintro ⟨dividend, rfl⟩
    cases raises with
    | overflow overflows =>
      obtain ⟨result, exact, -⟩ := overflows.exists_result
      cases exact
    | zero _ => rfl
    | mismatch one two apart => exact absurd trivial apart

/-- Evaluation finds a mismatch between values that the operator does not take. -/
theorem mismatch_iff {op : BinaryOp} {one two : IdealValue} :
    (∃ left right, error = .typeMismatch (.binary op left right) ∧
      left.ideal = one ∧ right.ideal = two) ↔
      visit = .binary op one two ∧ ¬op.Takes one two := by
  constructor
  · rintro ⟨left, right, rfl, rfl, rfl⟩
    cases raises with
    | mismatch same same' apart =>
      rw [same, same']
      exact ⟨rfl, apart⟩
    | missing other => cases other
  · rintro ⟨rfl, apart⟩
    cases raises with
    | overflow overflows =>
      cases overflows
      exact absurd trivial apart
    | zero dividend => exact absurd trivial apart
    | mismatch same same' _ => exact ⟨_, _, rfl, same, same'⟩

/-- Evaluation finds a mismatch behind a sign where there is no integer. -/
theorem unsigned_iff {only : IdealValue} :
    (∃ operand, error = .typeMismatch (.unary operand) ∧ operand.ideal = only) ↔
      visit = .negation only ∧ ∀ number, only ≠ .int number := by
  constructor
  · rintro ⟨operand, rfl, rfl⟩
    cases raises with
    | unsigned same other =>
      rw [same]
      exact ⟨rfl, other⟩
    | missing other => cases other
  · rintro ⟨rfl, other⟩
    cases raises with
    | overflow overflows =>
      cases overflows
      exact absurd rfl (other _)
    | unsigned same _ => exact ⟨_, rfl, same⟩

/-- Evaluation fails for another reason where a name or a call has no value. -/
theorem missing_iff : error.isOfOperator = false ↔ visit = .missing := by
  cases raises with
  | missing other => exact iff_of_true other rfl
  | overflow overflows =>
    refine iff_of_false nofun ?_
    rintro rfl
    cases overflows
  | _ => exact iff_of_false nofun nofun

end Raises

end Visit

/-- The first visit without a value in range is the one where evaluation fails, if it does. -/
theorem Expr.find?_survey (scope : Scope) (expr : Expr) (world : ω) :
    match ((expr.eval scope : Eval ω Value) world).1 with
    | .ok value => ((expr.survey scope).run world).1.find? Visit.fails = none ∧
      ((expr.survey scope).run world).2.1 = some value.ideal ∧
      ∀ visit ∈ ((expr.survey scope).run world).1, visit.Fine
    | .error error => ∃ visit,
      ((expr.survey scope).run world).1.find? Visit.fails = some visit ∧ visit.Raises error := by
  have follows := expr.eval_follows scope world
  rcases ran : (expr.eval scope : Eval ω Value) world with ⟨error | value, after⟩
  · rw [ran] at follows
    obtain ⟨early, visit, late, noted, fine, raises⟩ := follows
    refine ⟨visit, ?_, raises⟩
    rw [noted, List.find?_append, List.find?_eq_none.mpr, Option.none_or,
      List.find?_cons_of_pos raises.fails]
    exact fun other member => Bool.eq_false_iff.mp (fine other member).succeeds
  · rw [ran] at follows
    obtain ⟨visits, noted, fine⟩ := follows
    rw [noted]
    refine ⟨List.find?_eq_none.mpr fun visit member => ?_, rfl, fine⟩
    exact Bool.eq_false_iff.mp (fine visit member).succeeds

/-- Evaluation comes to a value exactly if nothing fails on the way of the ideal evaluation. It is
the ideal value then, and no integer on the way is out of range. Otherwise it fails for what is
wrong first: an exact value that is out of range, a quotient by zero, values that the operator does
not take, or a name or a call without a value. -/
theorem Expr.eval_exact (scope : Scope) (expr : Expr) (world : ω) :
    let result := ((expr.eval scope : Eval ω Value) world).1
    let visits := ((expr.survey scope).run world).1
    let first := visits.find? Visit.fails
    (∀ value, result = .ok value →
      ((expr.survey scope).run world).2.1 = some value.ideal ∧
        ∀ visit ∈ visits, ∀ met ∈ visit.values, met.isOutside = false) ∧
    ((∃ value, result = .ok value) ↔ first = none) ∧
    (∀ operator, result = .error (.arithmeticOverflow operator) ↔
      ∃ visit, first = some visit ∧ visit.Overflows operator) ∧
    (result = .error .divisionByZero ↔
      ∃ dividend, first = some (.binary .divide (.int dividend) (.int 0))) ∧
    (∀ op one two,
      (∃ left right, result = .error (.typeMismatch (.binary op left right)) ∧
        left.ideal = one ∧ right.ideal = two) ↔
      first = some (.binary op one two) ∧ ¬op.Takes one two) ∧
    (∀ only,
      (∃ operand, result = .error (.typeMismatch (.unary operand)) ∧ operand.ideal = only) ↔
      first = some (.negation only) ∧ ∀ number, only ≠ .int number) ∧
    ((∃ error, result = .error error ∧ error.isOfOperator = false) ↔
      first = some .missing) := by
  intro result visits first
  have found := expr.find?_survey scope world
  change match result with
    | .ok value => first = none ∧ ((expr.survey scope).run world).2.1 = some value.ideal ∧
      ∀ visit ∈ visits, visit.Fine
    | .error error => ∃ visit, first = some visit ∧ visit.Raises error at found
  rcases result with error | value
  · obtain ⟨visit, failed, raises⟩ := found
    simp only [failed, Except.error.injEq, Option.some.injEq, raises.overflow_iff, raises.zero_iff,
      raises.mismatch_iff, raises.unsigned_iff, exists_eq_left', raises.missing_iff]
    simp
  · obtain ⟨unfailing, same, fine⟩ := found
    have inside : ∀ visit ∈ visits, ∀ met ∈ visit.values, met.isOutside = false :=
      fun visit member => (fine visit member).inside
    simpa [unfailing, same] using inside

/-- A product that is too large fails before the quotient by zero on its right is met. -/
theorem Expr.eval_exact_square :
    let scope : Scope := ⟨.empty, "Player"⟩
    let large := Expr.literal (.int Int64.maxValue) default
    let square := Expr.binary .multiply large large default
    let quotient := Expr.binary .divide large (.literal (.int 0) default) default
    let sum := Expr.binary .add square quotient default
    ((sum.eval scope : Eval Grid Value) .empty).1 =
        .error (.arithmeticOverflow (.binary .multiply)) ∧
      ∃ visit, ((sum.survey scope).run Grid.empty).1.find? Visit.fails = some visit ∧
        visit.Overflows (.binary .multiply) := by
  intro scope large square quotient sum
  obtain ⟨-, -, overflow, -⟩ := eval_exact scope sum Grid.empty
  have failed : ((sum.eval scope : Eval Grid Value) .empty).1 =
      .error (.arithmeticOverflow (.binary .multiply)) := rfl
  exact ⟨failed, (overflow _).mp failed⟩

end Waggle
