import Waggle.Proofs.Cancellation
import Waggle.Proofs.Coincidence
import Waggle.Proofs.Termination
import Waggle.World.Grid

/-!
# What a run reads and what it binds

The bindings of a run change only by the assignments that it carries out, one at a time
(`Execution.steps_environment`). If it is put under other bindings in which it finds all names that
it can read alike, it takes the same steps and makes the same assignments
(`Execution.steps_under`). So two runs that agree on what they read at first differ, at any time,
only in names that have not been assigned yet.
-/

namespace Waggle

namespace Environment

/-- Binds names one after the other. -/
def insertAll (environment : Environment) (bindings : List (String × Value)) : Environment :=
  bindings.foldl (fun environment binding => environment.insert binding.1 binding.2) environment

/-- Names are bound in parts. -/
theorem insertAll_append (environment : Environment) (first second : List (String × Value)) :
    environment.insertAll (first ++ second) = (environment.insertAll first).insertAll second :=
  List.foldl_append

/-- A name that is not among those bound keeps what it was bound to. -/
theorem get?_insertAll_of_notMem {bindings : List (String × Value)} {name : String}
    (absent : name ∉ bindings.map Prod.fst) (environment : Environment) :
    (environment.insertAll bindings).get? name = environment.get? name := by
  induction bindings generalizing environment with
  | nil => rfl
  | cons binding rest ih =>
    rw [List.map_cons, List.mem_cons, not_or] at absent
    have first := get?_insert_of_ne environment binding.2 absent.1
    exact (ih absent.2 _).trans first

/-- A name that is among those bound has a value that does not depend on the earlier bindings. -/
theorem get?_insertAll_of_mem {bindings : List (String × Value)} {name : String}
    (present : name ∈ bindings.map Prod.fst) :
    ∃ value, ∀ environment : Environment,
      (environment.insertAll bindings).get? name = some value := by
  induction bindings with
  | nil => cases present
  | cons binding rest ih =>
    by_cases later : name ∈ rest.map Prod.fst
    · obtain ⟨value, bound⟩ := ih later
      exact ⟨value, fun environment => bound _⟩
    · rw [List.map_cons, List.mem_cons] at present
      obtain rfl := present.resolve_right later
      refine ⟨binding.2, fun environment => ?_⟩
      have kept := get?_insertAll_of_notMem later (environment.insert binding.1 binding.2)
      exact kept.trans (get?_insert_self environment binding.1 binding.2)

end Environment

variable {ω : Type}

/-- At the start of a run, what is left is the program. -/
theorem Interpreter.occurrences_start (host : Interpreter ω) (program : Program) :
    occurrencesOfFrames (host.start program).frames = program.occurrences := by
  simp only [start, occurrencesOfFrames, List.flatMap_cons, List.flatMap_nil, List.append_nil,
    Frame.occurrences, Program.occurrences]

variable [World ω]

/-- The binding that is made by what a step comes upon, if it is an assignment. -/
def Focus.binding? (scope : Scope) : Focus → Eval ω (Option (String × Value))
  | .statement (.assign name value _) _ => do
    let result ← value.eval scope
    return some (name.name, result)
  | _ => return none

namespace Execution

/-- The binding that the next step makes: it carries out an assignment, and pauses after it. -/
def binding? (run : Execution ω) : Option (String × Value) :=
  let looked := focus run.host.scope run.frames >>= Focus.binding? run.host.scope
  match run.step.1, (looked run.host.world).1 with
  | .suspended _, .ok binding => binding
  | _, _ => none

/-- The bindings that a number of steps make, in order. -/
def bindings : Nat → Execution ω → List (String × Value)
  | 0, _ => []
  | count + 1, run => run.binding?.toList ++ bindings count run.step.2

/-- The names that were assigned within a number of steps. -/
def assigned (count : Nat) (run : Execution ω) : List String := (run.bindings count).map Prod.fst

/-- A step that ends the run makes no binding. -/
theorem binding?_of_finished {run : Execution ω} {outcome : RunOutcome}
    (ended : run.step.1 = .finished outcome) : run.binding? = none := by
  unfold binding?
  rw [ended]

end Execution

/-- A statement that binds a name is an assignment. -/
theorem Stmt.exists_assign_of_binds {stmt : Stmt} (binds : stmt.binds = true) :
    ∃ name value span, stmt = .assign name value span := by
  cases stmt with
  | assign name value span => exact ⟨name, value, span, rfl⟩
  | _ => cases binds

section Binding

variable (scope : Scope)

/-- A statement that is no assignment makes no binding. -/
theorem Focus.binding?_of_bindless {stmt : Stmt} (bindless : stmt.binds = false)
    (frames : List Frame) :
    (Focus.statement stmt frames).binding? scope = (Pure.pure none : Eval ω _) := by
  cases stmt with
  | assign => cases bindless
  | _ => rfl

/-- A statement that is no assignment leaves the bindings as they are. -/
theorem Stmt.execute_bindless {stmt : Stmt} (bindless : stmt.binds = false)
    (frames : List Frame) :
    (stmt.execute scope frames : Eval ω Progress).Ensures fun progress =>
      progress.environment = scope.environment := by
  rcases acts : stmt.acts with _ | _
  · exact execute_environment scope frames acts bindless
  · rw [execute_acts scope frames acts]
    refine .bind_of (deed_acts scope acts) ?_
    rintro deed ⟨effect, rfl, -⟩
    have performed : ((Deed.effect effect).perform scope.environment : Eval ω Environment).Ensures
        fun environment => environment = scope.environment := .bind fun _ => .pure rfl
    exact .bind_of performed fun environment same => .pure same

/-- What a step comes upon leaves the bindings with the binding that it makes. -/
theorem Focus.follow_environment {focused : Focus} {upon after : ω} {progress : Progress}
    (followed : focused.follow scope upon = (.ok (some progress), after)) :
    ∃ binding, (focused.binding? scope upon).1 = .ok binding ∧
      progress.environment = scope.environment.insertAll binding.toList := by
  cases focused with
  | finished => cases followed
  | iteration span number frames =>
    cases followed
    exact ⟨none, rfl, rfl⟩
  | statement stmt frames =>
    rw [Focus.follow, Eval.map_apply] at followed
    rcases executed : stmt.execute scope frames upon with ⟨error | left, world⟩
    · rw [executed] at followed
      cases followed
    · rw [executed] at followed
      cases followed
      rcases binds : stmt.binds with _ | _
      · have kept := Stmt.execute_bindless scope binds frames upon _ _ executed
        rw [Focus.binding?_of_bindless scope binds]
        exact ⟨none, rfl, kept⟩
      · obtain ⟨name, value, span, rfl⟩ := Stmt.exists_assign_of_binds binds
        rw [Stmt.execute_assign, Eval.bind_apply] at executed
        rw [Focus.binding?, Eval.bind_apply]
        rcases evaluated : value.eval scope upon with ⟨error | result, asked⟩
        · rw [evaluated] at executed
          cases executed
        · rw [evaluated] at executed
          cases executed
          exact ⟨some (name.name, result), rfl, rfl⟩

/-- A step leaves the bindings with the binding that it makes. -/
theorem advance_environment {frames : List Frame} {world after : ω} {progress : Progress}
    (advanced : advance scope frames world = (.ok (some progress), after)) :
    ∃ binding, ((focus scope frames >>= Focus.binding? scope) world).1 = .ok binding ∧
      progress.environment = scope.environment.insertAll binding.toList := by
  rw [advance_eq_focus, Eval.bind_apply] at advanced
  rw [Eval.bind_apply]
  rcases found : focus scope frames world with ⟨error | focused, upon⟩
  · rw [found] at advanced
    cases advanced
  · rw [found] at advanced
    exact Focus.follow_environment scope advanced

end Binding

/-- What a step comes upon binds a name that is a target in it. -/
theorem Focus.binding?_target (scope : Scope) (focused : Focus) :
    (focused.binding? scope : Eval ω (Option (String × Value))).Ensures fun found =>
      ∀ binding, found = some binding → .target binding.1 ∈ focused.occurrences := by
  unfold Focus.binding?
  split
  · refine .bind fun result => .pure ?_
    rintro binding ⟨⟩
    exact List.mem_append_left _ List.mem_cons_self
  · exact .pure fun binding absurd => nomatch absurd

section Coincidence

variable {property : ω → Prop} (lasting : Lasting property) {left right : Scope}

include lasting

/-- What a step comes upon makes the same binding in scopes that are alike for it. -/
theorem Focus.binding?_alike (focused : Focus)
    (scopes : Scope.Alike property focused.occurrences left right) :
    Alike property (focused.binding? left) (focused.binding? right) := by
  unfold Focus.binding?
  split
  · rename_i name value span frames
    have inValue := (scopes.mono (List.subset_append_left _ _)).mono (List.subset_cons_self _ _)
    exact (value.eval_alike lasting inValue).bind fun _ => .pure _
  · exact .pure _

/-- Scopes that are alike stay so when names are bound to the same values in both. -/
theorem Scope.Alike.insertAll {occurrences : List Occurrence}
    (scopes : Scope.Alike property occurrences left right) (bindings : List (String × Value)) :
    Scope.Alike property occurrences ⟨left.environment.insertAll bindings, left.actor⟩
      ⟨right.environment.insertAll bindings, right.actor⟩ := by
  induction bindings generalizing left right with
  | nil => exact scopes
  | cons binding rest ih => exact ih (scopes.insert lasting binding.1 binding.2)

end Coincidence

namespace Execution

/-- The bindings after a step are those before it with the one that it makes. -/
theorem step_environment (run : Execution ω) :
    run.step.2.host.environment = run.host.environment.insertAll run.binding?.toList := by
  obtain ⟨outcome, told⟩ | ⟨world, outcome, ended, -⟩ | ⟨progress, world, advanced, paused⟩ :=
    run.step_inversion
  · rw [binding?_of_finished (congrArg Prod.fst told), told]
    rfl
  · rw [binding?_of_finished (congrArg Prod.fst ended), ended]
    exact Interpreter.conclude_environment _ _
  · obtain ⟨binding, looked, left⟩ := advance_environment run.host.scope advanced
    have made : run.binding? = binding := by
      simp only [binding?, paused, looked]
    rw [paused, made]
    exact left

/-- The bindings after some steps are those before them with the ones that the steps make. -/
theorem steps_environment (run : Execution ω) (count : Nat) :
    (run.steps count).2.host.environment =
      run.host.environment.insertAll (run.bindings count) := by
  induction count generalizing run with
  | zero => rfl
  | succ count ih =>
    change (run.step.2.steps count).2.host.environment = _
    rw [ih, step_environment, bindings, Environment.insertAll_append]

/-- A run that has finished makes no more bindings. -/
theorem bindings_of_finished {run : Execution ω} {outcome : RunOutcome}
    (finished : run.outcome = some outcome) (count : Nat) : run.bindings count = [] := by
  have told := step_of_finished finished
  induction count with
  | zero => rfl
  | succ count ih =>
    rw [bindings, binding?_of_finished (congrArg Prod.fst told), told]
    exact ih

/-- Steps after steps make the bindings of the run that the first ones leave. -/
theorem bindings_add (run : Execution ω) (first second : Nat) :
    run.bindings (first + second) =
      run.bindings first ++ (run.steps first).2.bindings second := by
  induction first generalizing run with
  | zero =>
    rw [Nat.zero_add]
    rfl
  | succ first ih =>
    rw [Nat.succ_add, bindings, bindings, ih, List.append_assoc]
    rfl

/-- All that a run ever assigns has been assigned when it has finished. -/
theorem assigned_of_finished {run : Execution ω} {outcome : RunOutcome} {count other : Nat}
    {name : String} (finished : (run.steps count).2.outcome = some outcome)
    (member : name ∈ run.assigned other) : name ∈ run.assigned count := by
  unfold assigned at member ⊢
  rcases Nat.le_total other count with before | after
  · obtain ⟨more, rfl⟩ := Nat.exists_eq_add_of_le before
    rw [bindings_add, List.map_append]
    exact List.mem_append_left _ member
  · obtain ⟨more, rfl⟩ := Nat.exists_eq_add_of_le after
    rw [bindings_add, bindings_of_finished finished, List.append_nil] at member
    exact member

/-- A step leaves parts of what was left. -/
theorem step_occurrences (run : Execution ω) :
    occurrencesOfFrames run.step.2.frames ⊆ occurrencesOfFrames run.frames := by
  obtain ⟨outcome, told⟩ | ⟨world, outcome, ended, -⟩ | ⟨progress, world, advanced, paused⟩ :=
    run.step_inversion
  · rw [told]
    exact List.Subset.refl _
  · rw [ended]
    exact List.nil_subset _
  · rw [paused]
    exact advance_occurrences run.host.scope run.frames _ _ _ advanced progress rfl

/-- A step binds a name that is a target in what was left of the run. -/
theorem binding?_target {run : Execution ω} {binding : String × Value}
    (made : run.binding? = some binding) :
    .target binding.1 ∈ occurrencesOfFrames run.frames := by
  have ensured : (focus run.host.scope run.frames >>= Focus.binding? run.host.scope :
      Eval ω (Option (String × Value))).Ensures fun found => ∀ binding, found = some binding →
        .target binding.1 ∈ occurrencesOfFrames run.frames := by
    refine .bind_of (focus_occurrences _ _) fun focused part => ?_
    intro world found after looked binding same
    exact part (focused.binding?_target run.host.scope world found after looked binding same)
  simp only [binding?] at made
  split at made
  · rename_i looked
    exact ensured _ _ _ (Prod.ext looked rfl) binding made
  · cases made

/-- Some steps bind only names that are targets in what was left of the run. -/
theorem assigned_target {run : Execution ω} {count : Nat} {name : String}
    (member : name ∈ run.assigned count) : .target name ∈ occurrencesOfFrames run.frames := by
  obtain ⟨binding, made, rfl⟩ := List.mem_map.mp member
  clear member
  induction count generalizing run with
  | zero => cases made
  | succ count ih =>
    rcases List.mem_append.mp made with now | later
    · exact binding?_target (Option.mem_toList.mp now)
    · exact run.step_occurrences (ih later)

/-- A step leaves the settings as they are. -/
theorem step_config (run : Execution ω) : run.step.2.host.config = run.host.config := by
  obtain ⟨outcome, told⟩ | ⟨world, outcome, ended, -⟩ | ⟨progress, world, advanced, paused⟩ :=
    run.step_inversion
  · rw [told]
  · rw [ended]
    exact Interpreter.conclude_config _ _
  · rw [paused]

/-- After a step, names mean what they meant before it but for the binding that it makes. -/
theorem step_scope (run : Execution ω) :
    run.step.2.host.scope =
      ⟨run.host.environment.insertAll run.binding?.toList, run.host.config.actorBinding⟩ := by
  unfold Interpreter.scope
  rw [step_environment, step_config]

section Lasting

variable {property : ω → Prop} (lasting : Lasting property) {run : Execution ω}

include lasting

/-- A step keeps a property of the world that lasts. -/
theorem step_keeps (holds : property run.host.world) : property run.step.2.host.world := by
  have kept := (advance_alike lasting run.frames
    (Scope.Alike.refl lasting run.host.scope)).kept run.host.world holds
  rw [Eval.map_snd] at kept
  obtain ⟨outcome, told⟩ | ⟨world, outcome, ended, left⟩ | ⟨progress, world, advanced, paused⟩ :=
    run.step_inversion
  · rw [told]
    exact holds
  · rw [ended]
    change property (Interpreter.conclude _ outcome).world
    rw [Interpreter.conclude_world]
    rcases left with rfl | rfl
    · exact holds
    · exact kept
  · rw [advanced] at kept
    rw [paused]
    exact kept

/-- A run keeps a property of the world that lasts. -/
theorem steps_keep (holds : property run.host.world) (count : Nat) :
    property (run.steps count).2.host.world := by
  induction count generalizing run with
  | zero => exact holds
  | succ count ih => exact ih (step_keeps lasting holds)

end Lasting

/-- Runs whose steps tell the same pause at the same points, and end with the same outcome after
the same number of steps. -/
theorem runToEnd_of_same_steps {one two : Execution ω}
    (same : ∀ count, (one.steps count).1 = (two.steps count).1) :
    one.points = two.points ∧
      ∃ count outcome, (one.steps count).2.outcome = some outcome ∧
        one.runToEnd = (outcome, (one.steps count).2.host) ∧
        two.runToEnd = (outcome, (two.steps count).2.host) := by
  obtain ⟨points, outcome, -, taken⟩ := one.steps_finish
  have alsoTaken := (same _).symm.trans taken
  constructor
  · unfold Execution.points
    rw [drive_of_steps _ _ taken, drive_of_steps _ _ alsoTaken]
  · refine ⟨points.length + 1, outcome, ?_, ?_, ?_⟩
    · apply outcome_of_mem_steps
      rw [taken]
      exact List.mem_append_right _ (List.mem_singleton_self _)
    · unfold runToEnd
      rw [drive_of_steps _ _ taken]
    · unfold runToEnd
      rw [drive_of_steps _ _ alsoTaken]

/-- The same run under other bindings. -/
def under (environment : Environment) (run : Execution ω) : Execution ω :=
  { run with host := { run.host with environment } }

/-- Other bindings under which a run finds alike all that it can read, in the present world and in
all that have a property with it. -/
structure Admits (property : ω → Prop) (other : Environment) (run : Execution ω) : Prop where
  /-- All that the run can read is found alike. -/
  scopes : Scope.Alike property (occurrencesOfFrames run.frames) run.host.scope
    ⟨other, run.host.config.actorBinding⟩
  /-- The present world has the property. -/
  world : property run.host.world

section Under

variable {property : ω → Prop} (lasting : Lasting property) {run : Execution ω}
  {other : Environment}

include lasting

/-- Under other bindings that a run admits, a step tells the same, and leaves the same but for the
bindings. -/
theorem step_course (admits : run.Admits property other) :
    (run.under other).step.1 = run.step.1 ∧
      ∃ environment, (run.under other).step.2 = run.step.2.under environment := by
  rcases known : run.outcome with _ | outcome
  · have unfinished : (run.under other).outcome = none := known
    rcases requested : run.host.cancelRequested with _ | _
    · obtain ⟨environment, replaced⟩ :=
        advance_alike_cases lasting admits.scopes admits.world
      rcases advanced : advance run.host.scope run.frames run.host.world with
        ⟨error | _ | progress, world⟩
      · rw [advanced] at replaced
        rw [step_of_error known requested advanced, step_of_error unfinished requested replaced]
        exact ⟨rfl, other, rfl⟩
      · rw [advanced] at replaced
        rw [step_of_none known requested advanced, step_of_none unfinished requested replaced]
        exact ⟨rfl, other, rfl⟩
      · rw [advanced] at replaced
        rw [step_of_some known requested advanced, step_of_some unfinished requested replaced]
        exact ⟨rfl, environment, rfl⟩
    · rw [step_of_cancelled known requested, step_of_cancelled unfinished requested]
      exact ⟨rfl, other, rfl⟩
  · have finished : (run.under other).outcome = some outcome := known
    rw [step_of_finished known, step_of_finished finished]
    exact ⟨rfl, other, rfl⟩

/-- Under other bindings that a run admits, a step makes the same binding. -/
theorem binding?_under (admits : run.Admits property other) :
    (run.under other).binding? = run.binding? := by
  have looked : Alike property
      (focus run.host.scope run.frames >>= Focus.binding? run.host.scope)
      (focus (run.under other).host.scope run.frames >>=
        Focus.binding? (run.under other).host.scope) := by
    refine (focus_alike lasting run.frames admits.scopes).bind_of (focus_occurrences _ _) ?_
    intro focused part
    exact focused.binding?_alike lasting (admits.scopes.mono part)
  have same := looked.same run.host.world admits.world
  simp only [binding?, (step_course lasting admits).1, same]
  rfl

/-- Under other bindings that a run admits, a step tells the same and makes the same binding, and
the run goes on to admit the bindings that it leaves. -/
theorem step_under (admits : run.Admits property other) :
    (run.under other).step =
        (run.step.1, run.step.2.under (other.insertAll run.binding?.toList)) ∧
      run.step.2.Admits property (other.insertAll run.binding?.toList) := by
  obtain ⟨told, environment, left⟩ := step_course lasting admits
  have bound := (run.under other).step_environment
  rw [left, binding?_under lasting admits] at bound
  change environment = other.insertAll run.binding?.toList at bound
  subst bound
  constructor
  · exact Prod.ext told left
  · constructor
    · have fewer := admits.scopes.mono run.step_occurrences
      rw [step_scope, step_config]
      exact fewer.insertAll lasting run.binding?.toList
    · exact step_keeps lasting admits.world

/-- Under other bindings that a run admits, it takes the same steps and makes the same bindings. -/
theorem steps_under (admits : run.Admits property other) (count : Nat) :
    (run.under other).steps count =
        ((run.steps count).1, (run.steps count).2.under (other.insertAll (run.bindings count))) ∧
      (run.under other).bindings count = run.bindings count := by
  induction count generalizing run other with
  | zero => exact ⟨rfl, rfl⟩
  | succ count ih =>
    obtain ⟨stepped, later⟩ := step_under lasting admits
    obtain ⟨steps, bindings⟩ := ih later
    constructor
    · simp only [Execution.steps, stepped, steps, Execution.bindings, Environment.insertAll_append]
    · simp only [Execution.bindings, binding?_under lasting admits, stepped, bindings]

/-- Under other bindings that a run admits, the same names are assigned. -/
theorem assigned_under (admits : run.Admits property other) (count : Nat) :
    (run.under other).assigned count = run.assigned count :=
  congrArg (List.map Prod.fst) (steps_under lasting admits count).2

/-- Under other bindings that a run admits, a name has been assigned a value that is the same, or
it has not been assigned and is bound as at first. -/
theorem bindings_under (admits : run.Admits property other) (count : Nat) (name : String) :
    (name ∈ run.assigned count ∧ name ∈ (run.under other).assigned count ∧
      ∃ value, (run.steps count).2.host.environment.get? name = some value ∧
        ((run.under other).steps count).2.host.environment.get? name = some value) ∨
    (name ∉ run.assigned count ∧ name ∉ (run.under other).assigned count ∧
      (run.steps count).2.host.environment.get? name = run.host.environment.get? name ∧
      ((run.under other).steps count).2.host.environment.get? name = other.get? name) := by
  rw [assigned_under lasting admits count, steps_environment, steps_environment,
    (steps_under lasting admits count).2]
  by_cases made : name ∈ run.assigned count
  · obtain ⟨value, bound⟩ := Environment.get?_insertAll_of_mem made
    exact .inl ⟨made, made, value, bound _, bound _⟩
  · have kept := Environment.get?_insertAll_of_notMem made
    exact .inr ⟨made, made, kept _, kept _⟩

/-- Under other bindings that a run admits, it pauses at the same points and ends alike, but for
the bindings. -/
theorem runToEnd_under (admits : run.Admits property other) :
    (run.under other).points = run.points ∧
      ∃ count outcome, (run.steps count).2.outcome = some outcome ∧
        run.runToEnd = (outcome, (run.steps count).2.host) ∧
        (run.under other).runToEnd =
          (outcome, ((run.steps count).2.under (other.insertAll (run.bindings count))).host) := by
  have same count : (run.steps count).1 = ((run.under other).steps count).1 := by
    rw [(steps_under lasting admits count).1]
  obtain ⟨points, count, outcome, finished, first, second⟩ := runToEnd_of_same_steps same
  rw [(steps_under lasting admits count).1] at second
  exact ⟨points.symm, count, outcome, finished, first, second⟩

end Under

end Execution

/-- Two tables bind alike all names that a program can read: its variables and the actor. -/
def Environment.AgreesFor (program : Program) (actor : String) (left right : Environment) : Prop :=
  ∀ name, .reference name ∈ program.occurrences ∨ name = actor → left.get? name = right.get? name

namespace Interpreter

/-- The same interpreter under other bindings. -/
def under (environment : Environment) (host : Interpreter ω) : Interpreter ω :=
  { host with environment }

/-- An interpreter runs a program alike under two tables of bindings. -/
structure RunsAlikeUnder (host : Interpreter ω) (program : Program) (left right : Environment) :
    Prop where
  /-- The runs end with the same outcome. -/
  outcome : ((host.under left).interpret program).1 = ((host.under right).interpret program).1
  /-- The runs pause at the same points. -/
  points : ((host.under left).start program).points = ((host.under right).start program).points
  /-- The runs leave the same world. -/
  world : ((host.under left).interpret program).2.world =
    ((host.under right).interpret program).2.world
  /-- Every step tells the same and leaves the same world. -/
  steps : ∀ count,
    let one := ((host.under left).start program).steps count
    let two := ((host.under right).start program).steps count
    one.1 = two.1 ∧ one.2.host.world = two.2.host.world
  /-- At every step, a name has been assigned in both runs and has the same value in both, or it
  has been assigned in neither and is bound as at first in each. -/
  bindings : ∀ count name,
    let one := (host.under left).start program
    let two := (host.under right).start program
    (name ∈ one.assigned count ∧ name ∈ two.assigned count ∧
      ∃ value, (one.steps count).2.host.environment.get? name = some value ∧
        (two.steps count).2.host.environment.get? name = some value) ∨
    (name ∉ one.assigned count ∧ name ∉ two.assigned count ∧
      (one.steps count).2.host.environment.get? name = left.get? name ∧
      (two.steps count).2.host.environment.get? name = right.get? name)

/-- However far an interpreter runs a program, a name that is no target of an assignment in it is
bound as before, and every name that was bound still is. -/
def ChangesTargetsOnly (host : Interpreter ω) (program : Program) : Prop :=
  ∀ count name,
    let environment := ((host.start program).steps count).2.host.environment
    (.target name ∉ program.occurrences → environment.get? name = host.environment.get? name) ∧
    (host.environment.contains name = true → environment.contains name = true)

/-- A run changes the bindings of targets only. -/
theorem changesTargetsOnly (host : Interpreter ω) (program : Program) :
    host.ChangesTargetsOnly program := by
  intro count name environment
  have left : environment = _ := (host.start program).steps_environment count
  by_cases assigned : name ∈ (host.start program).assigned count
  · obtain ⟨value, bound⟩ := Environment.get?_insertAll_of_mem assigned
    constructor
    · intro notTarget
      have target := Execution.assigned_target assigned
      rw [occurrences_start] at target
      exact absurd target notTarget
    · intro _
      rw [Environment.contains, left, bound]
      rfl
  · have kept := Environment.get?_insertAll_of_notMem assigned host.environment
    constructor
    · intro _
      rw [left]
      exact kept
    · intro present
      rw [Environment.contains, left]
      exact (congrArg Option.isSome kept).trans present

/-- What always holds lasts. -/
theorem lasting_true : Lasting fun _ : ω => True :=
  ⟨fun _ _ _ => trivial, fun _ _ _ => trivial⟩

/-- A program is run alike under tables that agree on all that it can read. -/
theorem runsAlikeUnder {host : Interpreter ω} {program : Program} {left right : Environment}
    (agree : left.AgreesFor program host.config.actorBinding right) :
    host.RunsAlikeUnder program left right := by
  let one := (host.under left).start program
  have admits : one.Admits (fun _ => True) right := by
    refine ⟨⟨rfl, ?_, fun name member => ?_⟩, trivial⟩
    · exact Scope.find?_alike lasting_true (agree _ (.inr rfl))
    · rw [occurrences_start] at member
      exact Scope.find?_alike lasting_true (agree name (.inl member))
  have steps count : ((host.under right).start program).steps count = _ :=
    (Execution.steps_under lasting_true admits count).1
  obtain ⟨points, count, outcome, -, first, second⟩ := Execution.runToEnd_under lasting_true admits
  have ended : (host.under left).interpret program = _ := first
  have alsoEnded : (host.under right).interpret program = _ := second
  constructor
  · rw [ended, alsoEnded]
  · exact points.symm
  · rw [ended, alsoEnded]
    rfl
  · intro count
    rw [steps count]
    exact ⟨rfl, rfl⟩
  · intro count name
    exact Execution.bindings_under lasting_true admits count name

end Interpreter

/-- A run depends only on the names that it can read, and changes only the names that it assigns.
Under tables that agree on the variables of the program and on the actor, the runs end with the same
outcome and pause at the same points, over any world and over one that keeps the calls made to it,
and at every step they differ only in names that neither has assigned yet. Under any bindings, a run
unbinds no name and binds none that is not a target of an assignment. -/
theorem Interpreter.runs_depend_on_reads (program : Program) (config : Config)
    {left right : Environment} (agree : left.AgreesFor program config.actorBinding right) :
    (∀ host : Interpreter ω, host.config = config → host.RunsAlikeUnder program left right) ∧
    (∀ host : Interpreter (Recorded ω), host.config = config →
      host.RunsAlikeUnder program left right) ∧
    ∀ host : Interpreter ω, host.ChangesTargetsOnly program := by
  refine ⟨?_, ?_, ?_⟩
  · rintro host rfl
    exact runsAlikeUnder agree
  · rintro host rfl
    exact runsAlikeUnder agree
  · intro host
    exact host.changesTargetsOnly program

/-- The assignment of `x` to `y` reads nothing but `x` and the actor, so a binding of `z` makes no
difference to its runs. -/
theorem Interpreter.runs_depend_on_reads_copy :
    let program : Program :=
      ⟨[.assign ⟨"y", default⟩ (.reference "x" default) default], default⟩
    let left := Environment.empty.insert "x" (.int 1)
    let right := left.insert "z" (.int 2)
    left.AgreesFor program (Config.actorBinding {}) right ∧
      Interpreter.RunsAlikeUnder { world := Grid.empty } program left right := by
  intro program left right
  have agree : left.AgreesFor program (Config.actorBinding {}) right := by
    intro name read
    have other : name ≠ "z" := by
      rintro rfl
      revert read
      decide
    exact (Environment.get?_insert_of_ne left (.int 2) other).symm
  exact ⟨agree, (runs_depend_on_reads program {} agree).1 _ rfl⟩

end Waggle
