import Waggle.Proofs.Replay

/-!
# Seeding a name with the entity that the world knows by it

A name that is not bound is looked up in the world. A host may as well bind it beforehand to the
entity that would be found: as long as the world knows the same entity by the name, and no effect
in a grid world changes that, the name is found alike with the binding and without it. So the run
is the same, and the binding is all that is left of it, unless the run assigns the name itself.
-/

namespace Waggle

namespace Grid

/-- Which entity has a name can be told from what all entities are. -/
theorem resolve_eq (grid : Grid) (name : String) :
    grid.resolve name =
      (grid.identities.findIdx? fun identity => identity.1 = name).map handle := by
  unfold resolve identities
  rw [List.findIdx?_map]
  rfl

/-- That a name is the name of an entity lasts. -/
theorem lasting_resolve (name : String) (entity : EntityRef) :
    Lasting fun grid : Grid => grid.resolve name = some entity := by
  constructor
  · intro query grid known
    rw [QuietWorld.ask_snd]
    exact known
  · intro effect grid known
    obtain ⟨news, explained⟩ := explains_act effect grid
    rw [resolve_eq, explained.identities, ← resolve_eq]
    exact known

end Grid

/-- Where the world knows an entity by a name, the name is found alike whether it is unbound or
bound to the entity. -/
theorem Scope.alike_seeded {environment : Environment} {name : String}
    (unbound : environment.get? name = none) (entity : EntityRef) (actor : String)
    (occurrences : List Occurrence) :
    Scope.Alike (fun grid : Grid => grid.resolve name = some entity) occurrences
      ⟨environment, actor⟩ ⟨environment.insert name (.entity entity), actor⟩ := by
  have found (other : String) :
      Waggle.Alike (fun grid : Grid => grid.resolve name = some entity)
        (find? ⟨environment, actor⟩ other)
        (find? ⟨environment.insert name (.entity entity), actor⟩ other) := by
    by_cases same : other = name
    · subst same
      have asks : (find? ⟨environment, actor⟩ other : Eval Grid (Option Value)) = (do
          return (← ask (.resolve other)).map .entity) := by
        simp only [find?, unbound]
      have knows : (find? ⟨environment.insert other (.entity entity), actor⟩ other :
          Eval Grid (Option Value)) = (do return some (.entity entity)) := by
        simp only [find?, Environment.get?_insert_self]
      rw [asks, knows]
      constructor
      · intro grid known
        change (Except.ok ((grid.resolve other).map Value.entity), grid) = _
        rw [known]
        rfl
      · intro grid known
        exact known
    · apply find?_alike (Grid.lasting_resolve name entity)
      exact (Environment.get?_insert_of_ne environment (.entity entity) same).symm
  exact ⟨rfl, found actor, fun other _ => found other⟩

/-- The run of a seeded interpreter shows what the run of a plain one shows, but for the seed: the
binding of a name to an entity. -/
structure Interpreter.ShowsOnlySeed (plain seeded : Interpreter Grid) (program : Program)
    (name : String) (entity : EntityRef) : Prop where
  /-- The runs end with the same outcome. -/
  outcome : (seeded.interpret program).1 = (plain.interpret program).1
  /-- The runs pause at the same points. -/
  points : (seeded.start program).points = (plain.start program).points
  /-- The runs leave the same lines on the console. -/
  console : (seeded.interpret program).2.console = (plain.interpret program).2.console
  /-- The runs leave the same world, with its positions, defeats and events. -/
  world : (seeded.interpret program).2.world = (plain.interpret program).2.world
  /-- Any other name is bound alike in the end. -/
  others : ∀ other, other ≠ name →
    (seeded.interpret program).2.environment.get? other =
      (plain.interpret program).2.environment.get? other
  /-- If the run has assigned the name, it is bound alike in the end. -/
  assigned : (∃ count, name ∈ (plain.start program).assigned count) →
    ∃ value, (seeded.interpret program).2.environment.get? name = some value ∧
      (plain.interpret program).2.environment.get? name = some value
  /-- If the run has not assigned the name, only the seeded run has it bound, to the entity. -/
  unassigned : (∀ count, name ∉ (plain.start program).assigned count) →
    (seeded.interpret program).2.environment.get? name = some (.entity entity) ∧
      (plain.interpret program).2.environment.get? name = none

/-- To seed a name with the entity that a grid world knows by it is transparent: if the name is
unbound, a run after the seeding ends with the same outcome, pauses at the same points and leaves
the same console and the same world as a run without it. In the end the bindings differ at most in
the name, and there only if the run has not assigned it. -/
theorem Interpreter.seeding_transparent (host : Interpreter Grid) (program : Program)
    {name : String} {entity : EntityRef} (known : host.world.resolve name = some entity)
    (unbound : host.environment.get? name = none) :
    host.ShowsOnlySeed (host.setGlobal name (.entity entity)) program name entity := by
  let run := host.start program
  let seed := host.environment.insert name (.entity entity)
  have lasting := Grid.lasting_resolve name entity
  have admits : run.Admits (fun grid => grid.resolve name = some entity) seed :=
    ⟨Scope.alike_seeded unbound entity _ _, known⟩
  obtain ⟨points, count, outcome, finished, plain, seeded⟩ :=
    Execution.runToEnd_under lasting admits
  have bindings := Execution.bindings_under lasting admits count
  rw [(Execution.steps_under lasting admits count).1] at bindings
  have plainEnd : host.interpret program = _ := plain
  have seededEnd : (host.setGlobal name (.entity entity)).interpret program = _ := seeded
  constructor
  · rw [plainEnd, seededEnd]
  · exact points
  · rw [plainEnd, seededEnd]
    rfl
  · rw [plainEnd, seededEnd]
    rfl
  · intro other different
    rw [plainEnd, seededEnd]
    obtain ⟨-, -, value, one, two⟩ | ⟨-, -, one, two⟩ := bindings other
    · exact two.trans one.symm
    · have same : seed.get? other = host.environment.get? other :=
        Environment.get?_insert_of_ne _ _ different
      exact (two.trans same).trans one.symm
  · rintro ⟨time, member⟩
    rw [plainEnd, seededEnd]
    obtain ⟨-, -, value, one, two⟩ | ⟨never, -⟩ := bindings name
    · exact ⟨value, two, one⟩
    · exact absurd (Execution.assigned_of_finished finished member) never
  · intro never
    rw [plainEnd, seededEnd]
    obtain ⟨member, -⟩ | ⟨-, -, one, two⟩ := bindings name
    · exact absurd member (never count)
    · exact ⟨two.trans (Environment.get?_insert_self _ _ _), one.trans unbound⟩

/-- A world with a player in it, who moves north and then has the name taken for a number, knows
the player by the name at first. -/
theorem Interpreter.seeding_transparent_player :
    let host : Interpreter Grid := { world := (Grid.empty.spawn "Player" .zero false).2 }
    let program : Program :=
      ⟨[.move none (.step .north) default,
        .assign ⟨"Player", default⟩ (.literal (.int 1) default) default], default⟩
    host.world.resolve "Player" = some ⟨1⟩ ∧ host.environment.get? "Player" = none ∧
      host.ShowsOnlySeed (host.setGlobal "Player" (.entity ⟨1⟩)) program "Player" ⟨1⟩ := by
  intro host program
  exact ⟨rfl, rfl, seeding_transparent host program rfl rfl⟩

end Waggle
