import Mathlib.Data.List.Basic
import Mathlib.Data.List.Induction
import Waggle.Proofs.Numbering
import Waggle.Proofs.Seeding

/-!
# What has been done with a world

A host does with a grid world what it likes, in any order: it spawns entities, closes cells, moves,
places and attacks entities, whether there are such entities yet or not, and takes the events away.
A history is a list of such operations. It tells who was spawned, and whether an entity was attacked
after its spawn. With its entities in a list a world follows a history if these are the spawned
ones, in order, and the defeated ones among them are the enemies that were attacked after their
spawn; one more operation leaves a world that follows the history with it.
-/

namespace Waggle

/-- What a host can do with a grid world. -/
inductive GridOperation where
  /-- Add an entity. -/
  | spawn (name : String) (position : Vec3) (enemy : Bool)
  /-- Close a cell. -/
  | addWall (cell : Vec3)
  /-- Have an effect on an entity: move it, place it, or tell of an attack on it. -/
  | act (effect : Effect)
  /-- Take the events away. -/
  | takeEvents
deriving DecidableEq

/-- The name and the side of the entity that an operation adds. -/
def GridOperation.spawned? : GridOperation → Option (String × Bool)
  | .spawn name _ enemy => some (name, enemy)
  | .addWall _ | .act _ | .takeEvents => none

/-- The names and the sides of the entities that a history has added, in order. -/
def spawned (history : List GridOperation) : List (String × Bool) :=
  history.filterMap GridOperation.spawned?

/-- In a history, an attack on an entity was told after the spawn of the entity: the spawn that gave
it its number. -/
def AttackedSinceSpawn (history : List GridOperation) (entity : EntityRef) : Prop :=
  ∃ early name position enemy late attacker,
    history = early ++ .spawn name position enemy :: late ∧
      (spawned early).length + 1 = entity.id.toNat ∧
      .act (.reportAttack attacker entity) ∈ late

/-! ### Histories -/

/-- What one more operation adds comes last. -/
@[simp] theorem spawned_concat (history : List GridOperation) (operation : GridOperation) :
    spawned (history ++ [operation]) = spawned history ++ operation.spawned?.toList := by
  unfold spawned
  rw [List.filterMap_append]
  cases added : operation.spawned? <;> simp [added]

/-- What the first operation adds comes first. -/
theorem spawned_cons (operation : GridOperation) (rest : List GridOperation) :
    spawned (operation :: rest) = operation.spawned?.toList ++ spawned rest := by
  unfold spawned
  cases added : operation.spawned? <;> simp [added]

/-- Every number up to that of the last spawn is the number of a spawn. -/
theorem exists_spawn {history : List GridOperation} {number : Nat}
    (below : number < (spawned history).length) :
    ∃ early name position enemy late,
      history = early ++ .spawn name position enemy :: late ∧ (spawned early).length = number := by
  induction history using List.reverseRecOn with
  | nil => cases below
  | append_singleton history operation ih =>
    by_cases before : number < (spawned history).length
    · obtain ⟨early, name, position, enemy, late, split, count⟩ := ih before
      refine ⟨early, name, position, enemy, late ++ [operation], ?_, count⟩
      rw [split, List.append_assoc, List.cons_append]
    · -- The number is that of the last operation, which therefore is a spawn.
      cases operation with
      | spawn name position enemy =>
        have last : (spawned history).length = number := by
          rw [spawned_concat, List.length_append] at below
          simp only [GridOperation.spawned?, Option.toList_some, List.length_singleton] at below
          omega
        exact ⟨history, name, position, enemy, [], rfl, last⟩
      | addWall | act | takeEvents =>
        rw [spawned_concat, List.length_append] at below
        exact absurd below before

namespace AttackedSinceSpawn

variable {history : List GridOperation} {operation : GridOperation} {entity : EntityRef}

/-- What was attacked since its spawn has the number of a spawn. -/
theorem number_le (attacked : AttackedSinceSpawn history entity) :
    entity.id.toNat ≠ 0 ∧ entity.id.toNat ≤ (spawned history).length := by
  obtain ⟨early, name, position, enemy, late, attacker, rfl, number, -⟩ := attacked
  have total : (spawned (early ++ .spawn name position enemy :: late)).length =
      (spawned early).length + ((spawned late).length + 1) := by
    unfold spawned
    rw [List.filterMap_append, List.length_append]
    rfl
  omega

/-- With one more operation, an entity was attacked since its spawn if it was before, or if it has
been spawned and the operation tells of an attack on it. -/
theorem concat_iff :
    AttackedSinceSpawn (history ++ [operation]) entity ↔
      AttackedSinceSpawn history entity ∨
        (entity.id.toNat ≠ 0 ∧ entity.id.toNat ≤ (spawned history).length ∧
          ∃ attacker, operation = .act (.reportAttack attacker entity)) := by
  constructor
  · rintro ⟨early, name, position, enemy, late, attacker, split, number, told⟩
    rcases List.eq_nil_or_concat' late with rfl | ⟨front, last, rfl⟩
    · cases told
    · have parts : history ++ [operation] =
          (early ++ .spawn name position enemy :: front) ++ [last] := by
        rw [split, List.append_assoc, List.cons_append]
      obtain ⟨rfl, same⟩ := List.append_inj' parts rfl
      obtain rfl := List.head_eq_of_cons_eq same
      rcases List.mem_append.mp told with before | now
      · exact .inl ⟨early, name, position, enemy, front, attacker, rfl, number, before⟩
      · have count : (spawned (early ++ .spawn name position enemy :: front)).length =
            (spawned early).length + ((spawned front).length + 1) := by
          unfold spawned
          rw [List.filterMap_append, List.length_append]
          rfl
        exact .inr ⟨by omega, by omega, attacker, (List.mem_singleton.mp now).symm⟩
  · rintro (⟨early, name, position, enemy, late, attacker, split, number, told⟩ |
      ⟨positive, within, attacker, rfl⟩)
    · refine ⟨early, name, position, enemy, late ++ [operation], attacker, ?_, number, ?_⟩
      · rw [split, List.append_assoc, List.cons_append]
      · exact List.mem_append_left _ told
    · have below : entity.id.toNat - 1 < (spawned history).length := by omega
      obtain ⟨early, name, position, enemy, late, split, number⟩ := exists_spawn below
      refine ⟨early, name, position, enemy, late ++ [.act (.reportAttack attacker entity)],
        attacker, ?_, by omega, ?_⟩
      · rw [split, List.append_assoc, List.cons_append]
      · exact List.mem_append_right _ (List.mem_singleton.mpr rfl)

end AttackedSinceSpawn

namespace Grid

/-! ### What operations leave alone -/

/-- An entity that is spawned has the next number, and those that there are keep theirs. -/
theorem entity?_spawn (grid : Grid) (name : String) (position : Vec3) (enemy : Bool)
    (entity : EntityRef) :
    (grid.spawn name position enemy).2.entity? entity =
      if entity.id.toNat = grid.entities.length + 1 then
        some { name, position, enemy, defeated := false }
      else grid.entity? entity := by
  unfold spawn entity?
  by_cases zero : entity.id = 0
  · simp [zero]
  · have positive : entity.id.toNat ≠ 0 := fun same => zero (UInt64.toNat.inj same)
    simp only [if_neg zero, List.getElem?_append]
    split
    · rename_i below
      rw [if_neg (by omega)]
    · by_cases next : entity.id.toNat = grid.entities.length + 1
      · rw [if_pos next, next, Nat.add_sub_cancel, Nat.sub_self, List.getElem?_cons_zero]
      · rw [if_neg next, List.getElem?_eq_none, List.getElem?_eq_none]
        · omega
        · rw [List.length_singleton]
          omega

/-- An effect defeats the enemy that it tells of an attack on, and no other entity. -/
theorem isDefeated_act (effect : Effect) (grid : Grid) (entity : EntityRef) :
    (World.act effect grid : Grid).isDefeated entity = true ↔
      grid.isDefeated entity = true ∨
        (grid.isEnemy entity = true ∧ ∃ attacker, effect = .reportAttack attacker entity) := by
  have kept (target : EntityRef) (destination : Vec3) :
      (grid.update target fun found => { found with position := destination }).isDefeated =
        grid.isDefeated :=
    grid.reading_update_of_kept target _ (fun found => (found.map GridEntity.defeated).getD false)
      (fun found => by cases found <;> rfl)
  cases effect with
  | translate target delta =>
    have same : (World.act (.translate target delta) grid : Grid).isDefeated = grid.isDefeated := by
      change (grid.translate target delta).isDefeated = _
      unfold translate
      split
      · exact kept target _
      · rfl
    simp [same]
  | setPosition target destination =>
    have same :
        (World.act (.setPosition target destination) grid : Grid).isDefeated = grid.isDefeated := by
      change (grid.place target destination).isDefeated = _
      unfold place
      split
      · exact kept target _
      · rfl
    simp [same]
  | reportAttack attacker target =>
    have defeats : (World.act (.reportAttack attacker target) grid : Grid).isDefeated =
        Function.update grid.isDefeated target (grid.isDefeated target || grid.isEnemy target) :=
      congrArg Standing.defeated (grid.standing_attack target)
    rw [defeats]
    by_cases same : entity = target
    · subst same
      simp
    · simp [Function.update_of_ne same, Ne.symm same]

/-! ### What a history tells of a world -/

/-- A world follows a history: its entities are those that were spawned, in order, and the enemies
that were attacked since their spawn are defeated. -/
structure Follows (history : List GridOperation) (grid : Grid) : Prop where
  /-- Names and sides are those of the spawns. -/
  identities : grid.identities = spawned history
  /-- Attacks defeat the enemies that there are, and nothing else does. -/
  defeated : ∀ entity, grid.isDefeated entity = true ↔
    grid.isEnemy entity = true ∧ AttackedSinceSpawn history entity

namespace Follows

variable {history : List GridOperation} {grid : Grid}

/-- As many entities as there are were spawned. -/
theorem length_eq (follows : Follows history grid) :
    grid.entities.length = (spawned history).length := by
  rw [← follows.identities, Grid.identities, List.length_map]

/-- Nothing was spawned in a world with nothing in it. -/
theorem nothing : Follows [] .empty where
  identities := rfl
  defeated entity := by
    have absent : Grid.empty.entity? entity = none := by
      unfold entity? Grid.empty
      split <;> rfl
    simp [isDefeated, isEnemy, absent]

/-- An operation that leaves the entities as they are, and that is no attack, leaves a world that
follows its history. -/
theorem still (follows : Follows history grid) {after : Grid} {operation : GridOperation}
    (same : after.entities = grid.entities) (adds : operation.spawned? = none)
    (harmless : ∀ effect, operation ≠ .act effect) : Follows (history ++ [operation]) after where
  identities := by
    rw [spawned_concat, adds, Option.toList_none, List.append_nil, ← follows.identities]
    exact congrArg (List.map GridEntity.identity) same
  defeated entity := by
    have reading : after.entity? = grid.entity? := by
      funext other
      unfold entity?
      rw [same]
    have peaceful : ¬∃ attacker, operation = .act (.reportAttack attacker entity) :=
      fun ⟨_, told⟩ => harmless _ told
    have told := follows.defeated entity
    rw [AttackedSinceSpawn.concat_iff]
    simpa only [isDefeated, isEnemy, reading, peaceful, and_false, or_false] using told

/-- A spawn adds an entity that was not attacked yet: an attack on its number came too early. -/
theorem spawn (follows : Follows history grid) (name : String) (position : Vec3) (enemy : Bool) :
    Follows (history ++ [.spawn name position enemy]) (grid.spawn name position enemy).2 where
  identities := by
    rw [spawned_concat, ← follows.identities]
    simp [Grid.identities, Grid.spawn, GridEntity.identity, GridOperation.spawned?]
  defeated entity := by
    have early : AttackedSinceSpawn (history ++ [.spawn name position enemy]) entity ↔
        AttackedSinceSpawn history entity := by
      rw [AttackedSinceSpawn.concat_iff]
      simp
    rw [early, isDefeated, isEnemy, entity?_spawn]
    by_cases next : entity.id.toNat = grid.entities.length + 1
    · have never : ¬AttackedSinceSpawn history entity := by
        intro attacked
        have within := attacked.number_le.2
        rw [← follows.length_eq] at within
        omega
      simp [next, never]
    · rw [if_neg next]
      exact follows.defeated entity

/-- An effect leaves a world that follows its history. -/
theorem act (follows : Follows history grid) (effect : Effect) :
    Follows (history ++ [.act effect]) (World.act effect grid) := by
  obtain ⟨news, explained⟩ := explains_act effect grid
  have sides := isEnemy_of_identities explained.identities
  constructor
  · rw [explained.identities, follows.identities, spawned_concat]
    exact (List.append_nil _).symm
  · intro entity
    rw [isDefeated_act, follows.defeated, sides, AttackedSinceSpawn.concat_iff,
      ← and_or_left]
    -- An enemy that an attack reaches is one of the world, so it has been spawned.
    have known (enemy : grid.isEnemy entity = true) :
        entity.id.toNat ≠ 0 ∧ entity.id.toNat ≤ (spawned history).length := by
      rw [← follows.length_eq, ← isSome_entity?_iff]
      unfold isEnemy at enemy
      cases found : grid.entity? entity with
      | none =>
        rw [found] at enemy
        cases enemy
      | some _ => rfl
    apply and_congr_right
    intro enemy
    obtain ⟨positive, within⟩ := known enemy
    simp [positive, within]

end Follows

end Grid

end Waggle
