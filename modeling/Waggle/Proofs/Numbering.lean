import Mathlib.Algebra.Group.Nat.Defs
import Mathlib.Data.List.Basic
import Waggle.World.Registry

/-!
# Numbers are places in a list

A registry in which numbers are given from one on is a grid world whose entities are a list: the
entity of a number stands at the place that the number tells, the next number belongs to the next
place, and to put an entity under it puts the entity at the end and replaces nobody. So whatever is
asked of the registry has the answer that the list gives, and whatever is done to it is done to the
list (`Registry.Numbered.ask_eq`, `Registry.Numbered.act`, `Registry.Numbered.spawn`), as long as
there are numbers left: in a word there are `2 ^ 64`, and nought is not given.
-/

namespace Waggle

namespace Grid

/-! ### Handles -/

/-- A handle of a word has the number after its index. -/
theorem toNat_handle {index : Nat} (small : index + 1 < 2 ^ 64) :
    (handle index).id.toNat = index + 1 :=
  UInt64.toNat_ofNat_of_lt' small

/-- There is an entity of a handle exactly if its number is one of the world. -/
theorem isSome_entity?_iff (grid : Grid) (entity : EntityRef) :
    (grid.entity? entity).isSome ↔
      entity.id.toNat ≠ 0 ∧ entity.id.toNat ≤ grid.entities.length := by
  unfold entity?
  by_cases zero : entity.id = 0
  · simp [zero]
  · have positive : entity.id.toNat ≠ 0 := fun same => zero (UInt64.toNat.inj same)
    rw [if_neg zero, Option.isSome_iff_ne_none, ne_eq, List.getElem?_eq_none_iff]
    omega

/-- A handle is that of an index exactly if it has the number after the index. -/
theorem handle_eq_iff {index : Nat} (small : index + 1 < 2 ^ 64) (entity : EntityRef) :
    handle index = entity ↔ entity.id.toNat = index + 1 := by
  constructor
  · rintro rfl
    exact toNat_handle small
  · intro number
    unfold handle
    rw [← number, UInt64.ofNat_toNat]

/-- What is looked up under a handle, among items under the handles from an index on, is the item
at its place. -/
theorem lookup_zip_handles {α : Type} (items : List α) (start : Nat)
    (few : start + items.length < 2 ^ 64) (entity : EntityRef) :
    (((List.range' start items.length).map handle).zip items).lookup entity =
      if start < entity.id.toNat then items[entity.id.toNat - start - 1]? else none := by
  induction items generalizing start with
  | nil => simp
  | cons item rest ih =>
    rw [List.length_cons] at few
    have later := ih (start + 1) (by omega)
    have here := handle_eq_iff (show start + 1 < 2 ^ 64 by omega) entity
    rw [List.length_cons, List.range'_succ, List.map_cons, List.zip_cons_cons, List.lookup_cons,
      later]
    by_cases same : entity = handle start
    · have number := here.mp same.symm
      rw [beq_iff_eq.mpr same]
      simp [number]
    · have number : entity.id.toNat ≠ start + 1 := fun number => same (here.mpr number).symm
      rw [beq_false_of_ne same]
      by_cases above : start < entity.id.toNat
      · have further : entity.id.toNat - start - 1 = entity.id.toNat - (start + 1) - 1 + 1 := by
          omega
        rw [if_pos above, if_pos (by omega), further, List.getElem?_cons_succ]
      · rw [if_neg above, if_neg (by omega)]

/-- To change what is under a handle, among items under the handles from an index on, is to change
the item at its place. -/
theorem map_zip_handles {α : Type} (change : α → α) (items : List α) (start : Nat)
    (few : start + items.length < 2 ^ 64) (entity : EntityRef) :
    (((List.range' start items.length).map handle).zip items).map
        (fun entry => (entry.1, if entry.1 = entity then change entry.2 else entry.2)) =
      ((List.range' start items.length).map handle).zip
        (if start < entity.id.toNat then items.modify (entity.id.toNat - start - 1) change
          else items) := by
  induction items generalizing start with
  | nil => simp
  | cons item rest ih =>
    rw [List.length_cons] at few
    have later := ih (start + 1) (by omega)
    have here := handle_eq_iff (show start + 1 < 2 ^ 64 by omega) entity
    rw [List.length_cons, List.range'_succ, List.map_cons, List.zip_cons_cons, List.map_cons,
      later]
    by_cases same : handle start = entity
    · have number := here.mp same
      simp [same, number]
    · have number : entity.id.toNat ≠ start + 1 := fun number => same (here.mpr number)
      by_cases above : start < entity.id.toNat
      · have further : entity.id.toNat - start - 1 = entity.id.toNat - (start + 1) - 1 + 1 := by
          omega
        rw [if_neg same, if_pos above, if_pos (by omega), further, List.modify_succ_cons,
          List.zip_cons_cons]
      · rw [if_neg same, if_neg above, if_neg (by omega), List.zip_cons_cons]

/-- Finding the first of some items with a property is finding its index. -/
theorem find?_zip_handles {α : Type} (holds : α → Bool) (items : List α) (start : Nat) :
    ((((List.range' start items.length).map handle).zip items).find? fun pair =>
        holds pair.2).map Prod.fst =
      (items.findIdx? holds).map fun index => handle (start + index) := by
  induction items generalizing start with
  | nil => rfl
  | cons item rest ih =>
    rw [List.length_cons, List.range'_succ, List.map_cons, List.zip_cons_cons, List.find?_cons,
      List.findIdx?_cons]
    cases found : holds item with
    | true => rfl
    | false =>
      have shifted := ih (start + 1)
      simp only [Option.map_map, Function.comp_def, Bool.false_eq_true, if_false] at shifted ⊢
      rw [shifted]
      congr 1
      funext index
      rw [Nat.add_assoc, Nat.add_comm 1]

end Grid

namespace Registry

/-! ### Registries as lists -/

/-- The grid world that a registry is if its numbers are left out. -/
def toGrid (registry : Registry) : Grid :=
  ⟨registry.table.values, registry.walls, registry.events⟩

/-- A registry whose entities have the numbers from one on, the last of which is the count. -/
structure Numbered (registry : Registry) : Prop where
  /-- The entities have the handles of their places. -/
  entries_eq : registry.table.entries =
    ((List.range' 0 registry.table.values.length).map Grid.handle).zip registry.table.values
  /-- The number of the last one was given last. -/
  lastId_eq : registry.lastId = UInt64.ofNat registry.table.values.length
  /-- The numbers are words. -/
  few : registry.table.values.length < 2 ^ 64

namespace Numbered

variable {registry : Registry}

/-- A registry with nothing in it has given no numbers. -/
theorem empty : Registry.empty.Numbered where
  entries_eq := rfl
  lastId_eq := rfl
  few := by decide

/-! ### Answers -/

/-- The entity of a number is the one at its place. -/
theorem get?_eq (numbered : registry.Numbered) (entity : EntityRef) :
    registry.table.get? entity = registry.toGrid.entity? entity := by
  unfold EntityTable.get? Grid.entity?
  rw [numbered.entries_eq, Grid.lookup_zip_handles _ 0 (by simpa using numbered.few)]
  by_cases zero : entity.id = 0
  · rw [if_pos zero, if_neg (by simp [zero])]
  · have positive : 0 < entity.id.toNat :=
      Nat.pos_of_ne_zero fun same => zero (UInt64.toNat.inj same)
    rw [if_neg zero, if_pos positive, Nat.sub_zero]
    rfl

/-- An entity stands where the list says. -/
theorem position?_eq (numbered : registry.Numbered) (entity : EntityRef) :
    registry.position? entity = registry.toGrid.position? entity :=
  congrArg _ (numbered.get?_eq entity)

/-- The first entity of a name in the order of the numbers is the first one in the list. -/
theorem resolve_eq (numbered : registry.Numbered) (name : String) :
    registry.resolve name = registry.toGrid.resolve name := by
  unfold resolve
  rw [numbered.entries_eq]
  have found := Grid.find?_zip_handles (fun entity : GridEntity => decide (entity.name = name))
    registry.table.values 0
  simp only [Nat.zero_add] at found
  exact found

/-- A count is that of the list. -/
theorem entityCount_eq (filter : EntityFilter) :
    registry.entityCount filter = registry.toGrid.entityCount filter := by
  cases filter with
  | all =>
    unfold entityCount Grid.entityCount
    rw [toGrid, EntityTable.values, List.length_map]
  | enemies => rfl

/-- Whether a path is closed is told by the list. -/
theorem pathBlocked_eq (numbered : registry.Numbered) (entity : EntityRef)
    (direction : Direction) :
    registry.pathBlocked entity direction = registry.toGrid.pathBlocked entity direction := by
  unfold pathBlocked Grid.pathBlocked
  rw [numbered.position?_eq]
  rfl

/-- Whatever is asked of a registry has the answer that the list gives, and nothing is changed. -/
theorem ask_eq (numbered : registry.Numbered) (query : Query) :
    World.ask query registry = ((World.ask query registry.toGrid).1, registry) := by
  cases query with
  | resolve name => exact congrArg (·, registry) (numbered.resolve_eq name)
  | pathBlocked entity direction =>
    exact congrArg (·, registry) (numbered.pathBlocked_eq entity direction)
  | entityCount filter => exact congrArg (·, registry) (entityCount_eq filter)
  | directionVector direction => rfl

/-! ### Changes -/

/-- To change the entity of a number is to change the one at its place. -/
theorem entries_update (numbered : registry.Numbered) (entity : EntityRef)
    (change : GridEntity → GridEntity) :
    (registry.update entity change).table.entries =
      ((List.range' 0 registry.table.values.length).map Grid.handle).zip
        (registry.toGrid.update entity change).entities := by
  change registry.table.entries.map _ = _
  rw [numbered.entries_eq, Grid.map_zip_handles _ _ 0 (by simpa using numbered.few)]
  unfold Grid.update
  by_cases zero : entity.id = 0
  · rw [if_pos zero, if_neg (by simp [zero])]
    rfl
  · have positive : 0 < entity.id.toNat :=
      Nat.pos_of_ne_zero fun same => zero (UInt64.toNat.inj same)
    rw [if_neg zero, if_pos positive, Nat.sub_zero]
    rfl

/-- A change of an entity is one of the list. -/
theorem toGrid_update (numbered : registry.Numbered) (entity : EntityRef)
    (change : GridEntity → GridEntity) :
    (registry.update entity change).toGrid = registry.toGrid.update entity change := by
  have size : (registry.toGrid.update entity change).entities.length =
      registry.table.values.length := by
    unfold Grid.update
    split
    · rfl
    · exact List.length_modify ..
  have values : (registry.update entity change).table.values =
      (registry.toGrid.update entity change).entities := by
    unfold EntityTable.values
    rw [numbered.entries_update]
    exact List.map_snd_zip (by simp [size])
  unfold toGrid
  rw [values]
  unfold Grid.update
  split <;> rfl

/-- A change of an entity gives and takes no number. -/
theorem update (numbered : registry.Numbered) (entity : EntityRef)
    (change : GridEntity → GridEntity) : (registry.update entity change).Numbered := by
  have values : (registry.update entity change).table.values =
      (registry.toGrid.update entity change).entities :=
    congrArg Grid.entities (numbered.toGrid_update entity change)
  have size : (registry.update entity change).table.values.length =
      registry.table.values.length := by
    change ((registry.table.entries.map _).map Prod.snd).length = _
    rw [List.length_map, List.length_map, EntityTable.values, List.length_map]
  constructor
  · rw [numbered.entries_update, values, ← values, size]
  · rw [size]
    exact numbered.lastId_eq
  · rw [size]
    exact numbered.few

/-- What happens to the cells and the events gives and takes no number. -/
theorem of_table_eq (numbered : registry.Numbered) {other : Registry}
    (table : other.table = registry.table) (lastId : other.lastId = registry.lastId) :
    other.Numbered := by
  constructor
  · rw [table]
    exact numbered.entries_eq
  · rw [table, lastId]
    exact numbered.lastId_eq
  · rw [table]
    exact numbered.few

/-- An event gives and takes no number. -/
theorem log (numbered : registry.Numbered) (event : GridEvent) : (registry.log event).Numbered :=
  numbered.of_table_eq rfl rfl

/-- An effect has the same effect on the list, and gives and takes no number. -/
theorem act (numbered : registry.Numbered) (effect : Effect) :
    (World.act effect registry : Registry).Numbered ∧
      (World.act effect registry : Registry).toGrid = World.act effect registry.toGrid := by
  cases effect with
  | translate entity delta =>
    change (registry.translate entity delta).Numbered ∧
      (registry.translate entity delta).toGrid = registry.toGrid.translate entity delta
    unfold translate Grid.translate Grid.position?
    rw [numbered.get?_eq]
    cases registry.toGrid.entity? entity with
    | none => exact ⟨numbered, rfl⟩
    | some found =>
      dsimp only [Option.map_some]
      exact ⟨(numbered.update entity _).log _,
        congrArg (Grid.log · _) (numbered.toGrid_update entity _)⟩
  | setPosition entity destination =>
    change (registry.place entity destination).Numbered ∧
      (registry.place entity destination).toGrid = registry.toGrid.place entity destination
    unfold place Grid.place
    rw [numbered.get?_eq]
    cases registry.toGrid.entity? entity with
    | none => exact ⟨numbered, rfl⟩
    | some found =>
      exact ⟨(numbered.update entity _).log _,
        congrArg (Grid.log · _) (numbered.toGrid_update entity _)⟩
  | reportAttack attacker target =>
    have same : (fun found : GridEntity =>
        if found.enemy then { found with defeated := true } else found) =
          fun found => { found with defeated := found.defeated || found.enemy } := by
      funext found
      rcases found with ⟨name, position, _ | _, defeated⟩ <;> simp
    change (registry.attack attacker target).Numbered ∧
      (registry.attack attacker target).toGrid = registry.toGrid.attack attacker target
    unfold attack Grid.attack
    rw [same]
    exact ⟨(numbered.update target _).log _,
      congrArg (Grid.log · _) (numbered.toGrid_update target _)⟩

/-- An entity that is put behind all others is the last one. -/
theorem entries_insert (numbered : registry.Numbered) (entity : GridEntity)
    (room : registry.table.values.length + 1 < 2 ^ 64) :
    (registry.table.insert (Grid.handle registry.table.values.length) entity).entries =
      registry.table.entries ++ [(Grid.handle registry.table.values.length, entity)] := by
  have below : ∀ entry ∈ registry.table.entries,
      entry.1.id < (Grid.handle registry.table.values.length).id := by
    intro entry member
    rw [numbered.entries_eq] at member
    obtain ⟨index, range, same⟩ := List.mem_map.mp (List.of_mem_zip member).1
    have within : index < registry.table.values.length := by simpa using range
    rw [← same, UInt64.lt_iff_toNat_lt, Grid.toNat_handle (by omega), Grid.toNat_handle room]
    omega
  have smaller : registry.table.entries.filter (fun entry =>
      entry.1.id < (Grid.handle registry.table.values.length).id) = registry.table.entries :=
    List.filter_eq_self.mpr fun entry member => decide_eq_true (below entry member)
  have greater : registry.table.entries.filter (fun entry =>
      (Grid.handle registry.table.values.length).id < entry.1.id) = [] := by
    rw [List.filter_eq_nil_iff]
    intro entry member above
    exact UInt64.lt_asymm (below entry member) (of_decide_eq_true above)
  change registry.table.entries.filter _ ++ _ :: registry.table.entries.filter _ = _
  rw [smaller, greater]

/-- A spawn gives the number of the next place, and puts the entity there. -/
theorem spawn (numbered : registry.Numbered) (name : String) (position : Vec3) (enemy : Bool)
    (room : registry.table.values.length + 1 < 2 ^ 64) :
    (registry.spawn name position enemy).1 = (registry.toGrid.spawn name position enemy).1 ∧
      (registry.spawn name position enemy).2.Numbered ∧
      (registry.spawn name position enemy).2.toGrid =
        (registry.toGrid.spawn name position enemy).2 := by
  let count := registry.table.values.length
  let entity : GridEntity := { name, position, enemy, defeated := false }
  have number : (⟨registry.lastId + 1⟩ : EntityRef) = Grid.handle count := by
    rw [numbered.lastId_eq, Grid.handle, UInt64.ofNat_add]
    rfl
  have entries : (registry.spawn name position enemy).2.table.entries =
      registry.table.entries ++ [(Grid.handle count, entity)] := by
    rw [← numbered.entries_insert entity room, ← number]
    rfl
  have values : (registry.spawn name position enemy).2.table.values =
      registry.table.values ++ [entity] := by
    unfold EntityTable.values
    rw [entries, List.map_append]
    rfl
  refine ⟨number, ⟨?_, ?_, ?_⟩, ?_⟩
  · rw [entries, values, List.length_append, List.length_singleton, List.range'_1_concat,
      List.map_append, List.zip_append (by simp), ← numbered.entries_eq, Nat.zero_add]
    rfl
  · rw [values, List.length_append, List.length_singleton, UInt64.ofNat_add, ← numbered.lastId_eq]
    rfl
  · rw [values, List.length_append]
    exact room
  · unfold toGrid
    rw [values]
    rfl

end Numbered

end Registry

end Waggle
