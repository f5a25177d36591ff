import Waggle.World.Grid

/-!
# Entities under their numbers

A grid world as a table. The entities stand under their numbers and in the order of these, and a
count holds the number that was given last. To add an entity is to count on and to put it into the
table under the new number, where it takes the place of any entity that has the number already. So
nothing here keeps a number from being given twice, and once they are used up the count begins again
at nought; that entities keep their numbers is a fact about what is done with a registry, which
`Waggle.Proofs.Numbering` shows. Names are looked for in the order of the numbers.
-/

namespace Waggle

/-- Entities in the order of their numbers. -/
structure EntityTable where
  /-- The entities, each with its number. -/
  entries : List (EntityRef × GridEntity)
  /-- Each number stands before the greater ones, and once. -/
  ordered : entries.Pairwise fun left right => left.1.id < right.1.id

namespace EntityTable

/-- No entities. -/
def empty : EntityTable := ⟨[], .nil⟩

/-- The entity of a number. -/
def get? (table : EntityTable) (key : EntityRef) : Option GridEntity := table.entries.lookup key

/-- The entities, in the order of their numbers. -/
def values (table : EntityTable) : List GridEntity := table.entries.map Prod.snd

/-- Puts an entity under a number, between the smaller and the greater ones, in the place of the
entity that had the number. -/
def insert (table : EntityTable) (key : EntityRef) (entity : GridEntity) : EntityTable where
  entries := table.entries.filter (fun entry => entry.1.id < key.id) ++
    (key, entity) :: table.entries.filter fun entry => key.id < entry.1.id
  ordered := by
    have smaller : ∀ entry ∈ table.entries.filter (fun entry => entry.1.id < key.id),
        entry.1.id < key.id :=
      fun entry member => of_decide_eq_true (List.mem_filter.mp member).2
    have greater : ∀ entry ∈ table.entries.filter (fun entry => key.id < entry.1.id),
        key.id < entry.1.id :=
      fun entry member => of_decide_eq_true (List.mem_filter.mp member).2
    apply List.pairwise_append.mpr
    refine ⟨table.ordered.filter _, List.pairwise_cons.mpr ⟨greater, table.ordered.filter _⟩, ?_⟩
    intro left below right member
    rcases List.mem_cons.mp member with rfl | above
    · exact smaller left below
    · exact UInt64.lt_trans (smaller left below) (greater right above)

/-- Changes the entity of a number, if there is one. -/
def update (table : EntityTable) (key : EntityRef) (change : GridEntity → GridEntity) :
    EntityTable where
  entries := table.entries.map fun entry =>
    (entry.1, if entry.1 = key then change entry.2 else entry.2)
  ordered := List.pairwise_map.mpr table.ordered

end EntityTable

/-- A grid world whose entities are in a table. -/
structure Registry where
  /-- The entities. -/
  table : EntityTable
  /-- The closed cells. -/
  walls : List Vec3
  /-- What happened, oldest first. -/
  events : Array GridEvent
  /-- The number that was given last, or nought. -/
  lastId : UInt64

namespace Registry

/-- A world with nothing in it. -/
def empty : Registry := ⟨.empty, [], #[], 0⟩

/-- Adds an entity under the number after the last one. -/
def spawn (registry : Registry) (name : String) (position : Vec3) (enemy : Bool) :
    EntityRef × Registry :=
  let lastId := registry.lastId + 1
  let entity : EntityRef := ⟨lastId⟩
  let table := registry.table.insert entity { name, position, enemy, defeated := false }
  (entity, { registry with table, lastId })

/-- Closes a cell. -/
def addWall (registry : Registry) (cell : Vec3) : Registry :=
  { registry with walls := cell :: registry.walls }

/-- Whether a cell is closed. -/
def isWall (registry : Registry) (cell : Vec3) : Bool := registry.walls.contains cell

/-- Where an entity stands. -/
def position? (registry : Registry) (entity : EntityRef) : Option Vec3 :=
  (registry.table.get? entity).map GridEntity.position

/-- What an entity is called. -/
def name? (registry : Registry) (entity : EntityRef) : Option String :=
  (registry.table.get? entity).map GridEntity.name

/-- Whether an entity is an enemy that was attacked. -/
def isDefeated (registry : Registry) (entity : EntityRef) : Bool :=
  match registry.table.get? entity with
  | some found => found.defeated
  | none => false

/-- The first entity of a name in the order of the numbers. -/
def resolve (registry : Registry) (name : String) : Option EntityRef :=
  (registry.table.entries.find? fun entry => entry.2.name = name).map Prod.fst

/-- Whether the cell next to an entity is closed; for one that does not exist none is. -/
def pathBlocked (registry : Registry) (entity : EntityRef) (direction : Direction) : Bool :=
  match registry.position? entity with
  | some position => registry.isWall (position.offset direction.unit)
  | none => false

/-- How many enemies are not yet defeated. -/
def enemiesLeft (registry : Registry) : Nat :=
  registry.table.values.countP fun entity => entity.enemy && !entity.defeated

/-- How many entities, or enemies not yet defeated, there are. -/
def entityCount (registry : Registry) : EntityFilter → Int64
  | .all => Integer.clamp registry.table.entries.length
  | .enemies => Integer.clamp registry.enemiesLeft

/-- Adds an event. -/
def log (registry : Registry) (event : GridEvent) : Registry :=
  { registry with events := registry.events.push event }

/-- Changes the entity of a number, if there is one. -/
def update (registry : Registry) (entity : EntityRef) (change : GridEntity → GridEntity) :
    Registry :=
  { registry with table := registry.table.update entity change }

/-- Moves an entity by an offset. -/
def translate (registry : Registry) (entity : EntityRef) (delta : Vec3) : Registry :=
  match registry.table.get? entity with
  | some found =>
    let destination := found.position.offset delta
    (registry.update entity fun found => { found with position := destination }).log
      (.translated entity delta destination)
  | none => registry

/-- Places an entity. -/
def place (registry : Registry) (entity : EntityRef) (destination : Vec3) : Registry :=
  match registry.table.get? entity with
  | some _ =>
    (registry.update entity fun found => { found with position := destination }).log
      (.placed entity destination)
  | none => registry

/-- Tells of an attack, which defeats an enemy. -/
def attack (registry : Registry) (attacker target : EntityRef) : Registry :=
  (registry.update target fun found =>
    if found.enemy then { found with defeated := true } else found).log (.attacked attacker target)

/-- What happened so far, and the world without the memory of it. -/
def takeEvents (registry : Registry) : Array GridEvent × Registry :=
  (registry.events, { registry with events := #[] })

instance : World Registry where
  ask query registry :=
    match query with
    | .resolve name => (registry.resolve name, registry)
    | .pathBlocked entity direction => (registry.pathBlocked entity direction, registry)
    | .entityCount filter => (registry.entityCount filter, registry)
    | .directionVector direction => (direction.unit, registry)
  act effect registry :=
    match effect with
    | .translate entity delta => registry.translate entity delta
    | .setPosition entity position => registry.place entity position
    | .reportAttack attacker target => registry.attack attacker target

end Registry

end Waggle
