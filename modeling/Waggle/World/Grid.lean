import Waggle.World.Basic

/-!
# The grid world

Entities stand on cells of the grid, walls close cells, and every effect that reached the world
is kept as an event. Entities are numbered from one in the order in which they were spawned. An
enemy counts until it is attacked; an attack defeats nothing else. An effect on an entity that
does not exist leaves no trace, except that an attack is always told.
-/

namespace Waggle

/-- What happened in a grid world. -/
inductive GridEvent where
  /-- An entity was moved by an offset and now stands elsewhere. -/
  | translated (entity : EntityRef) (delta destination : Vec3)
  /-- An entity was placed. -/
  | placed (entity : EntityRef) (destination : Vec3)
  /-- An entity attacked another. -/
  | attacked (attacker target : EntityRef)
deriving DecidableEq, Inhabited

/-- An entity of a grid world. -/
structure GridEntity where
  /-- The name that scripts know it by. -/
  name : String
  /-- The cell it stands on. -/
  position : Vec3
  /-- Whether it is an enemy. -/
  enemy : Bool
  /-- Whether it is an enemy that was attacked. -/
  defeated : Bool
deriving DecidableEq, Inhabited

/-- A grid world. -/
structure Grid where
  /-- The entities, in the order of their numbers. -/
  entities : List GridEntity
  /-- The closed cells. -/
  walls : List Vec3
  /-- What happened, oldest first. -/
  events : Array GridEvent
deriving DecidableEq, Inhabited

namespace Grid

/-- A world with nothing in it. -/
def empty : Grid := ⟨[], [], #[]⟩

/-- The handle of the entity at an index. -/
def handle (index : Nat) : EntityRef := ⟨UInt64.ofNat (index + 1)⟩

/-- Adds an entity under the next number. -/
def spawn (grid : Grid) (name : String) (position : Vec3) (enemy : Bool) : EntityRef × Grid :=
  let entity : GridEntity := { name, position, enemy, defeated := false }
  (handle grid.entities.length, { grid with entities := grid.entities ++ [entity] })

/-- Closes a cell. -/
def addWall (grid : Grid) (cell : Vec3) : Grid := { grid with walls := cell :: grid.walls }

/-- Whether a cell is closed. -/
def isWall (grid : Grid) (cell : Vec3) : Bool := grid.walls.contains cell

/-- The entity of a handle. -/
def entity? (grid : Grid) (entity : EntityRef) : Option GridEntity :=
  if entity.id = 0 then none else grid.entities[entity.id.toNat - 1]?

/-- Where an entity stands. -/
def position? (grid : Grid) (entity : EntityRef) : Option Vec3 :=
  (grid.entity? entity).map GridEntity.position

/-- What an entity is called. -/
def name? (grid : Grid) (entity : EntityRef) : Option String :=
  (grid.entity? entity).map GridEntity.name

/-- Whether an entity is an enemy that was attacked. -/
def isDefeated (grid : Grid) (entity : EntityRef) : Bool :=
  ((grid.entity? entity).map GridEntity.defeated).getD false

/-- The first entity spawned under a name. -/
def resolve (grid : Grid) (name : String) : Option EntityRef :=
  (grid.entities.findIdx? fun entity => entity.name = name).map handle

/-- Whether the cell next to an entity is closed; for one that does not exist none is. -/
def pathBlocked (grid : Grid) (entity : EntityRef) (direction : Direction) : Bool :=
  match grid.position? entity with
  | some position => grid.isWall (position.offset direction.unit)
  | none => false

/-- How many entities, or enemies not yet defeated, there are. -/
def entityCount (grid : Grid) : EntityFilter → Int64
  | .all => Integer.clamp grid.entities.length
  | .enemies => Integer.clamp (grid.entities.countP fun entity => entity.enemy && !entity.defeated)

/-- Changes the entity of a handle, if there is one. -/
def update (grid : Grid) (entity : EntityRef) (change : GridEntity → GridEntity) : Grid :=
  if entity.id = 0 then grid
  else { grid with entities := grid.entities.modify (entity.id.toNat - 1) change }

/-- Adds an event. -/
def log (grid : Grid) (event : GridEvent) : Grid :=
  { grid with events := grid.events.push event }

/-- Moves an entity by an offset. -/
def translate (grid : Grid) (entity : EntityRef) (delta : Vec3) : Grid :=
  match grid.position? entity with
  | some position =>
    let destination := position.offset delta
    (grid.update entity fun found => { found with position := destination }).log
      (.translated entity delta destination)
  | none => grid

/-- Places an entity. -/
def place (grid : Grid) (entity : EntityRef) (destination : Vec3) : Grid :=
  match grid.entity? entity with
  | some _ =>
    (grid.update entity fun found => { found with position := destination }).log
      (.placed entity destination)
  | none => grid

/-- Tells of an attack, which defeats an enemy. -/
def attack (grid : Grid) (attacker target : EntityRef) : Grid :=
  (grid.update target fun found => { found with defeated := found.defeated || found.enemy }).log
    (.attacked attacker target)

/-- What happened so far, and the world without the memory of it. -/
def takeEvents (grid : Grid) : Array GridEvent × Grid :=
  (grid.events, { grid with events := #[] })

instance : World Grid where
  ask query grid :=
    match query with
    | .resolve name => (grid.resolve name, grid)
    | .pathBlocked entity direction => (grid.pathBlocked entity direction, grid)
    | .entityCount filter => (grid.entityCount filter, grid)
    | .directionVector direction => (direction.unit, grid)
  act effect grid :=
    match effect with
    | .translate entity delta => grid.translate entity delta
    | .setPosition entity position => grid.place entity position
    | .reportAttack attacker target => grid.attack attacker target

instance : QuietWorld Grid where
  ask_snd query _ := by cases query <;> rfl

end Grid

end Waggle
