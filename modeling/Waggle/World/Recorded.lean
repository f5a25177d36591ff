import Waggle.World.Basic

/-!
# Worlds that are watched or steered

`Recorded` keeps the calls made to a world, in order and with their answers. `Compass` is a
world in which the four steps go by offsets of their own.
-/

namespace Waggle

/-- A call that was made to a world. -/
inductive Call where
  /-- A query with its answer. -/
  | asked (query : Query) (answer : query.Answer)
  /-- An effect. -/
  | acted (effect : Effect)

/-- A world with the calls that were made to it. -/
structure Recorded (ω : Type) where
  /-- The world itself. -/
  world : ω
  /-- The calls, oldest first. -/
  calls : Array Call

namespace Recorded

/-- A world to which no call was made yet. -/
def new {ω : Type} (world : ω) : Recorded ω := ⟨world, #[]⟩

/-- The calls made so far, and the world with none. -/
def takeCalls {ω : Type} (recorded : Recorded ω) : Array Call × Recorded ω :=
  (recorded.calls, new recorded.world)

instance {ω : Type} [World ω] : World (Recorded ω) where
  ask query recorded :=
    match recorded with
    | ⟨world, calls⟩ =>
      let (answer, world) := World.ask query world
      (answer, ⟨world, calls.push (.asked query answer)⟩)
  act effect recorded :=
    match recorded with
    | ⟨world, calls⟩ => ⟨World.act effect world, calls.push (.acted effect)⟩

end Recorded

/-- A world with its own offsets for the four steps. -/
structure Compass (ω : Type) where
  /-- The world itself. -/
  world : ω
  /-- The offset of one step. -/
  vector : Direction → Vec3

namespace Compass

/-- A world whose steps go by their unit vectors. -/
def new {ω : Type} (world : ω) : Compass ω := ⟨world, Direction.unit⟩

instance {ω : Type} [World ω] : World (Compass ω) where
  ask query compass :=
    match query with
    | .directionVector direction => (compass.vector direction, compass)
    | query =>
      let (answer, world) := World.ask query compass.world
      (answer, { compass with world })
  act effect compass := { compass with world := World.act effect compass.world }

end Compass

end Waggle
