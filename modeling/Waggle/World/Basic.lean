import Waggle.Value

/-!
# Worlds

A script acts on a world that its host provides. The world answers queries and takes effects,
one at a time; what it answers may depend on all that happened before. A world is quiet if
answering does not change it.
-/

namespace Waggle

/-- Which entities are counted. -/
inductive EntityFilter where
  | all
  | enemies
deriving DecidableEq, Inhabited

/-- A question that a script puts to the world. -/
inductive Query where
  /-- The entity of a name. -/
  | resolve (name : String)
  /-- Whether the cell next to an entity is closed to it. -/
  | pathBlocked (entity : EntityRef) (direction : Direction)
  /-- How many entities there are. -/
  | entityCount (filter : EntityFilter)
  /-- The offset of one step. -/
  | directionVector (direction : Direction)
deriving DecidableEq, Inhabited

/-- What the answer to a query is. -/
abbrev Query.Answer : Query → Type
  | .resolve _ => Option EntityRef
  | .pathBlocked _ _ => Bool
  | .entityCount _ => Int64
  | .directionVector _ => Vec3

/-- A change that a script makes to the world. -/
inductive Effect where
  /-- Moves an entity by an offset. -/
  | translate (entity : EntityRef) (delta : Vec3)
  /-- Places an entity at a position. -/
  | setPosition (entity : EntityRef) (position : Vec3)
  /-- Tells of an attack. -/
  | reportAttack (attacker target : EntityRef)
deriving DecidableEq, Inhabited

/-- A world of states `ω`. -/
class World (ω : Type) where
  /-- Answers a query. -/
  ask : (query : Query) → ω → query.Answer × ω
  /-- Takes an effect. -/
  act : Effect → ω → ω

/-- A world that is not changed by being asked. -/
class QuietWorld (ω : Type) [World ω] : Prop where
  /-- The state after a query is the state before it. -/
  ask_snd (query : Query) (world : ω) : (World.ask query world).2 = world

end Waggle
