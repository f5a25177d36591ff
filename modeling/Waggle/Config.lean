import Waggle.Text.Numeral

/-!
# Settings

What a host can set: the name that the actor is bound to, and how long a paced run waits
between two steps.
-/

namespace Waggle

/-- The settings of an interpreter. -/
structure Config where
  /-- The name of the entity that acts where a script names none. -/
  actorBinding : String := "Player"
  /-- The pause of a paced run, in milliseconds. -/
  pacingDelayMs : UInt64 := 500
deriving DecidableEq, Inhabited

/-- Why settings are refused. -/
inductive ConfigError where
  /-- The text is not the JSON of settings. -/
  | malformed
  /-- A setting has a value that it cannot have. -/
  | invalidValue (field reason : String)
deriving DecidableEq, Inhabited

/-- A refusal of settings for a reader; what is malformed is not told. -/
def ConfigError.message : ConfigError → String
  | .malformed => "invalid configuration JSON"
  | .invalidValue field reason => "invalid value for '" ++ field ++ "': " ++ reason

/-- Settings that an interpreter can use: the actor has a name. -/
def Config.validate (config : Config) : Except ConfigError Config :=
  if config.actorBinding.isEmpty then .error (.invalidValue "actor_binding" "must not be empty")
  else .ok config

end Waggle
