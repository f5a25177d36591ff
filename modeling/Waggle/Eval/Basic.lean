import Waggle.Eval.Error
import Waggle.World.Basic

/-!
# Computing over a world

A computation asks the world and acts on it, and may fail; what happened in the world by then
stays. `Eval.Ensures` says that every result of a computation has a property, whatever the
world answers.
-/

namespace Waggle

/-- A computation over a world that may fail. -/
abbrev Eval (ω : Type) (α : Type) := ExceptT RuntimeError (StateM ω) α

/-- Asks the world. -/
def ask {ω : Type} [World ω] (query : Query) : Eval ω query.Answer := fun world =>
  let (answer, world) := World.ask query world
  (.ok answer, world)

/-- Lets an effect happen. -/
def act {ω : Type} [World ω] (effect : Effect) : Eval ω Unit :=
  fun world => (.ok (), World.act effect world)

/-- A result that does not depend on the world. -/
def Eval.ofExcept {ω α : Type} (result : Except RuntimeError α) : Eval ω α :=
  fun world => (result, world)

/-- A property of every result of a computation, in whatever world. -/
def Eval.Ensures {ω α : Type} (computation : Eval ω α) (property : α → Prop) : Prop :=
  ∀ world result after, computation world = (.ok result, after) → property result

namespace Eval

variable {ω α β : Type}

/-- A sequence runs its second part in the world that the first one leaves. -/
theorem bind_apply (computation : Eval ω α) (next : α → Eval ω β) (world : ω) :
    (computation >>= next) world =
      match computation world with
      | (.ok result, after) => next result after
      | (.error error, after) => (.error error, after) := by
  show ExceptT.bind computation next world = _
  simp only [ExceptT.bind, ExceptT.mk, ExceptT.bindCont, bind, StateT.bind]
  rcases computation world with ⟨result | result, after⟩ <;> rfl

/-- What holds of every result of the second part holds of every result of a sequence. -/
theorem Ensures.bind {computation : Eval ω α} {next : α → Eval ω β} {property : β → Prop}
    (ensured : ∀ result, Ensures (next result) property) :
    Ensures (computation >>= next) property := by
  intro world result after ran
  rw [bind_apply] at ran
  split at ran
  · exact ensured _ _ _ _ ran
  · cases ran

/-- What holds of the results of the first part can be used for the second. -/
theorem Ensures.bind_of {computation : Eval ω α} {next : α → Eval ω β} {property : β → Prop}
    {middle : α → Prop} (first : Ensures computation middle)
    (ensured : ∀ result, middle result → Ensures (next result) property) :
    Ensures (computation >>= next) property := by
  intro world result after ran
  rw [bind_apply] at ran
  split at ran
  · rename_i found
    exact ensured _ (first _ _ _ found) _ _ _ ran
  · cases ran

/-- A result that is given has the property if it does. -/
theorem Ensures.pure {value : α} {property : α → Prop} (holds : property value) :
    Ensures (Pure.pure value : Eval ω α) property := by
  intro world result after ran
  cases ran
  exact holds

/-- A failure has no results. -/
theorem Ensures.throw {error : RuntimeError} {property : α → Prop} :
    Ensures (MonadExcept.throw error : Eval ω α) property := by
  intro world result after ran
  cases ran

/-- A result that does not depend on the world has the property if it always does. -/
theorem Ensures.ofExcept {value : Except RuntimeError α} {property : α → Prop}
    (holds : ∀ result, value = .ok result → property result) :
    Ensures (Eval.ofExcept value : Eval ω α) property := by
  intro world result after ran
  cases ran
  exact holds _ rfl

/-- A property of the results of a computation under a function. -/
theorem Ensures.map {computation : Eval ω α} {f : α → β} {property : β → Prop}
    (ensured : Ensures computation fun result => property (f result)) :
    Ensures (f <$> computation) property := by
  rw [← bind_pure_comp]
  exact bind_of ensured fun _ holds => pure holds

end Eval

end Waggle
