import Mathlib.Logic.Function.Basic
import Waggle.Proofs.Dependence

/-!
# The events of a grid world explain it

Whatever is run in a grid world, the events that were added tell what has become of it: replayed
over where the entities stood at first and which of them were defeated, they give where the
entities stand now and which are defeated (`Grid.Explains`). One effect adds at most one event, and
the event explains the effect (`Grid.explains_act`); explanations of one stretch of time after
another join (`Grid.Explains.trans`).

A replay reads nothing of a world but which of its entities are enemies, so it cannot look at the
answer that it is to give.
-/

namespace Waggle

/-- Where entities stand and which of them are defeated, by their handles. -/
structure Standing where
  /-- The cell that an entity stands on, if there is such an entity. -/
  position : EntityRef → Option Vec3
  /-- Whether an entity is an enemy that was attacked. -/
  defeated : EntityRef → Bool

/-- What an event makes of where entities stand and which are defeated, or nothing if it cannot
have happened: only an entity that there is can be moved or placed, and it is moved to the cell at
the offset from where it stands. -/
def GridEvent.replay (enemy : EntityRef → Bool) (standing : Standing) :
    GridEvent → Option Standing
  | .translated entity delta destination =>
    match standing.position entity with
    | some position =>
      if position.offset delta = destination then
        some { standing with
          position := Function.update standing.position entity (some destination) }
      else none
    | none => none
  | .placed entity destination =>
    match standing.position entity with
    | some _ =>
      some { standing with
        position := Function.update standing.position entity (some destination) }
    | none => none
  | .attacked _ target =>
    some { standing with
      defeated := Function.update standing.defeated target
        (standing.defeated target || enemy target) }

/-- What events make of where entities stand and which are defeated, one after the other. -/
def replayAll (enemy : EntityRef → Bool) (standing : Standing) (events : List GridEvent) :
    Option Standing :=
  events.foldlM (GridEvent.replay enemy) standing

/-- What an entity is as long as there is one: its name and whether it is an enemy. -/
def GridEntity.identity (entity : GridEntity) : String × Bool := (entity.name, entity.enemy)

namespace Grid

/-- Whether an entity is an enemy. -/
def isEnemy (grid : Grid) (entity : EntityRef) : Bool :=
  ((grid.entity? entity).map GridEntity.enemy).getD false

/-- Where the entities of a world stand and which of them are defeated. -/
def standing (grid : Grid) : Standing := ⟨grid.position?, grid.isDefeated⟩

/-- What the entities of a world are, in the order of their numbers. -/
def identities (grid : Grid) : List (String × Bool) := grid.entities.map GridEntity.identity

/-- Some events explain what has become of a world: there are the same entities and walls, the
events were added to those before, and replayed they give where the entities stand and which are
defeated. -/
structure Explains (before : Grid) (news : List GridEvent) (after : Grid) : Prop where
  /-- Every entity still has its number, its name and its side. -/
  identities : after.identities = before.identities
  /-- The same cells are closed. -/
  walls : after.walls = before.walls
  /-- The events were added. -/
  events : after.events.toList = before.events.toList ++ news
  /-- The events can have happened, and led to where the world stands. -/
  replayed : replayAll before.isEnemy before.standing news = some after.standing

/-- What an entity is can be told from what all entities are. -/
theorem isEnemy_eq (grid : Grid) (entity : EntityRef) :
    grid.isEnemy entity =
      ((if entity.id = 0 then none else grid.identities[entity.id.toNat - 1]?).map
        Prod.snd).getD false := by
  unfold isEnemy entity? identities
  split
  · rfl
  · rw [List.getElem?_map, Option.map_map]
    rfl

/-- Worlds with the same entities have the same enemies. -/
theorem isEnemy_of_identities {one two : Grid} (same : one.identities = two.identities) :
    one.isEnemy = two.isEnemy := by
  funext entity
  rw [isEnemy_eq, isEnemy_eq, same]

namespace Explains

/-- Nothing explains that nothing has happened. -/
theorem refl (grid : Grid) : grid.Explains [] grid :=
  ⟨rfl, rfl, (List.append_nil _).symm, rfl⟩

/-- What explains one stretch of time and what explains the next explain both. -/
theorem trans {first second third : Grid} {early late : List GridEvent}
    (one : first.Explains early second) (two : second.Explains late third) :
    first.Explains (early ++ late) third := by
  constructor
  · rw [two.identities, one.identities]
  · rw [two.walls, one.walls]
  · rw [two.events, one.events, List.append_assoc]
  · have later := two.replayed
    rw [isEnemy_of_identities one.identities] at later
    unfold replayAll
    rw [List.foldlM_append]
    change (replayAll first.isEnemy first.standing early).bind
      (fun middle => replayAll first.isEnemy middle late) = _
    rw [one.replayed]
    exact later

end Explains

/-- Different handles of entities have different places in the order of numbers. -/
theorem place_ne {one two : EntityRef} (different : one ≠ two) (positive : one.id ≠ 0)
    (alsoPositive : two.id ≠ 0) : one.id.toNat - 1 ≠ two.id.toNat - 1 := by
  have numbers : one.id.toNat ≠ two.id.toNat := by
    intro same
    exact different (congrArg EntityRef.mk (UInt64.toNat.inj same))
  have first : one.id.toNat ≠ 0 := fun zero => positive (UInt64.toNat.inj zero)
  have second : two.id.toNat ≠ 0 := fun zero => alsoPositive (UInt64.toNat.inj zero)
  omega

section Update

variable (grid : Grid) (entity : EntityRef) (change : GridEntity → GridEntity)

/-- A change reaches the entity that it is for. -/
theorem entity?_update_self :
    (grid.update entity change).entity? entity = (grid.entity? entity).map change := by
  unfold update entity?
  by_cases zero : entity.id = 0
  · simp only [if_pos zero, Option.map_none]
  · simp only [if_neg zero, List.getElem?_modify_eq]
    rfl

/-- A change reaches no other entity. -/
theorem entity?_update_of_ne {other : EntityRef} (different : other ≠ entity) :
    (grid.update entity change).entity? other = grid.entity? other := by
  unfold update entity?
  by_cases zero : entity.id = 0
  · simp only [if_pos zero]
  · by_cases otherZero : other.id = 0
    · simp only [if_pos otherZero]
    · have apart := place_ne different.symm zero otherZero
      simp only [if_neg zero, if_neg otherZero, List.getElem?_modify_ne _ _ apart]

/-- A change that leaves what an entity is leaves what all entities are. -/
theorem identities_update (kept : ∀ found, (change found).identity = found.identity) :
    (grid.update entity change).identities = grid.identities := by
  have modified (entities : List GridEntity) (place : Nat) :
      (entities.modify place change).map GridEntity.identity =
        entities.map GridEntity.identity := by
    apply List.ext_getElem?
    intro index
    rw [List.getElem?_map, List.getElem?_map, List.getElem?_modify]
    cases entities[index]? with
    | none => rfl
    | some found =>
      by_cases here : place = index
      · simp [here, kept]
      · simp [here]
  unfold update identities
  split
  · rfl
  · exact modified _ _

/-- A change to an entity is no event. -/
theorem events_update : (grid.update entity change).events = grid.events := by
  unfold update
  split <;> rfl

/-- What is read off the entities changes only for the one that a change is for. -/
theorem reading_update {α : Type} (reading : Option GridEntity → α) :
    (fun other => reading ((grid.update entity change).entity? other)) =
      Function.update (fun other => reading (grid.entity? other)) entity
        (reading ((grid.entity? entity).map change)) := by
  funext other
  by_cases same : other = entity
  · subst same
    rw [Function.update_self, entity?_update_self]
  · rw [Function.update_of_ne same, entity?_update_of_ne grid entity change same]

/-- What is read off the entities and a change leaves alone is the same after it. -/
theorem reading_update_of_kept {α : Type} (reading : Option GridEntity → α)
    (kept : ∀ found : Option GridEntity, reading (found.map change) = reading found) :
    (fun other => reading ((grid.update entity change).entity? other)) =
      fun other => reading (grid.entity? other) := by
  rw [reading_update, kept]
  exact Function.update_eq_self _ _

/-- An entity that is put elsewhere stands there, and nothing else changes. -/
theorem standing_put {found : GridEntity} (destination : Vec3)
    (known : grid.entity? entity = some found) :
    (grid.update entity fun found => { found with position := destination }).standing =
      { grid.standing with
        position := Function.update grid.standing.position entity (some destination) } := by
  have positions := grid.reading_update entity
    (fun found => { found with position := destination }) (Option.map GridEntity.position)
  have defeats := grid.reading_update_of_kept entity
    (fun found => { found with position := destination })
    (fun found => (found.map GridEntity.defeated).getD false)
    (fun found => by cases found <;> rfl)
  rw [known] at positions
  exact congrArg₂ Standing.mk positions defeats

/-- An entity that is attacked is defeated if it is an enemy, and nothing else changes. -/
theorem standing_attack :
    (grid.update entity fun found =>
        { found with defeated := found.defeated || found.enemy }).standing =
      { grid.standing with
        defeated := Function.update grid.standing.defeated entity
          (grid.standing.defeated entity || grid.isEnemy entity) } := by
  have positions := grid.reading_update_of_kept entity
    (fun found => { found with defeated := found.defeated || found.enemy })
    (Option.map GridEntity.position) (fun found => by cases found <;> rfl)
  have defeats := grid.reading_update entity
    (fun found => { found with defeated := found.defeated || found.enemy })
    (fun found => (found.map GridEntity.defeated).getD false)
  have attacked : (((grid.entity? entity).map fun found =>
      { found with defeated := found.defeated || found.enemy }).map
        GridEntity.defeated).getD false = (grid.isDefeated entity || grid.isEnemy entity) := by
    unfold isDefeated isEnemy
    cases grid.entity? entity <;> rfl
  rw [attacked] at defeats
  exact congrArg₂ Standing.mk positions defeats

end Update

/-- An event that was added to a change which leaves what entities are explains the change, if the
change is what the event is replayed as. -/
theorem explains_log {grid : Grid} {entity : EntityRef} {change : GridEntity → GridEntity}
    {event : GridEvent} (kept : ∀ found, (change found).identity = found.identity)
    (replayed : event.replay grid.isEnemy grid.standing =
      some (grid.update entity change).standing) :
    grid.Explains [event] ((grid.update entity change).log event) := by
  constructor
  · exact identities_update grid entity change kept
  · unfold log update
    split <;> rfl
  · unfold log
    rw [events_update]
    exact Array.toList_push
  · unfold replayAll
    rw [List.foldlM_cons, replayed]
    rfl

/-- Every effect is explained by the event that it adds, or adds none and has changed nothing. -/
theorem explains_act (effect : Effect) (grid : Grid) :
    ∃ news, grid.Explains news (World.act effect grid) := by
  cases effect with
  | translate entity delta =>
    change ∃ news, grid.Explains news (grid.translate entity delta)
    unfold translate
    rcases known : grid.entity? entity with _ | found
    · have nowhere : grid.position? entity = none :=
        congrArg (Option.map GridEntity.position) known
      rw [nowhere]
      exact ⟨[], .refl grid⟩
    · have stands : grid.position? entity = some found.position :=
        congrArg (Option.map GridEntity.position) known
      rw [stands]
      refine ⟨[.translated entity delta (found.position.offset delta)],
        explains_log (fun _ => rfl) ?_⟩
      rw [standing_put grid entity _ known]
      simp only [GridEvent.replay, standing, stands, if_pos]
  | setPosition entity destination =>
    change ∃ news, grid.Explains news (grid.place entity destination)
    unfold place
    rcases known : grid.entity? entity with _ | found
    · exact ⟨[], .refl grid⟩
    · have stands : grid.position? entity = some found.position :=
        congrArg (Option.map GridEntity.position) known
      refine ⟨[.placed entity destination], explains_log (fun _ => rfl) ?_⟩
      rw [standing_put grid entity destination known]
      simp only [GridEvent.replay, standing, stands]
  | reportAttack attacker target =>
    refine ⟨[.attacked attacker target], explains_log (fun _ => rfl) ?_⟩
    rw [standing_attack]
    rfl

/-- That some events explain what has become of a world lasts. -/
theorem lasting_explains (before : Grid) :
    Lasting fun after => ∃ news, before.Explains news after := by
  constructor
  · intro query after explained
    rw [QuietWorld.ask_snd]
    exact explained
  · rintro effect after ⟨news, explained⟩
    obtain ⟨more, added⟩ := explains_act effect after
    exact ⟨news ++ more, explained.trans added⟩

end Grid

/-- An event never takes a defeat back. -/
theorem GridEvent.replay_defeated {enemy : EntityRef → Bool} {before after : Standing}
    {event : GridEvent} (replayed : event.replay enemy before = some after) {entity : EntityRef}
    (defeated : before.defeated entity = true) : after.defeated entity = true := by
  cases event with
  | translated moved delta destination =>
    simp only [replay] at replayed
    split at replayed
    · split at replayed
      · cases replayed
        exact defeated
      · cases replayed
    · cases replayed
  | placed moved destination =>
    simp only [replay] at replayed
    split at replayed
    · cases replayed
      exact defeated
    · cases replayed
  | attacked attacker target =>
    cases replayed
    by_cases same : entity = target
    · subst same
      simp only [Function.update_self, defeated, Bool.true_or]
    · simp only [Function.update_of_ne same, defeated]

/-- Events never take a defeat back. -/
theorem replayAll_defeated {enemy : EntityRef → Bool} {before after : Standing}
    {events : List GridEvent} (replayed : replayAll enemy before events = some after)
    {entity : EntityRef} (defeated : before.defeated entity = true) :
    after.defeated entity = true := by
  induction events generalizing before with
  | nil =>
    cases replayed
    exact defeated
  | cons event rest ih =>
    obtain ⟨middle, now, later⟩ := Option.bind_eq_some_iff.mp replayed
    exact ih later (event.replay_defeated now defeated)

/-- Whether an entity is an enemy that is not yet defeated. -/
def GridEntity.opposes (entity : GridEntity) : Bool := entity.enemy && !entity.defeated

namespace Grid

/-- How many enemies are not yet defeated. -/
def enemiesLeft (grid : Grid) : Nat := grid.entities.countP GridEntity.opposes

/-- A change that brings no enemy back leaves no more of them. -/
theorem enemiesLeft_update_le (grid : Grid) (entity : EntityRef)
    {change : GridEntity → GridEntity}
    (fewer : ∀ found, (change found).opposes = true → found.opposes = true) :
    (grid.update entity change).enemiesLeft ≤ grid.enemiesLeft := by
  have modified (entities : List GridEntity) (place : Nat) :
      (entities.modify place change).countP GridEntity.opposes ≤
        entities.countP GridEntity.opposes := by
    induction entities generalizing place with
    | nil => exact Nat.le_of_eq (congrArg _ (List.modify_nil _ _))
    | cons head rest ih =>
      cases place with
      | zero =>
        rw [List.modify_zero_cons, List.countP_cons, List.countP_cons]
        by_cases still : (change head).opposes = true
        · simp only [if_pos still, if_pos (fewer head still), Nat.le_refl]
        · rw [if_neg still]
          exact Nat.le_add_right _ _
      | succ place =>
        rw [List.modify_succ_cons, List.countP_cons, List.countP_cons]
        exact Nat.add_le_add_right (ih place) _
  unfold update enemiesLeft
  split
  · exact Nat.le_refl _
  · exact modified _ _

/-- No effect brings an enemy back. -/
theorem enemiesLeft_act_le (effect : Effect) (grid : Grid) :
    (World.act effect grid).enemiesLeft ≤ grid.enemiesLeft := by
  cases effect with
  | translate entity delta =>
    change (grid.translate entity delta).enemiesLeft ≤ grid.enemiesLeft
    unfold translate
    split
    · exact enemiesLeft_update_le grid entity fun _ still => still
    · exact Nat.le_refl _
  | setPosition entity destination =>
    change (grid.place entity destination).enemiesLeft ≤ grid.enemiesLeft
    unfold place
    split
    · exact enemiesLeft_update_le grid entity fun _ still => still
    · exact Nat.le_refl _
  | reportAttack attacker target =>
    apply enemiesLeft_update_le grid target
    intro found still
    change (found.enemy && !(found.defeated || found.enemy)) = true at still
    have never : (found.enemy && !(found.defeated || found.enemy)) = false := by
      cases found.enemy <;> simp
    rw [never] at still
    cases still

/-- That no more than a number of enemies are left lasts. -/
theorem lasting_enemiesLeft (bound : Nat) :
    Lasting fun grid : Grid => grid.enemiesLeft ≤ bound := by
  constructor
  · intro query grid few
    rw [QuietWorld.ask_snd]
    exact few
  · intro effect grid few
    exact Nat.le_trans (enemiesLeft_act_le effect grid) few

/-- Worlds with the same entities have as many of them. -/
theorem entityCount_all {one two : Grid} (same : one.identities = two.identities) :
    one.entityCount .all = two.entityCount .all := by
  have lengths := congrArg List.length same
  unfold identities at lengths
  rw [List.length_map, List.length_map] at lengths
  unfold entityCount
  rw [lengths]

/-- A world where fewer enemies are left counts fewer. -/
theorem entityCount_enemies_le {one two : Grid} (fewer : one.enemiesLeft ≤ two.enemiesLeft) :
    one.entityCount .enemies ≤ two.entityCount .enemies := by
  rw [Int64.le_iff_toInt_le]
  change (Integer.clamp one.enemiesLeft).toInt ≤ (Integer.clamp two.enemiesLeft).toInt
  rw [Integer.toInt_clamp, Integer.toInt_clamp]
  omega

end Grid

/-- The events of a grid world explain it. After any number of steps of a run, there are the same
entities and walls as at its start, and the events that were added, replayed over where the entities
stood and which were defeated, give where they stand and which are defeated. So during a run the
number of entities stays as it is, the number of enemies does not grow, and what is defeated stays
defeated. -/
theorem Interpreter.events_explain_world (host : Interpreter Grid) (program : Program) :
    let world := fun count => ((host.start program).steps count).2.host.world
    (∀ count, ∃ news, host.world.Explains news (world count)) ∧
    ∀ count more,
      (world (count + more)).entityCount .all = (world count).entityCount .all ∧
      (world (count + more)).entityCount .enemies ≤ (world count).entityCount .enemies ∧
      ∀ entity, (world count).isDefeated entity = true →
        (world (count + more)).isDefeated entity = true := by
  intro world
  constructor
  · intro count
    exact Execution.steps_keep (Grid.lasting_explains host.world) ⟨[], .refl _⟩ count
  · intro count more
    have goesOn := (host.start program).steps_add count more
    obtain ⟨news, explained⟩ := Execution.steps_keep
      (Grid.lasting_explains (world count)) ⟨[], .refl _⟩ more
    have fewer := Execution.steps_keep
      (Grid.lasting_enemiesLeft (world count).enemiesLeft) (Nat.le_refl _) more
    rw [← goesOn] at explained fewer
    refine ⟨Grid.entityCount_all explained.identities, Grid.entityCount_enemies_le fewer, ?_⟩
    intro entity defeated
    exact replayAll_defeated explained.replayed defeated

end Waggle
