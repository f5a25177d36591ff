import Waggle.Value

/-!
# Bindings

The names that a script has assigned, each with its value, in the order of their characters.
There is one table for a whole run: blocks open no scope of their own. Since the order is kept
strictly, a table is determined by what its names are bound to.
-/

namespace Waggle

/-- Puts a binding into its place among ordered ones, instead of one for the same name. -/
def insertBinding (name : String) (value : Value) :
    List (String × Value) → List (String × Value)
  | [] => [(name, value)]
  | (other, bound) :: rest =>
    if name < other then (name, value) :: (other, bound) :: rest
    else if name = other then (name, value) :: rest
    else (other, bound) :: insertBinding name value rest

/-- A binding after an insertion is the new one or an old one. -/
theorem mem_insertBinding {name : String} {value : Value} {binding : String × Value}
    {entries : List (String × Value)} (member : binding ∈ insertBinding name value entries) :
    binding = (name, value) ∨ binding ∈ entries := by
  induction entries with
  | nil => simpa [insertBinding] using member
  | cons head rest ih =>
    obtain ⟨other, bound⟩ := head
    rw [insertBinding] at member
    split at member
    · simpa using member
    · split at member
      · rcases List.mem_cons.mp member with new | old
        · exact .inl new
        · exact .inr (List.mem_cons_of_mem _ old)
      · rcases List.mem_cons.mp member with old | later
        · exact .inr (old ▸ List.mem_cons_self)
        · exact (ih later).imp_right (List.mem_cons_of_mem _)

/-- An insertion keeps strict order. -/
theorem pairwise_insertBinding {name : String} {value : Value} {entries : List (String × Value)}
    (ordered : entries.Pairwise fun left right => left.1 < right.1) :
    (insertBinding name value entries).Pairwise fun left right => left.1 < right.1 := by
  induction entries with
  | nil => simp [insertBinding]
  | cons head rest ih =>
    obtain ⟨other, bound⟩ := head
    obtain ⟨first, later⟩ := List.pairwise_cons.mp ordered
    rw [insertBinding]
    split
    · rename_i below
      refine List.pairwise_cons.mpr ⟨fun binding member => ?_, ordered⟩
      rcases List.mem_cons.mp member with same | after
      · exact same ▸ below
      · exact String.lt_trans below (first binding after)
    · split
      · rename_i same
        subst same
        exact List.pairwise_cons.mpr ⟨first, later⟩
      · rename_i notBelow different
        refine List.pairwise_cons.mpr ⟨fun binding member => ?_, ih later⟩
        rcases mem_insertBinding member with new | old
        · have above : ¬ name ≤ other := fun le =>
            different (String.le_antisymm le (String.not_lt.mp notBelow))
          exact new ▸ String.not_le.mp above
        · exact first binding old

/-- The bindings of a run. -/
structure Environment where
  /-- The names and their values. -/
  entries : List (String × Value)
  /-- Each name stands before the greater ones, and once. -/
  ordered : entries.Pairwise fun left right => left.1 < right.1
deriving DecidableEq

namespace Environment

/-- No bindings. -/
def empty : Environment := ⟨[], .nil⟩

instance : Inhabited Environment := ⟨empty⟩

/-- The value of a name. -/
def get? (environment : Environment) (name : String) : Option Value :=
  environment.entries.lookup name

/-- Binds a name. -/
def insert (environment : Environment) (name : String) (value : Value) : Environment :=
  ⟨insertBinding name value environment.entries, pairwise_insertBinding environment.ordered⟩

/-- Unbinds a name. -/
def erase (environment : Environment) (name : String) : Environment :=
  ⟨environment.entries.filter fun binding => binding.1 != name,
    environment.ordered.sublist List.filter_sublist⟩

/-- Binds a name and returns what it was bound to. -/
def assign (environment : Environment) (name : String) (value : Value) :
    Option Value × Environment :=
  (environment.get? name, environment.insert name value)

/-- Unbinds a name and returns what it was bound to. -/
def remove (environment : Environment) (name : String) : Option Value × Environment :=
  (environment.get? name, environment.erase name)

/-- Whether a name is bound. -/
def contains (environment : Environment) (name : String) : Bool :=
  (environment.get? name).isSome

/-- The bound names, in order. -/
def names (environment : Environment) : List String := environment.entries.map Prod.fst

/-- How many names are bound. -/
def size (environment : Environment) : Nat := environment.entries.length

/-- Whether no name is bound. -/
def isEmpty (environment : Environment) : Bool := environment.entries.isEmpty

/-- The bindings of a list, a later one instead of an earlier one for the same name. -/
def ofList (bindings : List (String × Value)) : Environment :=
  bindings.foldl (fun environment binding => environment.insert binding.1 binding.2) empty

end Environment

/-- A name is bound to what was inserted for it. -/
theorem lookup_insertBinding_self (name : String) (value : Value)
    (entries : List (String × Value)) :
    (insertBinding name value entries).lookup name = some value := by
  induction entries with
  | nil => simp [insertBinding]
  | cons head rest ih =>
    obtain ⟨other, bound⟩ := head
    rw [insertBinding]
    split
    · simp
    · split
      · simp
      · rename_i different
        have apart : (name == other) = false := beq_false_of_ne different
        simp [List.lookup_cons, apart, ih]

/-- An insertion changes no other name. -/
theorem lookup_insertBinding_of_ne {name other : String} (value : Value)
    (entries : List (String × Value)) (different : other ≠ name) :
    (insertBinding name value entries).lookup other = entries.lookup other := by
  have apart : (other == name) = false := beq_false_of_ne different
  induction entries with
  | nil => simp [insertBinding, List.lookup_cons, apart]
  | cons head rest ih =>
    obtain ⟨key, bound⟩ := head
    rw [insertBinding]
    split
    · simp [List.lookup_cons, apart]
    · split
      · rename_i same
        subst same
        simp [List.lookup_cons, apart]
      · simp [List.lookup_cons, ih]

/-- A name is bound to what was assigned to it. -/
@[simp] theorem Environment.get?_insert_self (environment : Environment) (name : String)
    (value : Value) : (environment.insert name value).get? name = some value :=
  lookup_insertBinding_self name value environment.entries

/-- An assignment changes no other name. -/
theorem Environment.get?_insert_of_ne (environment : Environment) {name other : String}
    (value : Value) (different : other ≠ name) :
    (environment.insert name value).get? other = environment.get? other :=
  lookup_insertBinding_of_ne value environment.entries different

end Waggle
