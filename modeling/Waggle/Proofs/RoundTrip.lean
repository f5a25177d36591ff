import Mathlib.Data.List.Forall2
import Mathlib.Data.List.Induction
import Waggle.Json.Codecs
import Waggle.Proofs.Rendering

/-!
# Values are read as they are written

What a host stores of a value gives the value back. `Codec.Faithful` states this about trees, with
the levels that a value opens, so that it passes through lists and records: a record is found by
the names of its members (`Json.record?_ofMembers`), and a value of several cases by the word of its
case among them (`Json.tagged?_ofMembers`). The text of a faithful codec is then read as its value,
and a text that was read and written once more stays as it is (`Codec.Lossless`).
-/

namespace Waggle

/-! ### Texts and members -/

/-- A text is read as it is written. -/
@[simp] theorem writtenText?_writeText (text : String) :
    writtenText? (writeText text) = some text := by
  rw [writtenText?, writeText, JsonText.unescape_escape, Option.map_some, String.ofList_toList]

/-- A text is the text that it is written for. -/
@[simp] theorem Json.text?_ofText (text : String) : (ofText text).text? = some text :=
  writtenText?_writeText text

/-- A text is the word that it is written for. -/
@[simp] theorem Json.word?_ofText (text : String) : (ofText text).word? = some text :=
  writtenText?_writeText text

/-- A text that is kept is the word that it is written for. -/
@[simp] theorem Json.keptWord?_ofText (text : String) : (ofText text).keptWord? = some text :=
  writtenText?_writeText text

/-- A text can be kept. -/
@[simp] theorem Json.canKeep_ofText (text : String) (room : Nat) :
    (ofText text).canKeep room = true := by
  rw [ofText, canKeep, writtenText?_writeText, Option.isSome_some]

/-- A text is written in one way only. -/
theorem Json.plain_ofText (text : String) : (ofText text).Plain := .string text.toList

/-- Members with their names as they are written. -/
def writtenMembers (members : List (String × Json)) : List (List Char × Json) :=
  members.map fun (name, value) => (writeText name, value)

/-- Members are written in one way only if their values are. -/
theorem Json.plain_ofMembers {members : List (String × Json)}
    (each : ∀ member ∈ members, member.2.Plain) : (ofMembers members).Plain := by
  apply Json.Plain.object
  · intro member found
    obtain ⟨entry, -, rfl⟩ := List.mem_map.mp found
    exact ⟨entry.1.toList, rfl⟩
  · intro member found
    obtain ⟨entry, inside, rfl⟩ := List.mem_map.mp found
    exact each entry inside

/-- Members are read with the names that they are written with. -/
theorem namedMembers_writtenMembers (members : List (String × Json)) :
    namedMembers (writtenMembers members) = some members := by
  induction members with
  | nil => rfl
  | cons member rest ih =>
    rw [writtenMembers] at ih
    rw [writtenMembers, List.map_cons, namedMembers, writtenText?_writeText, ih]
    rfl

/-- A name that stands once is found. -/
theorem optionalMember_of_mem {members : List (String × Json)}
    (apart : (members.map Prod.fst).Nodup) {name : String} {value : Json}
    (found : (name, value) ∈ members) : optionalMember name members = some (some value) := by
  have alone : members.filter (fun member => member.1 = name) = [(name, value)] := by
    induction members with
    | nil => cases found
    | cons member rest ih =>
      rw [List.map_cons, List.nodup_cons] at apart
      rcases List.mem_cons.mp found with rfl | later
      · have others : rest.filter (fun member => member.1 = name) = [] := by
          refine List.filter_eq_nil_iff.mpr fun other inside same => apart.1 ?_
          exact List.mem_map.mpr ⟨other, inside, of_decide_eq_true same⟩
        rw [List.filter_cons_of_pos (by simp), others]
      · have different : member.1 ≠ name := by
          rintro rfl
          exact apart.1 (List.mem_map.mpr ⟨_, later, rfl⟩)
        rw [List.filter_cons_of_neg (by simpa using different), ih apart.2 later]
  rw [optionalMember, alone]

/-- Names that stand once each are found. -/
theorem requiredMembers_of_mem {members : List (String × Json)}
    (apart : (members.map Prod.fst).Nodup) {names : List String} {values : List Json}
    (each : List.Forall₂ (fun name value => (name, value) ∈ members) names values) :
    requiredMembers names members = some values := by
  induction each with
  | nil => rfl
  | cons found _ ih =>
    rw [requiredMembers] at ih
    rw [requiredMembers, List.mapM_cons, requiredMember, optionalMember_of_mem apart found, ih]
    rfl

/-- A record is read from the values of the members that it is written as. -/
theorem Json.record?_ofMembers {β : Type} (names : List String) (values : List Json)
    (apart : names.Nodup) (same : names.length = values.length) (next : List Json → Option β) :
    ((ofMembers (names.zip values)).record? names >>= next) = next values := by
  have once : ((names.zip values).map Prod.fst).Nodup := by
    rwa [List.map_fst_zip (Nat.le_of_eq same)]
  have each : List.Forall₂ (fun name value => (name, value) ∈ names.zip values) names values :=
    List.forall₂_iff_zip.mpr ⟨same, fun found => found⟩
  change ((namedMembers (writtenMembers (names.zip values))).bind (requiredMembers names)).bind
    next = _
  rw [namedMembers_writtenMembers, Option.bind_some, requiredMembers_of_mem once each,
    Option.bind_some]

/-- Some of the members that are written can be kept if their values can. -/
theorem canKeepMembers_of_subset {room : Nat} {members : List (String × Json)}
    (each : ∀ member ∈ members, member.2.canKeep room = true) {kept : List (List Char × Json)}
    (among : kept ⊆ writtenMembers members) : canKeepMembers room kept = true := by
  induction kept with
  | nil => rw [canKeepMembers]
  | cons member rest ih =>
    obtain ⟨first, others⟩ := List.cons_subset.mp among
    obtain ⟨entry, inside, rfl⟩ := List.mem_map.mp first
    rw [canKeepMembers, writtenText?_writeText, each entry inside, ih others]
    rfl

/-- A value of several cases is told by its word and the other members. -/
theorem Json.tagged?_ofMembers {β : Type} {room : Nat} {tag : String} (word : String)
    (others : List (String × Json)) (fresh : tag ∉ others.map Prod.fst)
    (kept : ∀ member ∈ others, member.2.canKeep (room - 1) = true)
    (next : String × Json → Option β) :
    ((ofMembers ((tag, ofText word) :: others)).tagged? room tag >>= next) =
      next (word, ofMembers others) := by
  have different : ∀ member ∈ others, member.1 ≠ tag := by
    rintro member inside rfl
    exact fresh (List.mem_map.mpr ⟨member, inside, rfl⟩)
  have found : requiredMember tag ((tag, ofText word) :: others) = some (ofText word) := by
    have alone : others.filter (fun member => member.1 = tag) = [] :=
      List.filter_eq_nil_iff.mpr (by simpa using different)
    rw [requiredMember, optionalMember, List.filter_cons_of_pos (by simp), alone]
    rfl
  have rest : (writtenMembers ((tag, ofText word) :: others)).filter
      (fun member => writtenText? member.1 ≠ some tag) = writtenMembers others := by
    rw [writtenMembers, List.map_cons, List.filter_cons_of_neg (by simp), writtenMembers,
      List.filter_eq_self]
    intro member inside
    obtain ⟨entry, original, rfl⟩ := List.mem_map.mp inside
    simpa using different entry original
  change (Json.object (writtenMembers _)).tagged? room tag >>= next = _
  rw [tagged?, namedMembers_writtenMembers]
  simp only [Option.bind_eq_bind, Option.bind_some, found, text?_ofText, rest,
    canKeepMembers_of_subset kept (List.Subset.refl _), if_pos]
  rfl

namespace Codec

variable {α : Type}

/-- What a codec writes is read back wherever so many levels may be opened, and there is one way
only to write it as text. -/
structure Faithful (codec : Codec α) (levels : Nat) : Prop where
  /-- There is one way to write it as text. -/
  plain : ∀ value, (codec.write value).Plain
  /-- It is read back. -/
  read_write : ∀ {room : Nat}, levels ≤ room →
    ∀ value, codec.read room (codec.write value) = some value

/-- Texts are read back. -/
theorem text_faithful : text.Faithful 0 := ⟨Json.plain_ofText, fun _ => Json.text?_ofText⟩

/-- Truth values are read back. -/
theorem bool_faithful : bool.Faithful 0 := ⟨.bool, fun _ _ => rfl⟩

/-- Integers are read back. -/
theorem int64_faithful : int64.Faithful 0 where
  plain number := by
    obtain ⟨low, high⟩ := Integer.inRange number
    refine .integer low ?_
    unfold Integer.greatest at high
    rw [UInt64.size]
    omega
  read_write _ number := Integer.fit?_eq_some_iff.mpr rfl

/-- A natural number below the bound is read back. -/
theorem readNat_of_lt {bound number : Nat} (small : number < bound) :
    readNat bound (.number (.integer number)) = some number := by
  have read : (Json.number (.integer number)).int? = some (Int.ofNat number) := rfl
  rw [readNat, read]
  exact if_pos small

/-- A natural number that a word holds is written in one way only. -/
theorem plain_natural {number : Nat} (small : number < UInt64.size) :
    (Json.number (.integer number)).Plain := by
  refine .integer ?_ (by exact_mod_cast small)
  unfold Integer.least
  omega

/-- Words of sixteen bits are read back. -/
theorem uint16_faithful : uint16.Faithful 0 where
  plain number := plain_natural (Nat.lt_trans number.toNat_lt_size (by decide))
  read_write _ number := by
    change (readNat UInt16.size (.number (.integer number.toNat))).map UInt16.ofNat = _
    rw [readNat_of_lt number.toNat_lt_size, Option.map_some, UInt16.ofNat_toNat]

/-- Words of 32 bits are read back. -/
theorem uint32_faithful : uint32.Faithful 0 where
  plain number := plain_natural (Nat.lt_trans number.toNat_lt_size (by decide))
  read_write _ number := by
    change (readNat UInt32.size (.number (.integer number.toNat))).map UInt32.ofNat = _
    rw [readNat_of_lt number.toNat_lt_size, Option.map_some, UInt32.ofNat_toNat]

/-- Words of 64 bits are read back. -/
theorem uint64_faithful : uint64.Faithful 0 where
  plain number := plain_natural number.toNat_lt_size
  read_write _ number := by
    change (readNat UInt64.size (.number (.integer number.toNat))).map UInt64.ofNat = _
    rw [readNat_of_lt number.toNat_lt_size, Option.map_some, UInt64.ofNat_toNat]

/-- One of a few values is read back if its word tells it. -/
theorem ofWords_faithful {values : List α} {word : α → String}
    (told : ∀ value, values.find? (fun other => word other = word value) = some value) :
    (ofWords values word).Faithful 0 where
  plain value := Json.plain_ofText _
  read_write _ value := by
    change (Json.ofText (word value)).word?.bind
      (fun found => values.find? fun other => word other = found) = _
    rw [Json.word?_ofText]
    exact told value

/-- One of a few values is read back from a member that was kept if its word tells it. -/
theorem ofKeptWords_faithful {values : List α} {word : α → String}
    (told : ∀ value, values.find? (fun other => word other = word value) = some value) :
    (ofKeptWords values word).Faithful 0 where
  plain value := Json.plain_ofText _
  read_write _ value := by
    change (Json.ofText (word value)).keptWord?.bind
      (fun found => values.find? fun other => word other = found) = _
    rw [Json.keptWord?_ofText]
    exact told value

/-- Lists are read back if their items are; they open one level more. -/
theorem list_faithful {codec : Codec α} {levels : Nat} (faithful : codec.Faithful levels) :
    codec.list.Faithful (levels + 1) where
  plain values := by
    refine .array fun item member => ?_
    obtain ⟨value, -, rfl⟩ := List.mem_map.mp member
    exact faithful.plain value
  read_write {room} enough values := by
    change (values.map codec.write).mapM (codec.read (room - 1)) = some values
    induction values with
    | nil => rfl
    | cons value rest ih =>
      rw [List.map_cons, List.mapM_cons, faithful.read_write (by omega) value, ih]
      rfl

/-- Values that are wrapped are read back if what they wrap is. -/
theorem map_faithful {β : Type} {codec : Codec α} {levels : Nat}
    (faithful : codec.Faithful levels) {wrap : α → β} {unwrap : β → α}
    (inverse : ∀ value, wrap (unwrap value) = value) :
    (codec.map wrap unwrap).Faithful levels where
  plain value := faithful.plain (unwrap value)
  read_write enough value := by
    change (codec.read _ (codec.write (unwrap value))).map wrap = some value
    rw [faithful.read_write enough, Option.map_some, inverse]

/-- A text that is read and written once more. -/
def rewrite (codec : Codec α) (text : String) : Option String :=
  (codec.decode text).map codec.encode

/-- Nothing is lost between a value and its text. -/
structure Lossless (codec : Codec α) : Prop where
  /-- The text of a value is read as that value. -/
  decode_encode : ∀ value, codec.decode (codec.encode value) = some value
  /-- A text that was read and written once more stays as it is when that is done again. -/
  rewrite_stable : ∀ {text again}, codec.rewrite text = some again →
    codec.rewrite again = some again

/-- Nothing is lost by a faithful codec whose values open no more levels than a text may. -/
theorem Faithful.lossless {codec : Codec α} {levels : Nat} (faithful : codec.Faithful levels)
    (enough : levels ≤ maxJsonLevels) : codec.Lossless := by
  have back (value : α) : codec.decode (codec.encode value) = some value := by
    rw [decode, encode, String.toList_ofList, Json.parse_render (faithful.plain value)]
    exact faithful.read_write enough value
  constructor
  · exact back
  · intro text again written
    obtain ⟨value, -, rfl⟩ := Option.map_eq_some_iff.mp written
    rw [rewrite, back, Option.map_some]

end Codec

/-! ### Words and numbers that stand for values -/

/-- The word of a direction tells it. -/
theorem Direction.find?_word (direction : Direction) :
    Direction.all.find? (fun other => other.word = direction.word) = some direction := by
  cases direction <;> decide

/-- The word of a kind of failure tells it. -/
theorem FailureKind.find?_word (kind : FailureKind) :
    FailureKind.all.find? (fun other => other.word = kind.word) = some kind := by
  cases kind <;> decide

/-- Directions are read back. -/
theorem Direction.codec_faithful : Direction.codec.Faithful 0 := Codec.ofWords_faithful find?_word

/-- Kinds of failure are read back from a member that was kept. -/
theorem FailureKind.keptCodec_faithful : FailureKind.keptCodec.Faithful 0 :=
  Codec.ofKeptWords_faithful find?_word

/-- Stages are read back. -/
theorem Stage.codec_faithful : Stage.codec.Faithful 0 :=
  Codec.ofWords_faithful fun stage => by cases stage <;> decide

/-- Entities are read back. -/
theorem EntityRef.codec_faithful : EntityRef.codec.Faithful 0 :=
  Codec.map_faithful Codec.uint64_faithful fun _ => rfl

/-- Error codes are read back. -/
theorem ErrorCode.codec_faithful : ErrorCode.codec.Faithful 0 :=
  Codec.map_faithful Codec.uint16_faithful fun _ => rfl

/-- Consoles are read back. -/
theorem Console.codec_faithful : Console.codec.Faithful 1 :=
  Codec.map_faithful (Codec.list_faithful Codec.text_faithful) fun _ => rfl

/-! ### Records and values of several cases -/

/-- A number that is an integer can be kept. -/
@[simp] theorem Json.canKeep_integer (value : Int) (room : Nat) :
    (number (.integer value)).canKeep room = true := by
  rw [canKeep]
  rfl

/-- Vectors are read back. -/
theorem Vec3.codec_faithful : Vec3.codec.Faithful 1 where
  plain vector := by
    refine Json.plain_ofMembers ?_
    simpa using ⟨Codec.int64_faithful.plain vector.x, Codec.int64_faithful.plain vector.y,
      Codec.int64_faithful.plain vector.z⟩
  read_write {room} _ vector := by
    refine (Json.record?_ofMembers ["x", "y", "z"] [Codec.int64.write vector.x,
      Codec.int64.write vector.y, Codec.int64.write vector.z] (by decide) rfl _).trans ?_
    simp only [Codec.int64_faithful.read_write (Nat.zero_le room)]
    rfl

/-- A vector can be kept. -/
theorem Vec3.canKeep_write (vector : Vec3) {room : Nat} (enough : 0 < room) :
    (codec.write vector).canKeep room = true := by
  change (Json.object (writtenMembers _)).canKeep room = true
  rw [Json.canKeep, canKeepMembers_of_subset (by simp [Codec.int64]) (List.Subset.refl _),
    decide_eq_true enough]
  rfl

namespace Span

/-- A span is read back from its parts. -/
theorem ofParts_members (room : Nat) (span : Span) :
    ofParts room (span.members.map Prod.snd) = some span := by
  simp only [members, List.map_cons, List.map_nil, ofParts,
    Codec.uint32_faithful.read_write (Nat.zero_le room)]
  rfl

/-- The parts of a span are written in one way only. -/
theorem plain_members (span : Span) : ∀ member ∈ span.members, member.2.Plain := by
  simpa [members] using ⟨Codec.uint32_faithful.plain span.start.line,
    Codec.uint32_faithful.plain span.start.column, Codec.uint32_faithful.plain span.stop.line,
    Codec.uint32_faithful.plain span.stop.column⟩

/-- Spans are read back. -/
theorem codec_faithful : codec.Faithful 1 where
  plain span := Json.plain_ofMembers span.plain_members
  read_write {room} _ span :=
    (Json.record?_ofMembers memberNames (span.members.map Prod.snd) (by decide) rfl _).trans
      (ofParts_members room span)

end Span

namespace Value

/-- What a value is besides its type is written in one way only. -/
theorem plain_content? (value : Value) : ∀ json ∈ value.content?, json.Plain := by
  cases value with
  | int number => rintro _ ⟨⟩; exact Codec.int64_faithful.plain number
  | bool truth => rintro _ ⟨⟩; exact Codec.bool_faithful.plain truth
  | direction heading => rintro _ ⟨⟩; exact Direction.codec_faithful.plain heading
  | entity handle => rintro _ ⟨⟩; exact EntityRef.codec_faithful.plain handle
  | null => exact nofun

/-- A value is read back from its type and what else it is. -/
theorem ofContent_content? (room : Nat) (value : Value) :
    ofContent Direction.codec room value.typeName value.content? = some value := by
  cases value with
  | int number =>
    exact congrArg (Option.map int) (Codec.int64_faithful.read_write (Nat.zero_le room) number)
  | bool truth => rfl
  | direction heading =>
    exact congrArg (Option.map direction)
      (Direction.codec_faithful.read_write (Nat.zero_le room) heading)
  | entity handle =>
    exact congrArg (Option.map entity)
      (EntityRef.codec_faithful.read_write (Nat.zero_le room) handle)
  | null => rfl

/-- Values are read back. -/
theorem codec_faithful : Value.codec.Faithful 1 where
  plain value := by
    refine Json.plain_ofMembers ?_
    simpa using ⟨Json.plain_ofText value.typeName, value.plain_content?⟩
  read_write {room} _ value := by
    let members := ("type", Json.ofText value.typeName) ::
      value.content?.toList.map fun json => ("value", json)
    have type : requiredMember "type" members = some (.ofText value.typeName) := by
      cases found : value.content? <;> simp [members, found, requiredMember, optionalMember]
    have content : optionalMember "value" members = some value.content? := by
      cases found : value.content? <;> simp [members, found, optionalMember]
    change (do
      let members ← namedMembers (writtenMembers members)
      let typeName ← (← requiredMember "type" members).word?
      let directions := if contentFirst members then Direction.keptCodec else Direction.codec
      ofContent directions room typeName (← optionalMember "value" members)) = _
    simp only [namedMembers_writtenMembers, Option.bind_eq_bind, Option.bind_some, type,
      Json.word?_ofText, content]
    exact ofContent_content? room value

end Value

/-- Outcomes are read back. -/
theorem RunOutcome.codec_faithful : RunOutcome.codec.Faithful 1 where
  plain outcome := by
    cases outcome with
    | completed => exact Json.plain_ofMembers (by simpa using Json.plain_ofText _)
    | aborted kind message =>
      refine Json.plain_ofMembers ?_
      simpa using ⟨Json.plain_ofText _, FailureKind.keptCodec_faithful.plain kind,
        Json.plain_ofText _⟩
  read_write {room} _ outcome := by
    cases outcome with
    | completed =>
      exact (Json.tagged?_ofMembers "completed" [] (by simp) (by simp) _).trans rfl
    | aborted kind message =>
      refine (Json.tagged?_ofMembers "aborted" [("kind", FailureKind.codec.write kind),
        ("message", .ofText message)] (by simp) (by simp [FailureKind.codec, Codec.ofWords])
        _).trans ?_
      refine (Json.record?_ofMembers ["kind", "message"]
        [FailureKind.codec.write kind, .ofText message] (by decide) rfl _).trans ?_
      -- Both codecs of a kind write it alike, and a member that was kept is read by the second.
      have read : FailureKind.keptCodec.read room (FailureKind.codec.write kind) = some kind :=
        FailureKind.keptCodec_faithful.read_write (Nat.zero_le room) kind
      simp only [read, Json.text?_ofText]
      rfl

/-- Events are read back. -/
theorem GridEvent.codec_faithful : GridEvent.codec.Faithful 2 where
  plain event := by
    cases event with
    | translated entity delta destination =>
      refine Json.plain_ofMembers ?_
      simpa using ⟨Json.plain_ofText _, EntityRef.codec_faithful.plain entity,
        Vec3.codec_faithful.plain delta, Vec3.codec_faithful.plain destination⟩
    | placed entity destination =>
      refine Json.plain_ofMembers ?_
      simpa using ⟨Json.plain_ofText _, EntityRef.codec_faithful.plain entity,
        Vec3.codec_faithful.plain destination⟩
    | attacked attacker target =>
      refine Json.plain_ofMembers ?_
      simpa using ⟨Json.plain_ofText _, EntityRef.codec_faithful.plain attacker,
        EntityRef.codec_faithful.plain target⟩
  read_write {room} enough event := by
    have entities := EntityRef.codec_faithful.read_write (Nat.zero_le room)
    have vectors := Vec3.codec_faithful.read_write (Nat.le_of_succ_le enough)
    have keepEntity (entity : EntityRef) :
        (EntityRef.codec.write entity).canKeep (room - 1) = true :=
      Json.canKeep_integer _ _
    have keepVector (vector : Vec3) : (Vec3.codec.write vector).canKeep (room - 1) = true :=
      vector.canKeep_write (by omega)
    cases event with
    | translated entity delta destination =>
      refine (Json.tagged?_ofMembers "translated" [("entity", EntityRef.codec.write entity),
        ("delta", Vec3.codec.write delta), ("to", Vec3.codec.write destination)] (by simp)
        (by simp [keepEntity, keepVector]) _).trans ?_
      refine (Json.record?_ofMembers ["entity", "delta", "to"] [EntityRef.codec.write entity,
        Vec3.codec.write delta, Vec3.codec.write destination] (by decide) rfl _).trans ?_
      simp only [entities, vectors]
      rfl
    | placed entity destination =>
      refine (Json.tagged?_ofMembers "placed" [("entity", EntityRef.codec.write entity),
        ("to", Vec3.codec.write destination)] (by simp) (by simp [keepEntity, keepVector])
        _).trans ?_
      refine (Json.record?_ofMembers ["entity", "to"] [EntityRef.codec.write entity,
        Vec3.codec.write destination] (by decide) rfl _).trans ?_
      simp only [entities, vectors]
      rfl
    | attacked attacker target =>
      refine (Json.tagged?_ofMembers "attacked" [("attacker", EntityRef.codec.write attacker),
        ("target", EntityRef.codec.write target)] (by simp) (by simp [keepEntity]) _).trans ?_
      refine (Json.record?_ofMembers ["attacker", "target"] [EntityRef.codec.write attacker,
        EntityRef.codec.write target] (by decide) rfl _).trans ?_
      simp only [entities]
      rfl

namespace Diagnostic

/-- The members that a diagnostic is written as. -/
def members (diagnostic : Diagnostic) : List (String × Json) :=
  [("file", .ofText diagnostic.file), ("code", ErrorCode.codec.write diagnostic.code),
    ("category", Stage.codec.write diagnostic.stage), ("message", .ofText diagnostic.message)] ++
    diagnostic.span.members ++ [("source_line", .ofText diagnostic.sourceLine)]

/-- Diagnostics are read back. -/
theorem codec_faithful : Diagnostic.codec.Faithful 1 where
  plain diagnostic := by
    apply Json.plain_ofMembers
    rw [List.forall_mem_append, List.forall_mem_append]
    refine ⟨⟨?_, diagnostic.span.plain_members⟩, ?_⟩
    · simpa using ⟨Json.plain_ofText diagnostic.file,
        ErrorCode.codec_faithful.plain diagnostic.code,
        Stage.codec_faithful.plain diagnostic.stage, Json.plain_ofText diagnostic.message⟩
    · simpa using Json.plain_ofText diagnostic.sourceLine
  read_write {room} enough diagnostic := by
    have apart : (diagnostic.members.map Prod.fst).Nodup := by
      change ["file", "code", "category", "message", "line", "column", "end_line", "end_column",
        "source_line"].Nodup
      decide
    have parts : requiredMembers Span.memberNames diagnostic.members =
        some (diagnostic.span.members.map Prod.snd) := by
      refine requiredMembers_of_mem apart ?_
      simp [Span.memberNames, Span.members, members]
    have own : requiredMembers ownNames diagnostic.members =
        some [.ofText diagnostic.file, ErrorCode.codec.write diagnostic.code,
          Stage.codec.write diagnostic.stage, .ofText diagnostic.message,
          .ofText diagnostic.sourceLine] := by
      refine requiredMembers_of_mem apart ?_
      simp [ownNames, members]
    have kept : canKeepMembers (room - 1)
        ((writtenMembers diagnostic.members).filter isForeign) = true := by
      refine canKeepMembers_of_subset ?_ (List.filter_sublist.subset)
      simp [members, Span.members, Codec.uint32, ErrorCode.codec, Codec.map, Codec.uint16,
        Stage.codec, Codec.ofWords]
    change (do
      let named ← namedMembers (writtenMembers diagnostic.members)
      let span ← Span.ofParts room (← requiredMembers Span.memberNames named)
      if canKeepMembers (room - 1) ((writtenMembers diagnostic.members).filter isForeign) then
        ofParts room span (← requiredMembers ownNames named)
      else
        none) = _
    simp only [namedMembers_writtenMembers, Option.bind_eq_bind, Option.bind_some, parts, own,
      Span.ofParts_members, kept, if_pos, ofParts, Json.text?_ofText,
      ErrorCode.codec_faithful.read_write (Nat.zero_le room),
      Stage.codec_faithful.read_write (Nat.zero_le room)]
    rfl

end Diagnostic

/-- Collections of diagnostics are read back. -/
theorem Diagnostics.codec_faithful : Diagnostics.codec.Faithful 3 where
  plain diagnostics := by
    refine Json.plain_ofMembers ?_
    simpa using ⟨(Codec.list_faithful Diagnostic.codec_faithful).plain diagnostics.stored,
      Codec.uint64_faithful.plain diagnostics.total⟩
  read_write {room} enough diagnostics := by
    refine (Json.record?_ofMembers ["errors", "total_errors"]
      [Diagnostic.codec.list.write diagnostics.stored, Codec.uint64.write diagnostics.total]
      (by decide) rfl _).trans ?_
    simp only [
      (Codec.list_faithful Diagnostic.codec_faithful).read_write (by omega : 2 ≤ room - 1),
      Codec.uint64_faithful.read_write (Nat.zero_le room)]
    rfl

/-- A binding of a name after all others is put at the end. -/
theorem insertBinding_of_lt {name : String} {value : Value} {entries : List (String × Value)}
    (last : ∀ binding ∈ entries, binding.1 < name) :
    insertBinding name value entries = entries ++ [(name, value)] := by
  induction entries with
  | nil => rfl
  | cons head rest ih =>
    obtain ⟨other, bound⟩ := head
    obtain ⟨before, others⟩ := List.forall_mem_cons.mp last
    rw [insertBinding, if_neg (String.lt_asymm before), if_neg (String.ne_of_lt before).symm,
      ih others, List.cons_append]

namespace Environment

/-- The bindings of an environment, put in one after the other, are that environment. -/
theorem ofList_entries (environment : Environment) : ofList environment.entries = environment := by
  obtain ⟨entries, ordered⟩ := environment
  dsimp only
  induction entries using List.reverseRecOn with
  | nil => rfl
  | append_singleton entries binding ih =>
    obtain ⟨before, -, last⟩ := List.pairwise_append.mp ordered
    rw [ofList] at ih ⊢
    rw [List.foldl_append, ih before]
    simp only [List.foldl_cons, List.foldl_nil, insert, mk.injEq]
    exact insertBinding_of_lt fun other member => last other member binding List.mem_cons_self

/-- Bindings are read back. -/
theorem codec_faithful : codec.Faithful 2 where
  plain environment := by
    refine Json.plain_ofMembers ?_
    intro member inside
    obtain ⟨binding, -, rfl⟩ := List.mem_map.mp inside
    exact Value.codec_faithful.plain binding.2
  read_write {room} enough environment := by
    have values (bindings : List (String × Value)) :
        (bindings.map fun binding => (binding.1, Value.codec.write binding.2)).mapM (fun member =>
          (Value.codec.read (room - 1) member.2).map fun value => (member.1, value)) =
            some bindings := by
      induction bindings with
      | nil => rfl
      | cons binding rest ih =>
        rw [List.map_cons, List.mapM_cons, ih, Value.codec_faithful.read_write (by omega)]
        rfl
    change (do
      let members ← namedMembers (writtenMembers
        (environment.entries.map fun binding : String × Value =>
          (binding.1, Value.codec.write binding.2)))
      let bindings ← members.mapM fun member : String × Json =>
        (Value.codec.read (room - 1) member.2).map fun value => (member.1, value)
      return ofList bindings) = _
    simp only [namedMembers_writtenMembers, Option.bind_eq_bind, Option.bind_some, values]
    exact congrArg some environment.ofList_entries

end Environment

/-- Reports are read back. -/
theorem RunReport.codec_faithful : RunReport.codec.Faithful 4 where
  plain report := by
    refine Json.plain_ofMembers ?_
    simpa using ⟨Codec.bool_faithful.plain report.success,
      RunOutcome.codec_faithful.plain report.outcome, Console.codec_faithful.plain report.console,
      Environment.codec_faithful.plain report.bindings,
      Diagnostics.codec_faithful.plain report.errors⟩
  read_write {room} enough report := by
    refine (Json.record?_ofMembers ["success", "outcome", "console", "bindings", "errors"]
      [Codec.bool.write report.success, RunOutcome.codec.write report.outcome,
        Console.codec.write report.console, Environment.codec.write report.bindings,
        Diagnostics.codec.write report.errors] (by decide) rfl _).trans ?_
    simp only [Codec.bool_faithful.read_write (Nat.zero_le (room - 1)),
      RunOutcome.codec_faithful.read_write (by omega : 1 ≤ room - 1),
      Console.codec_faithful.read_write (by omega : 1 ≤ room - 1),
      Environment.codec_faithful.read_write (by omega : 2 ≤ room - 1),
      Diagnostics.codec_faithful.read_write (by omega : 3 ≤ room - 1)]
    rfl

/-! ### The texts that hosts store -/

/-- Nothing is lost between a report, or any part of one, and its text, whatever it holds. -/
theorem codecs_lossless :
    RunReport.codec.Lossless ∧ Value.codec.Lossless ∧ Vec3.codec.Lossless ∧
      Span.codec.Lossless ∧ Diagnostic.codec.Lossless ∧ Diagnostics.codec.Lossless ∧
      RunOutcome.codec.Lossless ∧ GridEvent.codec.Lossless ∧ Console.codec.Lossless :=
  ⟨RunReport.codec_faithful.lossless (by decide), Value.codec_faithful.lossless (by decide),
    Vec3.codec_faithful.lossless (by decide), Span.codec_faithful.lossless (by decide),
    Diagnostic.codec_faithful.lossless (by decide),
    Diagnostics.codec_faithful.lossless (by decide),
    RunOutcome.codec_faithful.lossless (by decide),
    GridEvent.codec_faithful.lossless (by decide), Console.codec_faithful.lossless (by decide)⟩

end Waggle
