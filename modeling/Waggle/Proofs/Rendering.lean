import Waggle.Json.Printer
import Waggle.Json.Reader

/-!
# Trees are read as they are written

Reading a JSON text undoes writing it (`Json.parse_render`). This holds for the trees that are
written in one way only: their strings are escaped as texts are, and their numbers are integers that
a word holds. Each part of the reader is met where its text is followed by something that may come
after it, since a number ends only where no further digit, point or exponent follows.
-/

namespace Waggle

/-! ### Strings -/

namespace JsonText

/-- The digits of a control character denote it. -/
theorem unit?_control : ∀ code < 0x20,
    unit? '0' '0' (Numeral.digit (code / 16)) (Numeral.digit (code % 16)) = some code := by
  decide

/-- A character is written by an escape of one letter, or by the digits of a control character, or
as it is. -/
theorem escapeCharacter_cases (character : Char) :
    (∃ letter, letter ≠ 'u' ∧ shortEscape? letter = some character ∧
      escapeCharacter character = ['\\', letter]) ∨
    (∃ a b c d, unit? a b c d = some character.toNat ∧ character.toNat < 0x20 ∧
      escapeCharacter character = ['\\', 'u', a, b, c, d]) ∨
    (character ≠ '"' ∧ character ≠ '\\' ∧ ¬character.toNat < 0x20 ∧
      escapeCharacter character = [character]) := by
  unfold escapeCharacter
  split
  case h_8 quote backslash _ _ _ _ _ =>
    split
    · rename_i control
      exact .inr (.inl ⟨_, _, _, _, unit?_control _ control, control, rfl⟩)
    · rename_i seen
      exact .inr (.inr ⟨quote, backslash, seen, rfl⟩)
  all_goals exact .inl ⟨_, by decide, rfl, rfl⟩

/-- What a character is written as is read as that character. -/
theorem unescape_escapeCharacter (character : Char) (rest : List Char) :
    unescape (escapeCharacter character ++ rest) = (unescape rest).map (character :: ·) := by
  rcases escapeCharacter_cases character with
    ⟨letter, other, short, written⟩ | ⟨a, b, c, d, digits, control, written⟩ |
      ⟨-, backslash, -, written⟩
  · rw [written, List.cons_append, List.cons_append, List.nil_append, unescape, short]
    · cases unescape rest <;> rfl
    · simp [other]
  · have high : isHighSurrogate character.toNat = false := by simp [isHighSurrogate]; omega
    have low : isLowSurrogate character.toNat = false := by simp [isLowSurrogate]; omega
    simp only [written, List.cons_append, List.nil_append]
    rw [unescape, digits]
    simp only [Option.bind_eq_bind, Option.bind_some, high, low, Char.ofNat_toNat]
    cases unescape rest <;> rfl
  · rw [written, List.singleton_append, unescape]
    · cases unescape rest <;> rfl
    · simp [backslash]
    · simp [backslash]

/-- What a text is written as is read as that text. -/
theorem unescape_escape (text : List Char) : unescape (escape text) = some text := by
  induction text with
  | nil => rw [escape, List.flatMap_nil, unescape]
  | cons character rest ih =>
    rw [escape, List.flatMap_cons, unescape_escapeCharacter]
    rw [escape] at ih
    rw [ih]
    rfl

end JsonText

namespace JsonReader

/-- What a character is written as stands before a closing quote. -/
theorem quoted_escapeCharacter (character : Char) (rest : List Char) :
    quoted (JsonText.escapeCharacter character ++ rest) =
      (quoted rest).map fun (written, rest) =>
        (JsonText.escapeCharacter character ++ written, rest) := by
  rcases JsonText.escapeCharacter_cases character with
    ⟨letter, other, short, written⟩ | ⟨a, b, c, d, digits, control, written⟩ |
      ⟨quote, backslash, seen, written⟩
  · simp only [written, List.cons_append, List.nil_append]
    rw [quoted, short]
    · rcases quoted rest with _ | ⟨_, _⟩ <;> rfl
    · simp [other]
  · simp only [written, List.cons_append, List.nil_append]
    rw [quoted, digits]
    rcases quoted rest with _ | ⟨_, _⟩ <;> rfl
  · simp only [written, List.singleton_append]
    rw [quoted, if_neg seen]
    · rcases quoted rest with _ | ⟨_, _⟩ <;> rfl
    · simp [quote]
    · simp [backslash]
    · simp [backslash]

/-- What a text is written as ends at the closing quote. -/
theorem quoted_escape (text rest : List Char) :
    quoted (JsonText.escape text ++ '"' :: rest) = some (JsonText.escape text, rest) := by
  induction text with
  | nil => rw [JsonText.escape, List.flatMap_nil, List.nil_append, quoted]
  | cons character others ih =>
    rw [JsonText.escape] at ih
    rw [JsonText.escape, List.flatMap_cons, List.append_assoc, quoted_escapeCharacter, ih]
    rfl

end JsonReader

/-! ### Numbers -/

namespace Numeral

/-- Decimal digits are digits. -/
theorem isDigit_digit : ∀ value < 10, (digit value).isDigit = true := by decide

/-- A number is written with digits alone. -/
theorem isDigit_of_mem_digits (number : Nat) :
    ∀ character ∈ digits 10 number, character.isDigit = true := by
  induction number using Nat.strongRecOn with
  | ind number ih =>
    rw [digits]
    split
    · simpa using isDigit_digit number (by omega)
    · intro character member
      rcases List.mem_append.mp member with early | last
      · exact ih _ (Nat.div_lt_self (by omega) (by omega)) character early
      · rw [List.mem_singleton.mp last]
        exact isDigit_digit _ (Nat.mod_lt _ (by omega))

/-- A number is written with some digit. -/
theorem digits_ne_nil (number : Nat) : digits 10 number ≠ [] := by
  rw [digits]
  split <;> simp

/-- The first digit of a number that is not zero is not zero. -/
theorem exists_digits {number : Nat} (positive : 0 < number) :
    ∃ first rest, digits 10 number = first :: rest ∧ first ≠ '0' := by
  induction number using Nat.strongRecOn with
  | ind number ih =>
    rw [digits]
    split
    · have nonzero : ∀ value < 10, 0 < value → digit value ≠ '0' := by decide
      exact ⟨_, [], rfl, nonzero number (by omega) positive⟩
    · obtain ⟨first, rest, split, nonzero⟩ :=
        ih (number / 10) (by omega) (by omega)
      exact ⟨first, rest ++ [_], by rw [split, List.cons_append], nonzero⟩

end Numeral

namespace JsonReader

/-- What may come after a value: nothing, a comma or a closing bracket. -/
def Follows (rest : List Char) : Prop :=
  ∀ character ∈ rest.head?, character = ',' ∨ character = ']' ∨ character = '\x7d'

/-- Digits that 64 bits hold together with those before them are all taken. -/
theorem appendDigits_of_lt (text : List Char) (size : Nat) {total : Nat}
    (value : text.foldl (fun total character => 10 * total + Numeral.digitValue character) size =
      total) (small : total < UInt64.size) : appendDigits size text = (total, 0) := by
  induction text generalizing size with
  | nil => exact congrArg (·, 0) value
  | cons character rest ih =>
    have grows (text : List Char) (size : Nat) : size ≤
        text.foldl (fun total character => 10 * total + Numeral.digitValue character) size := by
      induction text generalizing size with
      | nil => exact Nat.le_refl size
      | cons character rest ih =>
        rw [List.foldl_cons]
        exact Nat.le_trans (by omega) (ih _)
    have inside := grows rest (10 * size + Numeral.digitValue character)
    rw [List.foldl_cons] at value
    rw [appendDigits, if_pos (by omega), ih _ value]

/-- A run of digits ends where another character follows. -/
theorem digits_append {run rest : List Char} (some : run ≠ [])
    (each : ∀ character ∈ run, character.isDigit = true)
    (ends : ∀ character ∈ rest.head?, character.isDigit = false) :
    digits (run ++ rest) = .some (run, rest) := by
  have stops : rest.takeWhile Char.isDigit = [] ∧ rest.dropWhile Char.isDigit = rest := by
    cases rest with
    | nil => exact ⟨rfl, rfl⟩
    | cons character more =>
      have other := ends character rfl
      simp [other]
  have taken : (run ++ rest).takeWhile Char.isDigit = run := by
    rw [List.takeWhile_append_of_pos each, stops.1, List.append_nil]
  have left : (run ++ rest).dropWhile Char.isDigit = rest := by
    rw [List.dropWhile_append_of_pos each, stops.2]
  unfold digits
  rw [taken, left]
  cases run with
  | nil => exact absurd rfl some
  | cons first others => rfl

/-- A number has no needless zero in front. -/
theorem wholePart_digits (number : Nat) {rest : List Char} (follows : Follows rest) :
    wholePart (Numeral.digits 10 number ++ rest) = some (Numeral.digits 10 number, rest) := by
  have ends : ∀ character ∈ rest.head?, character.isDigit = false := by
    intro character member
    rcases follows character member with rfl | rfl | rfl <;> rfl
  unfold wholePart
  rw [digits_append (Numeral.digits_ne_nil number) (Numeral.isDigit_of_mem_digits number) ends]
  rcases Nat.eq_zero_or_pos number with rfl | positive
  · rw [Numeral.digits]
    rfl
  · obtain ⟨first, others, split, nonzero⟩ := Numeral.exists_digits positive
    rw [split]
    dsimp only [Option.bind_eq_bind, Option.bind_some]
    split
    · rename_i zero
      exact absurd (List.cons.inj zero).1 nonzero
    · rfl

/-- A number ends before what may follow it. -/
theorem unsignedNumber_digits (negative : Bool) {size : Nat} (small : size < UInt64.size)
    {value : Int} (word : wordInteger? negative size = some value) {rest : List Char}
    (follows : Follows rest) :
    unsignedNumber negative (Numeral.digits 10 size ++ rest) =
      some (.number (.integer value), rest) := by
  have fraction : fractionPart rest = some (none, rest) := by
    unfold fractionPart
    split
    · exact absurd (follows '.' rfl) (by decide)
    · rfl
  have exponent : exponentPart rest = some (none, rest) := by
    unfold exponentPart
    split
    · exact absurd (follows 'e' rfl) (by decide)
    · exact absurd (follows 'E' rfl) (by decide)
    · rfl
  have whole : appendDigits 0 (Numeral.digits 10 size) = (size, 0) :=
    appendDigits_of_lt _ 0 (Numeral.value_digits size) small
  have assembled : assembleNumber negative (Numeral.digits 10 size) none none = .integer value := by
    unfold assembleNumber
    simp [whole, appendDigits, word]
  unfold unsignedNumber
  rw [wholePart_digits size follows]
  simp only [Option.bind_eq_bind, Option.bind_some, fraction, exponent, assembled]

/-- An integer that a word holds is read as it is written. -/
theorem number_signed {value : Int} (low : Integer.least ≤ value) (high : value < UInt64.size)
    {rest : List Char} (follows : Follows rest) :
    number (Numeral.signed value ++ rest) = some (.number (.integer value), rest) := by
  cases value with
  | ofNat size =>
    have plain : ∀ more, Numeral.digits 10 size ++ rest ≠ '-' :: more := by
      intro more same
      obtain ⟨first, others, split⟩ := List.exists_cons_of_ne_nil (Numeral.digits_ne_nil size)
      have digit := Numeral.isDigit_of_mem_digits size first (split ▸ List.mem_cons_self)
      rw [split, List.cons_append] at same
      rw [(List.cons.inj same).1] at digit
      cases digit
    rw [Numeral.signed, number]
    · exact unsignedNumber_digits false (Int.ofNat_lt.mp high) rfl follows
    · exact plain
  | negSucc size =>
    have fits : size + 1 < UInt64.size := by
      unfold Integer.least at low
      rw [UInt64.size]
      omega
    rw [Numeral.signed, List.cons_append, number]
    refine unsignedNumber_digits true fits ?_ follows
    unfold wordInteger?
    rw [if_pos rfl, if_pos ⟨by omega, by omega⟩]
    rfl

end JsonReader

/-! ### Trees -/

namespace Json

/-- A tree that is written in one way only: its strings are escaped as texts are, and its numbers
are integers that a word holds. -/
inductive Plain : Json → Prop
  | null : Plain .null
  | bool (value : Bool) : Plain (.bool value)
  | integer {value : Int} (low : Integer.least ≤ value) (high : value < UInt64.size) :
    Plain (.number (.integer value))
  | string (text : List Char) : Plain (.string (JsonText.escape text))
  | array {items : List Json} (each : ∀ item ∈ items, Plain item) : Plain (.array items)
  | object {members : List (List Char × Json)}
    (names : ∀ member ∈ members, ∃ text, member.1 = JsonText.escape text)
    (each : ∀ member ∈ members, Plain member.2) : Plain (.object members)

end Json

/-- Items with commas between them, each as it is written. -/
def joined {α : Type} (write : α → List Char) : List α → List Char
  | [] => []
  | [item] => write item
  | item :: rest => write item ++ ',' :: joined write rest

/-- A comma stands after an item that is not the last. -/
theorem joined_cons_cons {α : Type} (write : α → List Char) (item next : α) (rest : List α) :
    joined write (item :: next :: rest) = write item ++ ',' :: joined write (next :: rest) := by
  rw [joined]
  simp

/-- A member as it is written. -/
def renderMember (member : List Char × Json) : List Char :=
  '"' :: member.1 ++ '"' :: ':' :: member.2.render

/-- Items are written with commas between them. -/
theorem renderItems_eq (items : List Json) : renderItems items = joined Json.render items := by
  induction items with
  | nil => rw [renderItems, joined]
  | cons item rest ih =>
    cases rest with
    | nil => rw [renderItems, joined]
    | cons next others =>
      rw [renderItems, ih, joined_cons_cons]
      simp

/-- Members are written with commas between them. -/
theorem renderMembers_eq (members : List (List Char × Json)) :
    renderMembers members = joined renderMember members := by
  induction members with
  | nil => rw [renderMembers, joined]
  | cons member rest ih =>
    obtain ⟨name, value⟩ := member
    cases rest with
    | nil => rw [renderMembers, joined, renderMember]
    | cons next others =>
      rw [renderMembers, ih, joined_cons_cons, renderMember]
      simp

/-- Each of some items is written among them. -/
theorem length_le_joined {α : Type} (write : α → List Char) {items : List α} {item : α}
    (member : item ∈ items) : (write item).length ≤ (joined write items).length := by
  fun_induction joined write items with
  | case1 => cases member
  | case2 only => exact Nat.le_of_eq (by rw [List.mem_singleton.mp member])
  | case3 first rest _ ih =>
    rw [List.length_append, List.length_cons]
    rcases List.mem_cons.mp member with rfl | later
    · omega
    · exact Nat.le_trans (ih later) (by omega)

/-- There are no more items than characters if every item has one. -/
theorem length_items_le_joined {α : Type} {write : α → List Char} {items : List α}
    (solid : ∀ item ∈ items, write item ≠ []) : items.length ≤ (joined write items).length := by
  fun_induction joined write items with
  | case1 => exact Nat.le_refl 0
  | case2 only => exact List.length_pos_iff.mpr (solid only List.mem_cons_self)
  | case3 first rest _ ih =>
    have positive := List.length_pos_iff.mpr (solid first List.mem_cons_self)
    have others := ih fun item member => solid item (List.mem_cons_of_mem _ member)
    rw [List.length_append, List.length_cons, List.length_cons]
    omega

namespace JsonReader

variable {α : Type} {read : List Char → Option (α × List Char)} {write : α → List Char}

/-- A text that begins with no blank is left as it is. -/
theorem skipBlanks_cons {character : Char} (solid : isBlank character = false) (rest : List Char) :
    skipBlanks (character :: rest) = character :: rest := by
  rw [skipBlanks, List.dropWhile_cons_of_neg (by simp [solid])]

/-- Items that are read one by one are read with commas between them. -/
theorem listed_joined {closing : Char} (closes : closing = ']' ∨ closing = '\x7d')
    {items : List α} (some : items ≠ [])
    (each : ∀ item ∈ items, ∀ rest, Follows rest → read (write item ++ rest) = .some (item, rest))
    {count : Nat} (enough : items.length ≤ count) (rest : List Char) :
    listed read closing count (joined write items ++ closing :: rest) = .some (items, rest) := by
  have plain : skipBlanks (closing :: rest) = closing :: rest := by
    rcases closes with rfl | rfl <;> rfl
  have comma : closing ≠ ',' := by
    rcases closes with rfl | rfl <;> decide
  induction items generalizing count with
  | nil => exact absurd rfl some
  | cons item others ih =>
    obtain ⟨head, tail⟩ := List.forall_mem_cons.mp each
    obtain ⟨count, rfl⟩ : ∃ fewer, count = fewer + 1 := ⟨count - 1, by simp at enough; omega⟩
    cases others with
    | nil =>
      have follows : Follows (closing :: rest) := by
        rintro _ ⟨⟩
        exact .inr closes
      rw [joined, listed, head _ follows]
      simp only [Option.bind_eq_bind, Option.bind_some, plain, if_pos]
    | cons next more =>
      have follows : Follows (',' :: (joined write (next :: more) ++ closing :: rest)) := by
        rintro _ ⟨⟩
        exact .inl rfl
      have onward := ih (by simp) tail (Nat.le_of_succ_le_succ enough)
      rw [joined_cons_cons, List.append_assoc, List.cons_append, listed, head _ follows]
      have blank := skipBlanks_cons (by decide : isBlank ',' = false)
        (joined write (next :: more) ++ closing :: rest)
      simp only [Option.bind_eq_bind, Option.bind_some, blank, if_neg comma.symm, onward, if_pos]

/-- Any number of items is read up to the closing bracket. -/
theorem listedOrNone_joined {closing : Char} (closes : closing = ']' ∨ closing = '\x7d')
    {items : List α}
    (each : ∀ item ∈ items, ∀ rest, Follows rest → read (write item ++ rest) = .some (item, rest))
    (begins : ∀ item ∈ items, ∃ first others,
      write item = first :: others ∧ isBlank first = false ∧ first ≠ closing) (rest : List Char) :
    listedOrNone read closing (joined write items ++ closing :: rest) = .some (items, rest) := by
  unfold listedOrNone
  cases items with
  | nil =>
    have plain : skipBlanks (closing :: rest) = closing :: rest := by
      rcases closes with rfl | rfl <;> rfl
    rw [joined, List.nil_append, plain]
    exact if_pos rfl
  | cons item others =>
    obtain ⟨first, more, written, solid, unclosed⟩ := begins item List.mem_cons_self
    obtain ⟨tail, split⟩ : ∃ tail, joined write (item :: others) = first :: tail := by
      cases others with
      | nil => exact ⟨more, by rw [joined, written]⟩
      | cons next later =>
        exact ⟨more ++ ',' :: joined write (next :: later), by rw [joined_cons_cons, written]; rfl⟩
    have enough : (item :: others).length ≤
        (joined write (item :: others) ++ closing :: rest).length := by
      have solid : ∀ one ∈ item :: others, write one ≠ [] := by
        intro one member
        obtain ⟨first, more, written, -⟩ := begins one member
        rw [written]
        exact List.cons_ne_nil _ _
      have few := length_items_le_joined solid
      rw [List.length_append]
      omega
    have found := listed_joined closes (List.cons_ne_nil item others) each enough rest
    rw [split, List.cons_append] at found ⊢
    rw [skipBlanks_cons solid]
    dsimp only
    rw [if_neg unclosed, found]

end JsonReader

/-- Whether a number may begin with a character. -/
def beginsNumber (character : Char) : Bool := character = '-' || character.isDigit

/-- A number begins with no other character than a sign or a digit. -/
theorem ne_of_beginsNumber {character other : Char} (begins : beginsNumber character = true)
    (none : beginsNumber other = false) : character ≠ other := by
  rintro rfl
  exact absurd (begins.symm.trans none) (by decide)

/-- An integer is written with a sign or a digit in front. -/
theorem Numeral.exists_signed (value : Int) :
    ∃ first rest, signed value = first :: rest ∧ beginsNumber first = true := by
  cases value with
  | ofNat size =>
    obtain ⟨first, others, split⟩ := List.exists_cons_of_ne_nil (digits_ne_nil size)
    have digit := isDigit_of_mem_digits size first (split ▸ List.mem_cons_self)
    exact ⟨first, others, split, by rw [beginsNumber, digit, Bool.or_true]⟩
  | negSucc size => exact ⟨'-', _, rfl, rfl⟩

namespace JsonReader

/-- A number begins with no blank. -/
theorem isBlank_of_beginsNumber {first : Char} (begins : beginsNumber first = true) :
    isBlank first = false := by
  unfold isBlank
  simp only [Bool.or_eq_false_iff, decide_eq_false_iff_not]
  exact ⟨⟨⟨ne_of_beginsNumber begins rfl, ne_of_beginsNumber begins rfl⟩,
    ne_of_beginsNumber begins rfl⟩, ne_of_beginsNumber begins rfl⟩

/-- Before a sign or a digit, a number is read. -/
theorem value_number {first : Char} (begins : beginsNumber first = true) (levels : Nat)
    (text : List Char) : value (levels + 1) (first :: text) = number (first :: text) := by
  rw [value, skipBlanks_cons (isBlank_of_beginsNumber begins)]
  split
  case h_7 => rfl
  all_goals
    rename_i found
    exact absurd (List.cons.inj found).1 (ne_of_beginsNumber begins rfl)

end JsonReader

namespace Json.Plain

/-- A tree is written with a first character that is neither a blank nor a closing bracket. -/
theorem exists_render {json : Json} (plain : json.Plain) : ∃ first rest,
    json.render = first :: rest ∧ JsonReader.isBlank first = false ∧ first ≠ ']' := by
  cases plain with
  | null => exact ⟨_, _, by rw [render], by decide, by decide⟩
  | bool value => cases value <;> exact ⟨_, _, by rw [render], by decide, by decide⟩
  | @integer value low high =>
    obtain ⟨first, rest, written, begins⟩ := Numeral.exists_signed value
    exact ⟨first, rest, by rw [render, JsonNumber.render, written],
      JsonReader.isBlank_of_beginsNumber begins, ne_of_beginsNumber begins rfl⟩
  | string text => exact ⟨_, _, by rw [render, List.cons_append], by decide, by decide⟩
  | array each => exact ⟨_, _, by rw [render, List.cons_append], by decide, by decide⟩
  | object names each => exact ⟨_, _, by rw [render, List.cons_append], by decide, by decide⟩

end Json.Plain

namespace JsonReader

/-- A member is read as it is written if its value is. -/
theorem member_renderMember {read : List Char → Option (Json × List Char)} (text : List Char)
    {content : Json} {rest : List Char}
    (within : read (content.render ++ rest) = some (content, rest)) :
    member read (renderMember (JsonText.escape text, content) ++ rest) =
      some ((JsonText.escape text, content), rest) := by
  have split : renderMember (JsonText.escape text, content) ++ rest =
      '"' :: (JsonText.escape text ++ '"' :: (':' :: (content.render ++ rest))) := by
    simp [renderMember]
  have quote (more : List Char) : skipBlanks ('"' :: more) = '"' :: more := rfl
  have colon (more : List Char) : skipBlanks (':' :: more) = ':' :: more := rfl
  rw [split, member, quote]
  simp only [quoted_escape, Option.bind_eq_bind, Option.bind_some, colon, within]

/-- A tree is read as it is written. -/
theorem value_render {json : Json} (plain : json.Plain) {levels : Nat}
    (enough : json.render.length ≤ levels) {rest : List Char} (follows : Follows rest) :
    value (levels + 1) (json.render ++ rest) = some (json, rest) := by
  -- What stands between brackets is shorter, so it is read with the levels that are left.
  induction plain generalizing levels rest with
  | null =>
    rw [Json.render]
    rfl
  | bool truth => cases truth <;> (rw [Json.render]; rfl)
  | @integer value low high =>
    obtain ⟨first, others, written, begins⟩ := Numeral.exists_signed value
    have read := number_signed low high follows
    rw [written, List.cons_append] at read
    rw [Json.render, JsonNumber.render, written, List.cons_append, value_number begins, read]
  | string text =>
    have split : (Json.string (JsonText.escape text)).render ++ rest =
        '"' :: (JsonText.escape text ++ '"' :: rest) := by
      rw [Json.render]
      simp
    rw [split]
    change (quoted (JsonText.escape text ++ '"' :: rest)).map _ = _
    rw [quoted_escape]
    rfl
  | @array items each ih =>
    rw [Json.render, renderItems_eq, List.length_append, List.length_cons] at enough
    obtain ⟨levels, rfl⟩ : ∃ fewer, levels = fewer + 1 := ⟨levels - 1, by omega⟩
    have split : (Json.array items).render ++ rest =
        '[' :: (joined Json.render items ++ ']' :: rest) := by
      rw [Json.render, renderItems_eq]
      simp
    rw [split]
    change (listedOrNone (value (levels + 1)) ']' (joined Json.render items ++ ']' :: rest)).map _ =
      _
    rw [listedOrNone_joined (.inl rfl)]
    · rfl
    · intro item member rest follows
      have shorter := length_le_joined Json.render member
      exact ih item member (by omega) follows
    · exact fun item member => (each item member).exists_render
  | @object members names each ih =>
    rw [Json.render, renderMembers_eq, List.length_append, List.length_cons] at enough
    obtain ⟨levels, rfl⟩ : ∃ fewer, levels = fewer + 1 := ⟨levels - 1, by omega⟩
    have split : (Json.object members).render ++ rest =
        '\x7b' :: (joined renderMember members ++ '\x7d' :: rest) := by
      rw [Json.render, renderMembers_eq]
      simp
    rw [split]
    change (listedOrNone (member (value (levels + 1))) '\x7d'
      (joined renderMember members ++ '\x7d' :: rest)).map _ = _
    rw [listedOrNone_joined (.inr rfl)]
    · rfl
    · intro entry found rest follows
      obtain ⟨name, content⟩ := entry
      obtain ⟨text, rfl⟩ := names _ found
      refine member_renderMember text (ih _ found ?_ follows)
      have shorter := length_le_joined renderMember found
      simp only [renderMember, List.length_append, List.length_cons] at shorter
      dsimp only
      omega
    · exact fun entry found => ⟨'"', _, rfl, by decide, by decide⟩

end JsonReader

/-- A text that a tree is written as is that tree. -/
theorem Json.parse_render {json : Json} (plain : json.Plain) : parse json.render = some json := by
  have nothing : JsonReader.Follows [] := nofun
  have read := JsonReader.value_render plain (Nat.le_refl _) nothing
  rw [List.append_nil] at read
  rw [parse, read]
  rfl

end Waggle
