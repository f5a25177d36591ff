import Mathlib.Data.List.DropRight
import Mathlib.Data.String.Basic
import Waggle.Source.File

/-!
# Lines are cut where the line feeds are

The lines of a script are the pieces between its line feeds. They are shown by their bytes, which a
table of offsets tells: a line begins at an offset of the table, and ends one byte before the next
one or at the end of the script. Both come to the same (`SourceFile.line?_eq`), because the table is
read along the text as the pieces are (`exists_around`): what comes before a line has as many bytes
as the table says, however many bytes its characters have, and a line feed has one.
-/

namespace Waggle

open String (utf8Len utf8Len_append utf8Len_cons utf8ByteSize_ofList)

/-! ### Pieces -/

/-- A line feed ends an empty line in front of the others. -/
theorem splitLines_feed (rest : List Char) :
    splitLines ('\n' :: rest) = [] :: splitLines rest := if_pos rfl

/-- Any other character is the first of the first line. -/
theorem splitLines_cons {character : Char} (other : character ≠ '\n') {rest line : List Char}
    {lines : List (List Char)} (split : splitLines rest = line :: lines) :
    splitLines (character :: rest) = (character :: line) :: lines := by
  rw [splitLines, if_neg other, split]

/-- There is one line more than line feeds. -/
theorem length_splitLines (text : List Char) : (splitLines text).length = text.count '\n' + 1 := by
  induction text with
  | nil => rfl
  | cons character rest ih =>
    rw [splitLines]
    split
    · rename_i feed
      rw [feed, List.length_cons, ih, List.count_cons_self]
    · rename_i other
      rw [List.count_cons_of_ne other, ← ih]
      split
      · rename_i none
        rw [none] at ih
        cases ih
      · rename_i line lines found
        rw [found, List.length_cons, List.length_cons]

/-- A text has a first line. -/
theorem exists_splitLines_cons (text : List Char) :
    ∃ first late, splitLines text = first :: late :=
  List.exists_cons_of_length_eq_add_one (length_splitLines text)

/-- The pieces of a text are those of the text split at its line feeds. -/
theorem splitLines_eq_splitOn (text : List Char) : splitLines text = text.splitOn '\n' := by
  induction text with
  | nil => rfl
  | cons character rest ih =>
    rw [List.splitOn_cons_eq_if_modifyHead, ← ih]
    by_cases feed : character = '\n'
    · subst feed
      rw [splitLines_feed, if_pos (beq_self_eq_true _)]
    · obtain ⟨line, lines, split⟩ := exists_splitLines_cons rest
      rw [splitLines_cons feed split, if_neg (by simpa using feed), split, List.modifyHead_cons]

/-- A text without line feeds is one line. -/
theorem splitLines_of_not_mem {text : List Char} (single : '\n' ∉ text) :
    splitLines text = [text] := by
  induction text with
  | nil => rfl
  | cons character rest ih =>
    obtain ⟨other, others⟩ := not_or.mp (List.mem_cons.not.mp single)
    exact splitLines_cons (Ne.symm other) (ih others)

/-- Where one text follows another, the last line of the first goes on with the first line of the
second. -/
theorem splitLines_append {text more : List Char} {early late : List (List Char)}
    {last first : List Char} (before : splitLines text = early ++ [last])
    (after : splitLines more = first :: late) :
    splitLines (text ++ more) = early ++ (last ++ first) :: late := by
  induction text generalizing early last with
  | nil =>
    obtain ⟨rfl, same⟩ := List.append_eq_singleton_iff.mp before.symm |>.resolve_right (by simp)
    cases same
    exact after
  | cons character rest ih =>
    obtain ⟨line, lines, split⟩ := exists_splitLines_cons rest
    rw [List.cons_append]
    by_cases feed : character = '\n'
    · subst feed
      rw [splitLines_feed, split] at before
      rcases early with _ | ⟨start, others⟩
      · cases before
      · obtain ⟨rfl, same⟩ := List.cons.inj before
        rw [splitLines_feed, ih (split.trans same)]
        rfl
    · rw [splitLines_cons feed split] at before
      rcases early with _ | ⟨start, others⟩
      · obtain ⟨rfl, rfl⟩ := List.cons.inj before
        have onward := ih (show splitLines rest = [] ++ [line] from split)
        exact splitLines_cons feed onward
      · obtain ⟨rfl, rfl⟩ := List.cons.inj before
        have onward := ih (show splitLines rest = (line :: others) ++ [last] from split)
        exact splitLines_cons feed onward

/-- A line feed ends the text before it as a line in front of the others. -/
theorem splitLines_line {first : List Char} (single : '\n' ∉ first) (rest : List Char) :
    splitLines (first ++ '\n' :: rest) = first :: splitLines rest := by
  have alone : splitLines first = [] ++ [first] := splitLines_of_not_mem single
  rw [splitLines_append alone (splitLines_feed rest), List.append_nil, List.nil_append]

/-! ### Offsets -/

/-- The offsets in a text that follows another are counted from the end of that one. -/
theorem startsAfterFeeds_append (offset : Nat) (text more : List Char) :
    startsAfterFeeds offset (text ++ more) =
      startsAfterFeeds offset text ++ startsAfterFeeds (offset + utf8Len text) more := by
  induction text generalizing offset with
  | nil => rfl
  | cons character rest ih =>
    have size : offset + utf8Len (character :: rest) =
        offset + character.utf8Size + utf8Len rest := by
      rw [utf8Len_cons]
      omega
    simp only [List.cons_append, startsAfterFeeds, ih, size]
    split <;> rfl

/-- A text has one offset for each of its line feeds. -/
theorem length_startsAfterFeeds (offset : Nat) (text : List Char) :
    (startsAfterFeeds offset text).length = text.count '\n' := by
  induction text generalizing offset with
  | nil => rfl
  | cons character rest ih =>
    rw [startsAfterFeeds]
    split
    · rename_i feed
      rw [feed, List.count_cons_self, List.length_cons, ih]
    · rename_i other
      rw [List.count_cons_of_ne other, ih]

/-- A text without line feeds has no offsets. -/
theorem startsAfterFeeds_of_not_mem (offset : Nat) {text : List Char} (single : '\n' ∉ text) :
    startsAfterFeeds offset text = [] := by
  rw [← List.length_eq_zero_iff, length_startsAfterFeeds, List.count_eq_zero_of_not_mem single]

/-- The first offset is that after the first line feed, which has one byte. -/
theorem startsAfterFeeds_line (offset : Nat) {first : List Char} (single : '\n' ∉ first)
    (rest : List Char) :
    startsAfterFeeds offset (first ++ '\n' :: rest) =
      (offset + utf8Len first + 1) :: startsAfterFeeds (offset + utf8Len first + 1) rest := by
  rw [startsAfterFeeds_append, startsAfterFeeds_of_not_mem offset single, List.nil_append,
    startsAfterFeeds, if_pos rfl]
  rfl

/-- A line stands in its text where the table says: after as many bytes as its own offset, and one
byte before the next offset, or at the end of the text if there is none. -/
theorem exists_around {text line : List Char} {index : Nat}
    (found : (splitLines text)[index]? = some line) (offset : Nat) :
    ∃ before after, text = before ++ line ++ after ∧
      (offset :: startsAfterFeeds offset text)[index]? = some (offset + utf8Len before) ∧
      (startsAfterFeeds offset text)[index]? =
        if after = [] then none else some (offset + utf8Len before + utf8Len line + 1) := by
  induction index generalizing text offset with
  | zero =>
    by_cases feed : '\n' ∈ text
    · obtain ⟨first, rest, rfl, single⟩ := List.eq_append_cons_of_mem feed
      rw [splitLines_line single] at found
      cases found
      refine ⟨[], '\n' :: rest, rfl, rfl, ?_⟩
      rw [startsAfterFeeds_line offset single, if_neg (List.cons_ne_nil _ _)]
      rfl
    · rw [splitLines_of_not_mem feed] at found
      cases found
      refine ⟨[], [], (List.append_nil _).symm, rfl, ?_⟩
      rw [startsAfterFeeds_of_not_mem offset feed]
      rfl
  | succ index ih =>
    by_cases feed : '\n' ∈ text
    · obtain ⟨first, rest, rfl, single⟩ := List.eq_append_cons_of_mem feed
      rw [splitLines_line single, List.getElem?_cons_succ] at found
      obtain ⟨before, after, rfl, start, stop⟩ := ih found (offset + utf8Len first + 1)
      have size : offset + utf8Len (first ++ '\n' :: before) =
          offset + utf8Len first + 1 + utf8Len before := by
        rw [utf8Len_append, utf8Len_cons, show Char.utf8Size '\n' = 1 from rfl]
        omega
      refine ⟨first ++ '\n' :: before, after, by simp, ?_, ?_⟩
      · rw [startsAfterFeeds_line offset single, List.getElem?_cons_succ, size]
        exact start
      · rw [startsAfterFeeds_line offset single, List.getElem?_cons_succ, size]
        exact stop
    · rw [splitLines_of_not_mem feed] at found
      cases found

namespace SourceFile

/-! ### Lines of a script -/

/-- There is one line more than line feeds. -/
theorem lineCount_eq (file : SourceFile) : file.lineCount = file.text.toList.count '\n' + 1 := by
  rw [lineCount, lineStarts, List.length_cons, length_startsAfterFeeds]

/-- A script has one piece for each line. -/
theorem length_pieces (file : SourceFile) :
    (splitLines file.text.toList).length = file.lineCount := by
  rw [length_splitLines, lineCount_eq]

/-- The bytes of a line are those between what stands before it and what stands after it. -/
theorem exists_lineRange {file : SourceFile} {number : UInt32} (positive : number ≠ 0)
    {line : List Char}
    (found : (splitLines file.text.toList)[number.toNat - 1]? = some line) :
    ∃ before after, file.text.toList = before ++ line ++ after ∧
      file.lineRange? number = some (utf8Len before, utf8Len before + utf8Len line) := by
  obtain ⟨before, after, whole, start, stop⟩ := exists_around found 0
  have above : number.toNat = number.toNat - 1 + 1 := by
    have nonzero : number.toNat ≠ 0 := fun zero => positive (UInt32.toNat_inj.mp zero)
    omega
  have next : file.lineStarts[number.toNat]? =
      (startsAfterFeeds 0 file.text.toList)[number.toNat - 1]? := by
    rw [lineStarts, above, List.getElem?_cons_succ, Nat.add_sub_cancel]
  have size : file.text.utf8ByteSize = utf8Len (before ++ line ++ after) := by
    rw [← whole, ← utf8ByteSize_ofList, String.ofList_toList]
  refine ⟨before, after, whole, ?_⟩
  rw [lineRange?, if_neg positive, next, stop, lineStarts, start, Nat.zero_add]
  split_ifs with last
  · rw [size, last, List.append_nil, utf8Len_append]
  · rfl

/-- A line that a script does not have has no bytes. -/
theorem lineRange?_eq_none {file : SourceFile} {number : UInt32}
    (absent : (splitLines file.text.toList)[number.toNat - 1]? = none) :
    file.lineRange? number = none := by
  have beyond : file.lineStarts[number.toNat - 1]? = none := by
    rw [List.getElem?_eq_none_iff] at absent ⊢
    rwa [length_pieces, lineCount] at absent
  rw [lineRange?, beyond]
  split <;> rfl

/-- The line of a number is the piece of that number, as it is shown. -/
theorem line?_eq (file : SourceFile) (number : UInt32) :
    file.line? number = if number = 0 then none else file.lines[number.toNat - 1]? := by
  by_cases zero : number = 0
  · rw [line?, lineRange?, if_pos zero, if_pos zero, Option.map_none]
  · rw [if_neg zero, lines, List.getElem?_map]
    rcases found : (splitLines file.text.toList)[number.toNat - 1]? with _ | line
    · rw [line?, lineRange?_eq_none found, Option.map_none, Option.map_none]
    · obtain ⟨before, after, whole, range⟩ := exists_lineRange zero found
      have cut : String.Pos.Raw.extract file.text ⟨utf8Len before⟩
          ⟨utf8Len before + utf8Len line⟩ = String.ofList line := by
        rw [← file.text.ofList_toList, whole, String.extract_of_valid]
      rw [line?, range, Option.map_some, Option.map_some]
      dsimp only
      rw [cut, String.toList_ofList]

/-- A script has the lines from the first to that of its number of lines. -/
theorem isSome_line? (file : SourceFile) (number : UInt32) :
    (file.line? number).isSome = true ↔ 1 ≤ number.toNat ∧ number.toNat ≤ file.lineCount := by
  rw [line?_eq]
  by_cases zero : number = 0
  · simp [zero]
  · have positive : 1 ≤ number.toNat := by
      rw [← UInt32.toNat_inj, UInt32.toNat_zero] at zero
      omega
    rw [if_neg zero, lines, List.getElem?_map, Option.isSome_map, Option.isSome_iff_ne_none, ne_eq,
      List.getElem?_eq_none_iff, length_pieces]
    omega

/-- A position between two characters is on the boundary of both. -/
theorem isValid_utf8Len {file : SourceFile} {before after : List Char}
    (whole : file.text.toList = before ++ after) :
    String.Pos.Raw.IsValid file.text ⟨utf8Len before⟩ := by
  refine String.Pos.Raw.isValid_iff_exists_append.mpr
    ⟨String.ofList before, String.ofList after, ?_, ?_⟩
  · rw [← String.ofList_append, ← whole, String.ofList_toList]
  · rw [← utf8ByteSize_ofList]
    rfl

/-- Without carriage returns a line is shown whole. -/
theorem lines_of_not_mem {file : SourceFile} (plain : '\r' ∉ file.text.toList) :
    file.lines = (splitLines file.text.toList).map String.ofList := by
  refine List.map_congr_left fun line member => ?_
  obtain ⟨index, found⟩ := List.mem_iff_getElem?.mp member
  obtain ⟨before, after, whole, -⟩ := exists_around found 0
  have clean : '\r' ∉ line := fun inside => plain (by rw [whole]; simp [inside])
  rw [trimReturns, List.dropWhile_eq_self_iff.mpr, List.reverse_reverse]
  intro some returns
  rw [beq_iff_eq] at returns
  exact clean (List.mem_reverse.mp (returns ▸ List.getElem_mem some))

/-- A script has exactly the lines from one to the number of its lines, and each is the piece of
that number when the script is split at its line feeds, without the carriage returns at its end.
Its bytes are in the script and on the boundaries of characters. Without carriage returns, the lines
with line feeds between them are the script. -/
theorem line?_splits (file : SourceFile) :
    (∀ number, (file.line? number).isSome = true ↔
      1 ≤ number.toNat ∧ number.toNat ≤ file.lineCount) ∧
    (∀ number line, file.line? number = some line →
      ∃ piece, (file.text.toList.splitOn '\n')[number.toNat - 1]? = some piece ∧
        line.toList = piece.rdropWhile (· == '\r')) ∧
    (∀ number start stop, file.lineRange? number = some (start, stop) →
      start ≤ stop ∧ stop ≤ file.text.utf8ByteSize ∧
        String.Pos.Raw.IsValid file.text ⟨start⟩ ∧ String.Pos.Raw.IsValid file.text ⟨stop⟩) ∧
    ('\r' ∉ file.text.toList → file.lineCount < 2 ^ 32 →
      ∃ lines : List String, lines.length = file.lineCount ∧
        (∀ index < file.lineCount, file.line? (.ofNat (index + 1)) = lines[index]?) ∧
        "\n".intercalate lines = file.text) := by
  refine ⟨file.isSome_line?, fun number line shown => ?_, fun number start stop cut => ?_,
    fun plain few => ⟨file.lines, ?_, fun index inside => ?_, ?_⟩⟩
  · rw [line?_eq] at shown
    split at shown
    · cases shown
    · rw [lines, List.getElem?_map, splitLines_eq_splitOn] at shown
      obtain ⟨piece, found, rfl⟩ := Option.map_eq_some_iff.mp shown
      exact ⟨piece, found, String.toList_ofList⟩
  · have positive : number ≠ 0 := by
      rintro rfl
      cases cut
    rcases found : (splitLines file.text.toList)[number.toNat - 1]? with _ | line
    · rw [lineRange?_eq_none found] at cut
      cases cut
    · obtain ⟨before, after, whole, range⟩ := exists_lineRange positive found
      cases range.symm.trans cut
      have inside := isValid_utf8Len whole
      rw [utf8Len_append] at inside
      rw [List.append_assoc] at whole
      exact ⟨Nat.le_add_right _ _, inside.le_rawEndPos, isValid_utf8Len whole, inside⟩
  · rw [lines, List.length_map, length_pieces]
  · have number : (UInt32.ofNat (index + 1)).toNat = index + 1 := by
      rw [UInt32.toNat_ofNat', Nat.mod_eq_of_lt (by omega)]
    have positive : UInt32.ofNat (index + 1) ≠ 0 := by
      rw [ne_eq, ← UInt32.toNat_inj, number, UInt32.toNat_zero]
      exact Nat.succ_ne_zero index
    rw [line?_eq, if_neg positive, number, Nat.add_sub_cancel]
  · rw [lines_of_not_mem plain, ← String.toList_inj, String.toList_intercalate, List.map_map,
      splitLines_eq_splitOn]
    simp [Function.comp_def, List.intercalate_splitOn]

/-- The first line of a script has a character of two bytes, the second one is empty and the third
one is not ended. -/
theorem line?_splits_empty :
    let file : SourceFile := ⟨"", "é\n\nb"⟩
    file.lineRange? 1 = some (0, 2) ∧ String.Pos.Raw.IsValid file.text ⟨2⟩ ∧
      file.line? 2 = some "" ∧ (file.line? 4).isSome = false ∧
      '\r' ∉ file.text.toList ∧ file.lineCount < 2 ^ 32 ∧
      ∃ lines : List String,
        lines.length = file.lineCount ∧ "\n".intercalate lines = file.text := by
  intro file
  obtain ⟨some, -, range, joined⟩ := line?_splits file
  have first : file.lineRange? 1 = .some (0, 2) := by decide +kernel
  have plain : '\r' ∉ file.text.toList := by decide +kernel
  have few : file.lineCount < 2 ^ 32 := by decide +kernel
  have beyond : ¬(file.line? 4).isSome = true := by
    rw [some]
    decide +kernel
  obtain ⟨lines, length, -, whole⟩ := joined plain few
  exact ⟨first, (range 1 0 2 first).2.2.2, by decide +kernel, Bool.eq_false_iff.mpr beyond, plain,
    few, lines, length, whole⟩

end SourceFile

end Waggle
