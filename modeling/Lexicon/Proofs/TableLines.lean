import Lexicon.Table
import Mathlib.Data.List.TakeWhile

/-!
# Tables line by line

A table is read line by line, and every line is read by itself.  A text that
is cut at a line feed is therefore read as its two parts one after the other:
the entries of the first part come first, a fault of the first part hides
those of the second, and a fault of the second part keeps everything but its
line number, which counts the lines of the first part too.

Which line is reported follows from the lines alone: the first one that
offends against the format.  The number of a line is one more than the number
of lines before it, blank lines and comments included.

The lines of two texts with a line feed between them are not simply those of
the one and of the other: a carriage return at the end of the first text
becomes part of a line end, and a first text that is empty or ends with a line
feed gets one more line.  The segments between line feeds do add up.  A table
is read from its lines as it would be from its segments, because a carriage
return is trimmed and an empty line is noise.
-/

namespace Lexicon

/-! ## Lines of a text -/

namespace WhiteSpace

/-- Texts are built line by line: a last line without its end, or a line before a text. -/
@[elab_as_elim]
theorem induction_lines {motive : List Char → Prop}
    (last : ∀ line, '\n' ∉ line → motive line)
    (ended : ∀ line rest, '\n' ∉ line → motive rest →
      motive (line ++ '\n' :: rest))
    (text : List Char) : motive text := by
  by_cases broken : '\n' ∈ text
  · rcases List.eq_append_cons_of_mem broken with
      ⟨line, rest, text_eq, unbroken⟩
    rw [text_eq]
    exact ended line rest unbroken (induction_lines last ended rest)
  · exact last text broken
termination_by text.length
decreasing_by
  rw [text_eq, List.length_append, List.length_cons]
  omega

theorem piecesAfter_append_of_not_mem {line : List Char}
    (unbroken : '\n' ∉ line) (seen rest : List Char) :
    piecesAfter seen (line ++ rest) =
      piecesAfter (line.reverse ++ seen) rest := by
  induction line generalizing seen with
  | nil => rfl
  | cons char others induction =>
      rcases not_or.mp (List.mem_cons.not.mp unbroken) with
        ⟨differs, othersUnbroken⟩
      have notEnd : ¬ (char == '\n') = true :=
        fun same => differs (beq_iff_eq.mp same).symm
      rw [List.cons_append, piecesAfter, if_neg notEnd,
        induction othersUnbroken, List.reverse_cons, List.append_assoc]
      rfl

theorem stripLast?_append (text : List Char) (last : Char) :
    stripLast? last (text ++ [last]) = some text := by
  rw [stripLast?, if_pos List.getLast?_concat, List.dropLast_concat]

theorem stripLast?_of_not_mem {text : List Char} {last : Char}
    (absent : last ∉ text) : stripLast? last text = none :=
  if_neg fun found => absent (List.mem_of_getLast? found)

/-- A line that is ended loses a carriage return before its line feed. -/
theorem lines_append_lineFeed {line : List Char} (unbroken : '\n' ∉ line)
    (rest : List Char) :
    lines (line ++ '\n' :: rest) =
      (stripLast? '\r' line).getD line :: lines rest := by
  have ended : (piecesAfter [] (line ++ '\n' :: rest)) =
      (line ++ ['\n']) :: piecesAfter [] rest := by
    rw [piecesAfter_append_of_not_mem unbroken, piecesAfter]
    simp
  have stripped : stripEnd (line ++ ['\n']) =
      (stripLast? '\r' line).getD line := by
    simp only [stripEnd, stripLast?_append]
  rw [lines, ended, List.map_cons, stripped, lines]

/-- The last line is kept as it is, unless nothing is there. -/
theorem lines_of_not_mem {line : List Char} (unbroken : '\n' ∉ line) :
    lines line = if line = [] then [] else [line] := by
  have stripped : stripEnd line = line := by
    simp only [stripEnd, stripLast?_of_not_mem unbroken]
  have moved := piecesAfter_append_of_not_mem unbroken [] []
  rw [List.append_nil, List.append_nil] at moved
  rw [lines, moved]
  cases line with
  | nil => rfl
  | cons first others => simp [piecesAfter, stripped]

example :
    (lines ['a', '\r', '\n', '\n', 'b', '\r'] = [['a'], [], ['b', '\r']]) ∧
      lines ['\r', '\n'] = [[]] ∧ lines [] = [] := by
  decide

/-! ## Segments of a text -/

/--
What stands between the line feeds of a text.  Other than lines, segments keep
the carriage return of a line end, and there is always a last one, which is
empty after a final line feed.
-/
def segments (text : List Char) : List (List Char) :=
  text.splitOnP (· == '\n')

/-- A line feed separates the segments before it from those after it. -/
theorem segments_append_lineFeed (left right : List Char) :
    segments (left ++ '\n' :: right) = segments left ++ segments right :=
  List.splitOnP_append_cons left right (beq_self_eq_true '\n')

theorem segments_of_not_mem {line : List Char} (unbroken : '\n' ∉ line) :
    segments line = [line] := by
  apply List.splitOnP_eq_singleton
  intro char inside
  apply beq_eq_false_iff_ne.mpr
  rintro rfl
  exact unbroken inside

/-- There is one segment more than there are line feeds. -/
theorem length_segments (text : List Char) :
    (segments text).length = text.count '\n' + 1 := by
  induction text using induction_lines with
  | last line unbroken =>
      rw [segments_of_not_mem unbroken, List.count_eq_zero.mpr unbroken]
      rfl
  | ended line rest unbroken induction =>
      rw [segments_append_lineFeed, segments_of_not_mem unbroken,
        List.length_append, induction, List.count_append,
        List.count_eq_zero.mpr unbroken, List.count_cons_self]
      simp [Nat.add_comm]

/--
A text starts with some lines, each of which a line feed ends, and goes on
with a line that ends at the next line feed or with the text.
-/
structure LineAfter (text : List Char) (before : List (List Char))
    (line : List Char) : Prop where
  unbroken : '\n' ∉ line
  before_unbroken : ∀ other ∈ before, '\n' ∉ other
  split : ∃ after, text = before.flatMap (· ++ ['\n']) ++ line ++ after ∧
    (after = [] ∨ ∃ rest, after = '\n' :: rest)

theorem lineAfter_nil_iff {text line : List Char} :
    LineAfter text [] line ↔ ∃ others, segments text = line :: others := by
  constructor
  · rintro ⟨unbroken, _, after, rfl, closed⟩
    have whole := segments_of_not_mem unbroken
    rcases closed with rfl | ⟨rest, rfl⟩
    · exact ⟨[], by simpa using whole⟩
    · exact ⟨segments rest, by simp [segments_append_lineFeed, whole]⟩
  · rintro ⟨others, found⟩
    by_cases broken : '\n' ∈ text
    · rcases List.eq_append_cons_of_mem broken with
        ⟨first, rest, rfl, unbroken⟩
      rw [segments_append_lineFeed, segments_of_not_mem unbroken] at found
      cases found
      exact ⟨unbroken, List.forall_mem_nil _, '\n' :: rest, by simp,
        Or.inr ⟨rest, rfl⟩⟩
    · rw [segments_of_not_mem broken] at found
      cases found
      exact ⟨broken, List.forall_mem_nil _, [], by simp, Or.inl rfl⟩

/-- The lines that such a text starts with are its first segments. -/
theorem lineAfter_iff {text line : List Char} {before : List (List Char)} :
    LineAfter text before line ↔
      ∃ others, segments text = before ++ line :: others := by
  induction before generalizing text with
  | nil => exact lineAfter_nil_iff
  | cons first before induction =>
      constructor
      · rintro ⟨unbroken, beforeUnbroken, after, rfl, closed⟩
        rcases List.forall_mem_cons.mp beforeUnbroken with
          ⟨firstUnbroken, othersUnbroken⟩
        rcases induction.mp ⟨unbroken, othersUnbroken, after, rfl, closed⟩
          with ⟨others, found⟩
        refine ⟨others, ?_⟩
        simp [segments_append_lineFeed, segments_of_not_mem firstUnbroken, ← found]
      · rintro ⟨others, found⟩
        rcases lineAfter_nil_iff.mpr ⟨_, found⟩ with
          ⟨firstUnbroken, _, after, rfl, closed⟩
        have whole := segments_of_not_mem firstUnbroken
        rcases closed with rfl | ⟨rest, rfl⟩
        · simp [whole] at found
        · have restFound : segments rest = before ++ line :: others := by
            simpa [segments_append_lineFeed, whole] using found
          rcases induction.mpr ⟨others, restFound⟩ with
            ⟨unbroken, othersUnbroken, last, rfl, closed⟩
          exact ⟨unbroken,
            List.forall_mem_cons.mpr ⟨firstUnbroken, othersUnbroken⟩, last,
            by simp, closed⟩

/-! ## White space at the end of a line -/

theorem trim_append_spaces (text : List Char) {after : List Char}
    (spaced : ∀ char ∈ after, isSpace char = true) :
    trim (text ++ after) = trim text := by
  have reversed : ∀ char ∈ after.reverse, isSpace char = true := by
    intro char member
    exact spaced char (List.mem_reverse.mp member)
  rw [trim, List.dropWhile_append]
  split
  case isTrue empty =>
    rw [List.dropWhile_eq_nil_iff.mpr spaced, trim, List.isEmpty_iff.mp empty]
  case isFalse =>
    rw [List.reverse_append, List.dropWhile_append_of_pos reversed, trim]

end WhiteSpace

/-! ## One line -/

/-- The number of fields of a row. -/
def LineFormat.fieldCount : LineFormat → Nat
  | .word => 1
  | .namedLiteral => 2
  | .wordValue => 2

/-- The fault of a line that is no noise and breaks the rules of the format. -/
inductive Offends (format : LineFormat) (line : List Char) : RowFault → Prop
  | malformed (isRow : Table.isNoise (WhiteSpace.trim line) = false)
      (miscounted : (WhiteSpace.fields (WhiteSpace.trim line)).length ≠
        format.fieldCount) :
      Offends format line
        (.malformed format (String.ofList (WhiteSpace.trim line)))
  | invalidValue {literal numeral : List Char}
      (isRow : Table.isNoise (WhiteSpace.trim line) = false)
      (valued : format = .wordValue)
      (fields_eq : WhiteSpace.fields (WhiteSpace.trim line) =
        [literal, numeral])
      (unread : Numeral.read? numeral = none) :
      Offends format line (.invalidValue (String.ofList numeral))

theorem map_eq_error_iff {ε α β : Type} {outcome : Except ε α}
    {change : α → β} {error : ε} :
    outcome.map change = .error error ↔ outcome = .error error := by
  cases outcome with
  | error found => simp [Except.map]
  | ok result => simp [Except.map]

namespace Table

/-- A row is refused for the number of its fields or for its value. -/
theorem entryOfFields_eq_error_iff {category : Category}
    {format : LineFormat} {row : List Char} {fields : List (List Char)}
    {fault : RowFault} :
    entryOfFields category format row fields = .error fault ↔
      fields.length ≠ format.fieldCount ∧
          fault = .malformed format (String.ofList row) ∨
        format = .wordValue ∧ ∃ literal numeral,
          fields = [literal, numeral] ∧ Numeral.read? numeral = none ∧
            fault = .invalidValue (String.ofList numeral) := by
  rcases fields with _ | ⟨first, _ | ⟨second, _ | ⟨third, others⟩⟩⟩
  · cases format <;>
      simp [entryOfFields, LineFormat.fieldCount, @eq_comm _ fault]
  · cases format <;>
      simp [entryOfFields, LineFormat.fieldCount, @eq_comm _ fault]
  · cases format with
    | word => simp [entryOfFields, LineFormat.fieldCount, @eq_comm _ fault]
    | namedLiteral => simp [entryOfFields, LineFormat.fieldCount]
    | wordValue =>
        cases read : Numeral.read? second with
        | none =>
            constructor
            · intro refused
              rw [entryOfFields, read] at refused
              cases refused
              exact Or.inr ⟨rfl, first, second, rfl, read, rfl⟩
            · rintro (⟨miscounted, _⟩ | ⟨_, literal, numeral, same, _, rfl⟩)
              · exact absurd rfl miscounted
              · cases same
                rw [entryOfFields, read]
        | some value =>
            simp [entryOfFields, LineFormat.fieldCount, read]
  · cases format <;>
      simp [entryOfFields, LineFormat.fieldCount, @eq_comm _ fault]

/-- The lines that are refused are those that offend against the format. -/
theorem entryOfLine_eq_error_iff {category : Category} {format : LineFormat}
    {line : List Char} {fault : RowFault} :
    entryOfLine category format line = .error fault ↔
      Offends format line fault := by
  cases noise : isNoise (WhiteSpace.trim line) with
  | true =>
      rw [entryOfLine, if_pos noise]
      constructor
      · intro refused
        cases refused
      · intro offends
        cases offends with
        | malformed isRow => rw [noise] at isRow; cases isRow
        | invalidValue isRow => rw [noise] at isRow; cases isRow
  | false =>
      have kept : entryOfLine category format line = .error fault ↔
          entryOfRow category format (WhiteSpace.trim line) =
            .error fault := by
        rw [entryOfLine, if_neg (ne_true_of_eq_false noise),
          map_eq_error_iff]
      rw [kept, entryOfRow, entryOfFields_eq_error_iff]
      constructor
      · rintro (⟨miscounted, rfl⟩ |
          ⟨valued, literal, numeral, fields_eq, unread, rfl⟩)
        · exact .malformed noise miscounted
        · exact .invalidValue noise valued fields_eq unread
      · intro offends
        cases offends with
        | malformed _ miscounted => exact Or.inl ⟨miscounted, rfl⟩
        | invalidValue _ valued fields_eq unread =>
            exact Or.inr ⟨valued, _, _, fields_eq, unread, rfl⟩

theorem not_offends_of_entryOfLine {category : Category}
    {format : LineFormat} {line : List Char} {found : Option Entry}
    (read : entryOfLine category format line = .ok found)
    (fault : RowFault) : ¬ Offends format line fault := by
  intro offends
  rw [entryOfLine_eq_error_iff.mpr offends] at read
  cases read

end Table

/-! ## Several lines -/

/-- The error of a text when a number of lines come before it. -/
def TableError.after (count : Nat) (error : TableError) : TableError :=
  { error with line := error.line + count }

namespace Table

section Lines

variable {file : String} {category : Category} {format : LineFormat}
  {number : Nat} {line : List Char} {rest : List (List Char)}

theorem entriesOfLines_cons_of_error {fault : RowFault}
    (refused : entryOfLine category format line = .error fault) :
    entriesOfLines file category format number (line :: rest) =
      .error ⟨file, number, fault⟩ := by
  rw [entriesOfLines, refused]

theorem entriesOfLines_cons_of_ok {found : Option Entry}
    (read : entryOfLine category format line = .ok found) :
    entriesOfLines file category format number (line :: rest) =
      (entriesOfLines file category format (number + 1) rest).map
        (found.toList ++ ·) := by
  rw [entriesOfLines, read]
  cases entriesOfLines file category format (number + 1) rest with
  | error error => rfl
  | ok entries => rfl

/-- The number of the first line is added to the line of an error only. -/
theorem entriesOfLines_add (number count : Nat) (lines : List (List Char)) :
    entriesOfLines file category format (number + count) lines =
      (entriesOfLines file category format number lines).mapError
        (TableError.after count) := by
  induction lines generalizing number with
  | nil => rfl
  | cons line rest induction =>
      cases read : entryOfLine category format line with
      | error fault =>
          rw [entriesOfLines_cons_of_error read,
            entriesOfLines_cons_of_error read]
          rfl
      | ok found =>
          rw [entriesOfLines_cons_of_ok read, entriesOfLines_cons_of_ok read,
            Nat.add_right_comm, induction]
          cases entriesOfLines file category format (number + 1) rest with
          | error error => rfl
          | ok entries => rfl

/-- Lines are read in two parts, and a fault of the first part comes first. -/
theorem entriesOfLines_append (number : Nat)
    (first second : List (List Char)) :
    entriesOfLines file category format number (first ++ second) =
      (entriesOfLines file category format number first).bind fun entries =>
        (entriesOfLines file category format (number + first.length)
          second).map (entries ++ ·) := by
  induction first generalizing number with
  | nil =>
      rw [List.nil_append, List.length_nil, Nat.add_zero]
      cases entriesOfLines file category format number second with
      | error error => rfl
      | ok others => rfl
  | cons line rest induction =>
      cases read : entryOfLine category format line with
      | error fault =>
          rw [List.cons_append, entriesOfLines_cons_of_error read,
            entriesOfLines_cons_of_error read]
          rfl
      | ok found =>
          rw [List.cons_append, entriesOfLines_cons_of_ok read,
            entriesOfLines_cons_of_ok read, induction, List.length_cons,
            Nat.add_assoc, Nat.add_comm 1]
          cases entriesOfLines file category format (number + 1) rest with
          | error error => rfl
          | ok entries =>
              cases entriesOfLines file category format
                  (number + (rest.length + 1)) second with
              | error error => rfl
              | ok others =>
                  simp [Except.bind, Except.map, List.append_assoc]

/-- If every line can be read, their entries are those of the lines in their order. -/
theorem entriesOfLines_map {α : Type} {items : List α}
    {text : α → List Char} {found : α → Option Entry}
    (reads : ∀ item ∈ items,
      entryOfLine category format (text item) = .ok (found item)) :
    entriesOfLines file category format number (items.map text) =
      .ok (items.filterMap found) := by
  induction items generalizing number with
  | nil => rfl
  | cons item rest induction =>
      rcases List.forall_mem_cons.mp reads with ⟨first, others⟩
      rw [List.map_cons, entriesOfLines_cons_of_ok first, induction others,
        List.filterMap_cons]
      cases found item with
      | none => rfl
      | some entry => rfl

/-- The first line that offends is the one that is reported. -/
theorem entriesOfLines_eq_error_iff {lines : List (List Char)}
    {error : TableError} :
    entriesOfLines file category format number lines = .error error ↔
      ∃ before line after fault, lines = before ++ line :: after ∧
        (∀ other ∈ before, ∀ fault, ¬ Offends format other fault) ∧
        Offends format line fault ∧
        error = ⟨file, number + before.length, fault⟩ := by
  induction lines generalizing number with
  | nil => simp [entriesOfLines]
  | cons head rest induction =>
      cases read : entryOfLine category format head with
      | error fault =>
          have offends := entryOfLine_eq_error_iff.mp read
          rw [entriesOfLines_cons_of_error read]
          constructor
          · intro failed
            cases failed
            exact ⟨[], head, rest, fault, rfl, List.forall_mem_nil _,
              offends, rfl⟩
          · rintro ⟨before, line, after, other, split, earlier, found, rfl⟩
            cases before with
            | nil =>
                cases split
                rw [entryOfLine_eq_error_iff.mpr found] at read
                cases read
                rfl
            | cons first before =>
                cases split
                exact absurd offends (earlier head List.mem_cons_self fault)
      | ok found =>
          have fine := not_offends_of_entryOfLine read
          rw [entriesOfLines_cons_of_ok read, map_eq_error_iff, induction]
          constructor
          · rintro ⟨before, line, after, fault, rfl, earlier, offends, rfl⟩
            refine ⟨head :: before, line, after, fault, rfl,
              List.forall_mem_cons.mpr ⟨fine, earlier⟩, offends, ?_⟩
            rw [List.length_cons, Nat.add_assoc, Nat.add_comm 1]
          · rintro ⟨before, line, after, fault, split, earlier, offends, rfl⟩
            cases before with
            | nil =>
                cases split
                exact absurd offends (fine fault)
            | cons first before =>
                cases split
                refine ⟨before, line, after, fault, rfl,
                  (List.forall_mem_cons.mp earlier).2, offends, ?_⟩
                rw [List.length_cons, Nat.add_assoc, Nat.add_comm 1]

end Lines

/-! ## Whole tables -/

/-- A carriage return at the end of a line has no bearing on its entry. -/
theorem entryOfLine_stripLast (category : Category) (format : LineFormat)
    (line : List Char) :
    entryOfLine category format ((WhiteSpace.stripLast? '\r' line).getD line) =
      entryOfLine category format line := by
  by_cases ends : line.getLast? = some '\r'
  · rcases List.getLast?_eq_some_iff.mp ends with ⟨front, rfl⟩
    have spaced : ∀ char ∈ ['\r'], WhiteSpace.isSpace char = true := by
      simp [WhiteSpace.isSpace, WhiteSpace.characters]
    rw [WhiteSpace.stripLast?_append, Option.getD_some, entryOfLine,
      entryOfLine, WhiteSpace.trim_append_spaces front spaced]
  · rw [WhiteSpace.stripLast?, if_neg ends, Option.getD_none]

/-- Reading the lines of a text gives what reading its segments gives. -/
theorem entriesOfLines_lines (file : String) (category : Category)
    (format : LineFormat) (number : Nat) (text : List Char) :
    entriesOfLines file category format number (WhiteSpace.lines text) =
      entriesOfLines file category format number
        (WhiteSpace.segments text) := by
  induction text using WhiteSpace.induction_lines generalizing number with
  | last line unbroken =>
      rw [WhiteSpace.lines_of_not_mem unbroken,
        WhiteSpace.segments_of_not_mem unbroken]
      split
      case isTrue empty =>
        rw [empty]
        rfl
      case isFalse => rfl
  | ended line rest unbroken induction =>
      rw [WhiteSpace.lines_append_lineFeed unbroken,
        WhiteSpace.segments_append_lineFeed,
        WhiteSpace.segments_of_not_mem unbroken, List.singleton_append,
        entriesOfLines, entriesOfLines, entryOfLine_stripLast, induction]

theorem entries_eq_segments (table : Table) :
    table.entries = entriesOfLines table.file table.category table.format 1
      (WhiteSpace.segments table.text.toList) :=
  entriesOfLines_lines table.file table.category table.format 1
    table.text.toList

/-- The error of the first line of a table that offends against its format. -/
inductive FirstOffence (table : Table) : TableError → Prop
  | line {before : List (List Char)} {line : List Char} {fault : RowFault}
      (place : WhiteSpace.LineAfter table.text.toList before line)
      (earlier : ∀ other ∈ before, ∀ fault,
        ¬ Offends table.format other fault)
      (offends : Offends table.format line fault) :
      FirstOffence table ⟨table.file, before.length + 1, fault⟩

/-- A table is refused for the first line that offends against its format. -/
theorem entries_eq_error_iff_firstOffence {table : Table}
    {error : TableError} :
    table.entries = .error error ↔ table.FirstOffence error := by
  rw [entries_eq_segments, entriesOfLines_eq_error_iff]
  constructor
  · rintro ⟨before, line, after, fault, split, earlier, offends, rfl⟩
    rw [Nat.add_comm]
    exact .line (WhiteSpace.lineAfter_iff.mpr ⟨after, split⟩) earlier offends
  · rintro ⟨place, earlier, offends⟩
    rcases WhiteSpace.lineAfter_iff.mp place with ⟨after, split⟩
    exact ⟨_, _, after, _, split, earlier, offends, by rw [Nat.add_comm]⟩

/-- A text that is cut at a line feed is read in two parts. -/
theorem entries_append_lineFeed (table : Table) (left right : String) :
    entries { table with text := left ++ "\n" ++ right } =
      (entries { table with text := left }).bind fun first =>
        ((entries { table with text := right }).mapError
          (TableError.after (left.toList.count '\n' + 1))).map
            (first ++ ·) := by
  have text_eq : (left ++ "\n" ++ right).toList =
      left.toList ++ '\n' :: right.toList := by
    rw [String.toList_append, String.toList_append, List.append_assoc]
    rfl
  simp only [entries_eq_segments]
  rw [text_eq, WhiteSpace.segments_append_lineFeed, entriesOfLines_append,
    WhiteSpace.length_segments, entriesOfLines_add]

/--
Reading is compositional and reports the first offending line.  Two texts with
a line feed between them give the error of the first, else that of the second
with its line moved on by the line feeds of the first and one more, else the
entries of both in their order.  An error is always that of the first line
which breaks the rules of the format, and its number is one more than the
number of all lines before it.
-/
theorem entries_joined_firstOffence (table : Table) :
    (∀ left right : String,
      entries { table with text := left ++ "\n" ++ right } =
        match entries { table with text := left } with
        | .error error => .error error
        | .ok first =>
            match entries { table with text := right } with
            | .error error =>
                .error ⟨error.file, error.line + left.toList.count '\n' + 1,
                  error.fault⟩
            | .ok second => .ok (first ++ second)) ∧
      ∀ error, table.entries = .error error ↔ table.FirstOffence error := by
  constructor
  · intro left right
    rw [entries_append_lineFeed]
    cases entries { table with text := left } with
    | error error => rfl
    | ok first =>
        cases entries { table with text := right } with
        | error error => rfl
        | ok second => rfl
  · intro error
    exact entries_eq_error_iff_firstOffence

example :
    entries ⟨.keyword, "words", "is\r\n\n # a b\n a  b \nif c", .word,
        .wholeWord⟩ =
      .error ⟨"words", 4, .malformed .word "a  b"⟩ := by
  rfl

/-- A line feed at the end of the left text makes a line of its own, a carriage return does not. -/
example :
    entries ⟨.keyword, "words", "is\n" ++ "\n" ++ "a b", .word, .wholeWord⟩ =
        .error ⟨"words", 3, .malformed .word "a b"⟩ ∧
      entries ⟨.keyword, "words", "is\r" ++ "\n" ++ "a b", .word,
          .wholeWord⟩ =
        .error ⟨"words", 2, .malformed .word "a b"⟩ :=
  ⟨rfl, rfl⟩

/-- An empty text is a line before a line feed, and no line after it. -/
example :
    entries ⟨.keyword, "words", "" ++ "\n" ++ "a b", .word, .wholeWord⟩ =
        .error ⟨"words", 2, .malformed .word "a b"⟩ ∧
      entries ⟨.keyword, "words", "is\r" ++ "\n" ++ "", .word,
          .wholeWord⟩ =
        .ok [⟨.keyword, "is", [0x69, 0x73], none⟩] :=
  ⟨rfl, rfl⟩

end Table

end Lexicon
