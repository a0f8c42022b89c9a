import Lexicon.Proofs.NumeralSpelling
import Lexicon.Proofs.TableLines
import Lexicon.Proofs.TableLiterals
import Mathlib.Data.List.TakeWhile

/-!
# Tables as they are written

The text of a table is a sequence of lines.  A line is blank, a comment, or a
row of fields with spaces and tabs around and between them.  A line feed ends
it, perhaps after a carriage return, and the last line need not be ended.

The parts of a text are types of their own here, which carry what the grammar
asks of them.  Every text that is put together from such parts is read without
fault, and what is read is the entries of its rows in their order.
-/

namespace Lexicon

/-! ## White space -/

namespace WhiteSpace

theorem dropWhile_eq_self {holds : Char → Bool} {text : List Char}
    (opens : ∀ char, text.head? = some char → holds char = false) :
    text.dropWhile holds = text := by
  cases text with
  | nil => rfl
  | cons first rest =>
      exact List.dropWhile_cons_of_neg (ne_true_of_eq_false (opens first rfl))

theorem trim_spaces_append {before : List Char} (text : List Char)
    (spaced : ∀ char ∈ before, isSpace char = true) :
    trim (before ++ text) = trim text := by
  rw [trim, List.dropWhile_append_of_pos spaced, trim]

/-- Nothing is trimmed of a text that starts and ends without white space. -/
theorem trim_eq_self {text : List Char}
    (opens : ∀ char, text.head? = some char → isSpace char = false)
    (closes : ∀ char, text.getLast? = some char → isSpace char = false) :
    trim text = text := by
  have reversed : ∀ char, text.reverse.head? = some char →
      isSpace char = false := by
    intro char found
    exact closes char (List.head?_reverse ▸ found)
  rw [trim, dropWhile_eq_self opens, dropWhile_eq_self reversed,
    List.reverse_reverse]

/-- What is trimmed at the end leaves the first visible character. -/
theorem exists_trim_cons {first : Char} (visible : isSpace first = false)
    (rest : List Char) : ∃ others, trim (first :: rest) = first :: others := by
  have opens : (first :: rest).dropWhile isSpace = first :: rest :=
    List.dropWhile_cons_of_neg (ne_true_of_eq_false visible)
  have closes : [first].dropWhile isSpace = [first] :=
    List.dropWhile_cons_of_neg (ne_true_of_eq_false visible)
  rw [trim, opens, List.reverse_cons, List.dropWhile_append]
  split
  case isTrue =>
    rw [closes]
    exact ⟨[], rfl⟩
  case isFalse =>
    rw [List.reverse_append]
    exact ⟨_, rfl⟩

/-- Fields are found apart before and after a blank character. -/
theorem fields_append_blank (left : List Char) {blank : Char}
    (isBlank : isBlank blank = true) (right : List Char) :
    fields (left ++ blank :: right) = fields left ++ fields right := by
  rw [fields, List.splitOnP_append_cons left right isBlank,
    List.filter_append, fields, fields]

theorem fields_blanks_append {blanks : List Char}
    (areBlank : ∀ char ∈ blanks, isBlank char = true) (text : List Char) :
    fields (blanks ++ text) = fields text := by
  induction blanks with
  | nil => rfl
  | cons blank rest induction =>
      rcases List.forall_mem_cons.mp areBlank with ⟨isBlank, restBlank⟩
      have split := fields_append_blank [] isBlank (rest ++ text)
      rw [List.nil_append] at split
      rw [List.cons_append, split, induction restBlank]
      rfl

theorem fields_of_unbroken {field : List Char} (nonempty : field ≠ [])
    (unbroken : ∀ char ∈ field, isBlank char = false) :
    fields field = [field] := by
  rw [fields, List.splitOnP_eq_singleton unbroken]
  simp [nonempty]

end WhiteSpace

/-! ## The parts of a text -/

namespace TableText

/-- Spaces and tabs around fields. -/
structure Padding where
  text : List Char
  blank : ∀ char ∈ text, char = ' ' ∨ char = '\t'

/-- Spaces and tabs between fields. -/
structure Gap extends Padding where
  nonempty : text ≠ []

/-- One or more characters without white space. -/
structure Field where
  text : List Char
  nonempty : text ≠ []
  unspaced : ∀ char ∈ text, WhiteSpace.isSpace char = false

/-- The first field of a row, which must not open a comment. -/
structure LeadingField extends Field where
  notComment : text.head? ≠ some '#'

/-- The fields of a row of each format. -/
inductive Row : LineFormat → Type
  | word (literal : LeadingField) : Row .word
  | namedLiteral (name : LeadingField) (gap : Gap) (literal : Field) :
      Row .namedLiteral
  | wordValue (literal : LeadingField) (gap : Gap)
      (numeral : Numeral.Spelling) : Row .wordValue

/-- A line without its end. -/
inductive Line (format : LineFormat)
  | blank (padding : Padding)
  | comment (padding : Padding) (text : List Char) (unbroken : '\n' ∉ text)
  | row (before : Padding) (fields : Row format) (after : Padding)

/-- What ends a line. -/
inductive LineEnd
  | lineFeed
  | carriageReturn
deriving DecidableEq

/-- The lines of a table.  The last one need not be ended. -/
structure Document (format : LineFormat) where
  ended : List (Line format × LineEnd)
  last : Option (Line format)

/-! ## Texts and entries -/

namespace Row

variable {format : LineFormat}

/-- The characters of the fields and the gap between them. -/
def text : Row format → List Char
  | .word literal => literal.text
  | .namedLiteral name gap literal => name.text ++ gap.text ++ literal.text
  | .wordValue literal gap numeral => literal.text ++ gap.text ++ numeral.text

/-- What a row declares. -/
def entry (category : Category) : Row format → Entry
  | .word literal =>
      ⟨category, String.ofList literal.text, Utf8.encode literal.text, none⟩
  | .namedLiteral name _ literal =>
      ⟨category, String.ofList name.text, Utf8.encode literal.text, none⟩
  | .wordValue literal _ numeral =>
      ⟨category, String.ofList literal.text, Utf8.encode literal.text,
        some numeral.value⟩

end Row

namespace Line

variable {format : LineFormat}

/-- The characters of a line. -/
def text : Line format → List Char
  | .blank padding => padding.text
  | .comment padding text _ => padding.text ++ '#' :: text
  | .row before fields after => before.text ++ fields.text ++ after.text

/-- The row of a line that is no noise. -/
def row? : Line format → Option (Row format)
  | .row _ fields _ => some fields
  | _ => none

end Line

/-- What stands before the line feed that ends a line. -/
def LineEnd.before : LineEnd → List Char
  | .lineFeed => []
  | .carriageReturn => ['\r']

namespace Document

variable {format : LineFormat}

/-- The characters of all lines with their ends. -/
def text (document : Document format) : List Char :=
  (document.ended.flatMap fun (line, lineEnd) =>
    line.text ++ lineEnd.before ++ ['\n']) ++
      document.last.elim [] Line.text

/-- The rows of all lines in their order. -/
def rows (document : Document format) : List (Row format) :=
  (document.ended.map Prod.fst ++ document.last.toList).filterMap Line.row?

/-- The entries of all rows in their order. -/
def entries (document : Document format) (category : Category) : List Entry :=
  document.rows.map (Row.entry category)

end Document

/-! ## Rows -/

theorem Padding.isSpace_of_mem (padding : Padding) {char : Char}
    (member : char ∈ padding.text) : WhiteSpace.isSpace char = true := by
  rcases padding.blank char member with rfl | rfl
  · decide
  · decide

theorem Padding.isBlank_of_mem (padding : Padding) {char : Char}
    (member : char ∈ padding.text) : WhiteSpace.isBlank char = true := by
  rcases padding.blank char member with rfl | rfl
  · decide
  · decide

theorem Field.isBlank_of_mem (field : Field) {char : Char}
    (member : char ∈ field.text) : WhiteSpace.isBlank char = false := by
  cases blank : WhiteSpace.isBlank char with
  | false => rfl
  | true =>
      have spaced := WhiteSpace.isSpace_of_isBlank blank
      rw [field.unspaced char member] at spaced
      cases spaced

theorem Field.fields_text (field : Field) :
    WhiteSpace.fields field.text = [field.text] :=
  WhiteSpace.fields_of_unbroken field.nonempty
    fun _ member => field.isBlank_of_mem member

/-- Two fields with a gap between them are told apart. -/
theorem Field.fields_pair (first : Field) (gap : Gap) (second : Field) :
    WhiteSpace.fields (first.text ++ gap.text ++ second.text) =
      [first.text, second.text] := by
  rcases List.exists_cons_of_ne_nil gap.nonempty with
    ⟨blank, blanks, gap_eq⟩
  have areBlank : ∀ char ∈ blank :: blanks,
      WhiteSpace.isBlank char = true := by
    intro char member
    rw [← gap_eq] at member
    exact gap.isBlank_of_mem member
  rcases List.forall_mem_cons.mp areBlank with ⟨firstBlank, restBlank⟩
  rw [gap_eq, List.append_assoc, List.cons_append,
    WhiteSpace.fields_append_blank _ firstBlank,
    WhiteSpace.fields_blanks_append restBlank, first.fields_text,
    second.fields_text]
  rfl

/-- A numeral is a field. -/
def numeralField (numeral : Numeral.Spelling) : Field where
  text := numeral.text
  nonempty := numeral.text_ne_nil
  unspaced := fun _ member => numeral.isSpace_of_mem_text member

theorem LeadingField.isNoise_append (field : LeadingField)
    (rest : List Char) : Table.isNoise (field.text ++ rest) = false := by
  have notComment := field.notComment
  rcases List.exists_cons_of_ne_nil field.nonempty with
    ⟨first, others, field_eq⟩
  rw [field_eq, List.head?_cons] at notComment
  rw [field_eq]
  exact beq_eq_false_iff_ne.mpr fun same => notComment (congrArg some same)

theorem Field.trim_text (field : Field) :
    WhiteSpace.trim field.text = field.text := by
  apply WhiteSpace.trim_eq_self
  · intro char found
    exact field.unspaced char (List.mem_of_head? found)
  · intro char found
    exact field.unspaced char (List.mem_of_getLast? found)

theorem Field.trim_pair (first : Field) (gap : List Char) (second : Field) :
    WhiteSpace.trim (first.text ++ gap ++ second.text) =
      first.text ++ gap ++ second.text := by
  apply WhiteSpace.trim_eq_self
  · intro char found
    rw [List.append_assoc, List.head?_append_of_ne_nil _ first.nonempty]
      at found
    exact first.unspaced char (List.mem_of_head? found)
  · intro char found
    rw [List.getLast?_append_of_ne_nil _ second.nonempty] at found
    exact second.unspaced char (List.mem_of_getLast? found)

namespace Row

variable {format : LineFormat}

theorem isNoise_text (row : Row format) : Table.isNoise row.text = false := by
  cases row with
  | word literal =>
      have kept := literal.isNoise_append []
      rwa [List.append_nil] at kept
  | namedLiteral name gap literal =>
      rw [text, List.append_assoc]
      exact name.isNoise_append _
  | wordValue literal gap numeral =>
      rw [text, List.append_assoc]
      exact literal.isNoise_append _

theorem trim_text (row : Row format) :
    WhiteSpace.trim row.text = row.text := by
  cases row with
  | word literal => exact literal.toField.trim_text
  | namedLiteral name gap literal => exact name.toField.trim_pair _ literal
  | wordValue literal gap numeral =>
      exact literal.toField.trim_pair _ (numeralField numeral)

/-- A row is read as the entry that it declares. -/
theorem entryOfRow_text (category : Category) (row : Row format) :
    Table.entryOfRow category format row.text = .ok (row.entry category) := by
  apply Table.entryOfRow_eq_ok_iff.mpr
  cases row with
  | word literal =>
      exact Or.inl ⟨rfl, literal.text, literal.toField.fields_text, rfl⟩
  | namedLiteral name gap literal =>
      exact Or.inr (Or.inl ⟨rfl, name.text, literal.text,
        name.toField.fields_pair gap literal, rfl⟩)
  | wordValue literal gap numeral =>
      exact Or.inr (Or.inr ⟨rfl, literal.text, numeral.text, numeral.value,
        literal.toField.fields_pair gap (numeralField numeral),
        numeral.read?_text, rfl⟩)

end Row

/-! ## Lines -/

theorem Field.lineFeed_not_mem (field : Field) : '\n' ∉ field.text := by
  intro member
  exact absurd (field.unspaced '\n' member) (by decide)

theorem Padding.lineFeed_not_mem (padding : Padding) :
    '\n' ∉ padding.text := by
  intro member
  rcases padding.blank '\n' member with same | same
  · cases same
  · cases same

theorem LineEnd.isSpace_of_mem_before {lineEnd : LineEnd} {char : Char}
    (member : char ∈ lineEnd.before) : WhiteSpace.isSpace char = true := by
  cases lineEnd with
  | lineFeed => cases member
  | carriageReturn =>
      rw [List.mem_singleton.mp member]
      decide

theorem LineEnd.lineFeed_not_mem_before (lineEnd : LineEnd) :
    '\n' ∉ lineEnd.before := by
  cases lineEnd with
  | lineFeed => decide
  | carriageReturn => decide

theorem Row.lineFeed_not_mem {format : LineFormat} (row : Row format) :
    '\n' ∉ row.text := by
  cases row with
  | word literal => exact literal.lineFeed_not_mem
  | namedLiteral name gap literal =>
      simp [text, name.lineFeed_not_mem, gap.lineFeed_not_mem,
        literal.lineFeed_not_mem]
  | wordValue literal gap numeral =>
      have unbroken : '\n' ∉ numeral.text :=
        (numeralField numeral).lineFeed_not_mem
      simp [text, literal.lineFeed_not_mem, gap.lineFeed_not_mem, unbroken]

namespace Line

variable {format : LineFormat}

theorem lineFeed_not_mem (line : Line format) : '\n' ∉ line.text := by
  cases line with
  | blank padding => exact padding.lineFeed_not_mem
  | comment padding text unbroken =>
      simp [Line.text, padding.lineFeed_not_mem, unbroken]
  | row before fields after =>
      simp [text, before.lineFeed_not_mem, fields.lineFeed_not_mem,
        after.lineFeed_not_mem]

/-- A line is read as the entry of its row, whatever white space ends it. -/
theorem entryOfLine_text (category : Category) (line : Line format)
    {after : List Char}
    (spaced : ∀ char ∈ after, WhiteSpace.isSpace char = true) :
    Table.entryOfLine category format (line.text ++ after) =
      .ok (line.row?.map (Row.entry category)) := by
  rw [Table.entryOfLine, WhiteSpace.trim_append_spaces _ spaced]
  cases line with
  | blank padding =>
      have trimmed : WhiteSpace.trim padding.text = [] := by
        have nothing := WhiteSpace.trim_spaces_append []
          fun _ => padding.isSpace_of_mem
        rwa [List.append_nil] at nothing
      rw [text, trimmed]
      rfl
  | comment padding text unbroken =>
      have visible : WhiteSpace.isSpace '#' = false := by decide
      rcases WhiteSpace.exists_trim_cons visible text with
        ⟨others, trimmed⟩
      rw [Line.text, WhiteSpace.trim_spaces_append _
        fun _ => padding.isSpace_of_mem, trimmed]
      rfl
  | row before fields after =>
      rw [text, WhiteSpace.trim_append_spaces _ fun _ => after.isSpace_of_mem,
        WhiteSpace.trim_spaces_append _ fun _ => before.isSpace_of_mem,
        fields.trim_text]
      simp only [fields.isNoise_text, fields.entryOfRow_text]
      rfl

end Line

/-! ## Documents -/

namespace Document

variable {format : LineFormat}

/--
What stands before, between and after the line feeds: all lines, each with
the white space before its line feed.  After the last line feed of a text
whose last line is ended nothing stands, which is a blank line here.
-/
def segments (document : Document format) :
    List (Line format × List Char) :=
  (document.ended.map fun (line, lineEnd) => (line, lineEnd.before)) ++
    [(document.last.getD (.blank ⟨[], List.forall_mem_nil _⟩), [])]

theorem segments_text (document : Document format) :
    WhiteSpace.segments document.text =
      document.segments.map fun (line, after) => line.text ++ after := by
  rcases document with ⟨ended, last⟩
  induction ended with
  | nil =>
      cases last with
      | none => rfl
      | some line =>
          have whole := WhiteSpace.segments_of_not_mem line.lineFeed_not_mem
          simpa [text, segments] using whole
  | cons head rest induction =>
      rcases head with ⟨line, lineEnd⟩
      have unbroken : '\n' ∉ line.text ++ lineEnd.before := by
        simp [line.lineFeed_not_mem, lineEnd.lineFeed_not_mem_before]
      have text_eq : text ⟨(line, lineEnd) :: rest, last⟩ =
          (line.text ++ lineEnd.before) ++ '\n' :: text ⟨rest, last⟩ := by
        simp [text]
      rw [text_eq, WhiteSpace.segments_append_lineFeed,
        WhiteSpace.segments_of_not_mem unbroken, induction]
      rfl

/-- What stands after the last end is no row. -/
theorem filterMap_segments (document : Document format)
    (category : Category) :
    (document.segments.filterMap fun (line, _) =>
      line.row?.map (Row.entry category)) = document.entries category := by
  have ended : ∀ lines : List (Line format × LineEnd),
      ((lines.map fun (line, lineEnd) => (line, lineEnd.before)).filterMap
        fun (line, _) => line.row?.map (Row.entry category)) =
        ((lines.map Prod.fst).filterMap Line.row?).map
          (Row.entry category) := by
    intro lines
    rw [List.filterMap_map, List.filterMap_map, List.map_filterMap]
    rfl
  rw [segments, List.filterMap_append, ended, entries, rows,
    List.filterMap_append, List.map_append]
  cases document.last with
  | none => rfl
  | some line =>
      cases line with
      | blank padding => rfl
      | comment padding text unbroken => rfl
      | row before fields after => rfl

end Document

end TableText

/--
Tables are read back.  If the text of a table is put together from blank
lines, comments and rows of its format, with any padding and either line end,
it has no fault, and there is one entry for each row, in the order of the rows:
the first field is its name, the literal is the first field too or, after a
name, the second one, and a numeral gives its value.
-/
theorem Table.entries_written {table : Table}
    (document : TableText.Document table.format)
    (written : table.text.toList = document.text) :
    table.entries = .ok (document.entries table.category) := by
  rw [entries_eq_segments, written, document.segments_text,
    ← document.filterMap_segments table.category]
  apply entriesOfLines_map
  rintro ⟨line, after⟩ listed
  apply line.entryOfLine_text table.category
  intro char member
  rcases List.mem_append.mp listed with inEnded | isLast
  · rcases List.mem_map.mp inEnded with ⟨⟨_, lineEnd⟩, _, same⟩
    cases same
    exact TableText.LineEnd.isSpace_of_mem_before member
  · cases List.mem_singleton.mp isLast
    cases member

/--
Two opcodes with a comment before and a blank line between them.  Both line
ends occur, the second value has a zero in front, and the last row is not
ended.
-/
def TableText.codes : TableText.Document .wordValue where
  ended :=
    [(.comment ⟨[], by simp⟩ [' ', 'c', 'o', 'd', 'e', 's'] (by simp),
        .carriageReturn),
      (.row ⟨['\t'], by simp⟩
        (.wordValue
          ⟨⟨['a', 'd', 'd'], by simp,
            by simp [WhiteSpace.isSpace, WhiteSpace.characters]⟩, by simp⟩
          ⟨⟨[' '], by simp⟩, by simp⟩
          ⟨.hexLower, false, [⟨1, true, by decide⟩, ⟨15, true, by decide⟩],
            by simp, by decide⟩)
        ⟨[' '], by simp⟩, .lineFeed),
      (.blank ⟨[' ', '\t'], by simp⟩, .carriageReturn)]
  last := some (.row ⟨[], by simp⟩
    (.wordValue
      ⟨⟨['ü'], by simp,
        by simp [WhiteSpace.isSpace, WhiteSpace.characters]⟩, by simp⟩
      ⟨⟨['\t', ' '], by simp⟩, by simp⟩
      ⟨.decimal, false, [⟨0, false, by decide⟩, ⟨7, false, by decide⟩],
        by simp, by decide⟩)
    ⟨[], by simp⟩)

/-- Both opcodes are read, with their values and the bytes of their names. -/
theorem Table.entries_written_codes :
    Table.entries
        ⟨.opcode, "codes", "# codes\r\n\tadd 0x1F \n \t\r\nü\t 07", .wordValue,
          .wholeWord⟩ =
      .ok [⟨.opcode, "add", [0x61, 0x64, 0x64], some 31⟩,
        ⟨.opcode, "ü", [0xC3, 0xBC], some 7⟩] :=
  @Table.entries_written
    ⟨.opcode, "codes", "# codes\r\n\tadd 0x1F \n \t\r\nü\t 07", .wordValue,
      .wholeWord⟩ TableText.codes rfl

end Lexicon
