import Lexicon.Proofs.Classification
import Lexicon.Table
import Mathlib.Data.List.Nodup

/-!
# Literals of tables

The literal of an entry that comes from a table is a field of a row.  Fields
are not empty and hold no blank character, and a blank byte is the encoding
of a blank character, so no literal of a table holds a blank byte.  The
boundary of whole words allows every blank byte.

Blank bytes therefore take no part in recognition with tables: they belong to
no literal and may follow every literal.
-/

namespace Lexicon

/-! ## Fields -/

namespace WhiteSpace

/-- A field is not empty and holds no blank character. -/
theorem unbroken_of_mem_fields {text field : List Char}
    (member : field ∈ fields text) :
    field ≠ [] ∧ ∀ char ∈ field, isBlank char = false := by
  rcases List.mem_filter.mp member with ⟨piece, nonempty⟩
  constructor
  · simpa using nonempty
  · intro char inside
    exact eq_false_of_mem_splitOnP piece inside

end WhiteSpace

namespace Utf8

/-- A character outside ASCII is encoded without bytes of ASCII. -/
theorem le_toNat_of_mem_utf8EncodeChar {char : Char}
    (wide : ¬ char.val.toNat ≤ 0x7F) :
    ∀ byte ∈ String.utf8EncodeChar char, 0x80 ≤ byte.toNat := by
  simp only [String.utf8EncodeChar, if_neg wide]
  split
  case isTrue =>
    simp only [List.forall_mem_cons, UInt8.toNat_ofNat']
    refine ⟨?_, ?_, List.forall_mem_nil _⟩
    all_goals omega
  case isFalse =>
    split
    case isTrue =>
      simp only [List.forall_mem_cons, UInt8.toNat_ofNat']
      refine ⟨?_, ?_, ?_, List.forall_mem_nil _⟩
      all_goals omega
    case isFalse =>
      simp only [List.forall_mem_cons, UInt8.toNat_ofNat']
      refine ⟨?_, ?_, ?_, ?_, List.forall_mem_nil _⟩
      all_goals omega

/-- A byte of ASCII in an encoding is the encoding of the same character. -/
theorem eq_ofNat_of_mem_utf8EncodeChar {char : Char} {byte : UInt8}
    (member : byte ∈ String.utf8EncodeChar char)
    (ascii : byte.toNat < 0x80) : char = Char.ofNat byte.toNat := by
  by_cases single : char.val.toNat ≤ 0x7F
  · simp only [String.utf8EncodeChar, if_pos single] at member
    have code : byte.toNat = char.val.toNat := by
      rw [List.mem_singleton.mp member, UInt8.toNat_ofNat']
      exact Nat.mod_eq_of_lt (Nat.lt_of_le_of_lt single (by decide))
    rw [code]
    exact (Char.ofNat_toNat char).symm
  · have wide := le_toNat_of_mem_utf8EncodeChar single byte member
    exact absurd ascii (Nat.not_lt.mpr wide)

theorem isBlank_of_mem_encode {text : List Char}
    (unbroken : ∀ char ∈ text, WhiteSpace.isBlank char = false)
    {byte : UInt8} (member : byte ∈ encode text) :
    Byte.isBlank byte = false := by
  rcases List.mem_flatMap.mp member with ⟨char, inside, encoded⟩
  cases blank : Byte.isBlank byte with
  | false => rfl
  | true =>
      have notBlank := unbroken char inside
      have ascii : byte.toNat < 0x80 := by
        have small := Byte.isAscii_of_isBlank blank
        simpa [Byte.isAscii, UInt8.lt_iff_toNat_lt] using small
      rw [eq_ofNat_of_mem_utf8EncodeChar encoded ascii] at notBlank
      rcases Byte.isBlank_iff.mp blank with rfl | rfl | rfl | rfl | rfl <;>
        exact absurd notBlank (by decide)

end Utf8

/-! ## Entries of tables -/

/-- The literal of the entry is a field: it is not empty and holds no blank character. -/
def Entry.IsField (entry : Entry) : Prop :=
  ∃ field, field ≠ [] ∧
    (∀ char ∈ field, WhiteSpace.isBlank char = false) ∧
      entry.literal = Utf8.encode field

theorem Entry.IsField.literal_ne_nil {entry : Entry}
    (isField : entry.IsField) : entry.literal ≠ [] := by
  rcases isField with ⟨field, nonempty, _, literal⟩
  rcases List.exists_cons_of_ne_nil nonempty with ⟨char, rest, rfl⟩
  rw [literal, Utf8.encode_cons]
  exact List.append_ne_nil_of_left_ne_nil String.utf8EncodeChar_ne_nil _

theorem Entry.IsField.isBlank_of_mem_literal {entry : Entry}
    (isField : entry.IsField) {byte : UInt8}
    (member : byte ∈ entry.literal) : Byte.isBlank byte = false := by
  rcases isField with ⟨field, _, unbroken, literal⟩
  rw [literal] at member
  exact Utf8.isBlank_of_mem_encode unbroken member

namespace Table

/-- What the rows of each format declare. -/
theorem entryOfRow_eq_ok_iff {category : Category} {format : LineFormat}
    {row : List Char} {entry : Entry} :
    entryOfRow category format row = .ok entry ↔
      (format = .word ∧ ∃ literal, WhiteSpace.fields row = [literal] ∧
          entry = Entry.ofText category literal literal) ∨
        (format = .namedLiteral ∧ ∃ name literal,
          WhiteSpace.fields row = [name, literal] ∧
            entry = Entry.ofText category name literal) ∨
        (format = .wordValue ∧ ∃ literal numeral value,
          WhiteSpace.fields row = [literal, numeral] ∧
            Numeral.read? numeral = some value ∧
            entry = (Entry.ofText category literal literal).withValue
              value) := by
  constructor
  · intro parsed
    unfold entryOfRow entryOfFields at parsed
    split at parsed
    case h_1 literal row_eq =>
      cases parsed
      exact Or.inl ⟨rfl, literal, row_eq, rfl⟩
    case h_2 name literal row_eq =>
      cases parsed
      exact Or.inr (Or.inl ⟨rfl, name, literal, row_eq, rfl⟩)
    case h_3 literal numeral row_eq =>
      split at parsed
      case h_1 value read =>
        cases parsed
        exact Or.inr (Or.inr
          ⟨rfl, literal, numeral, value, row_eq, read, rfl⟩)
      case h_2 => cases parsed
    case h_4 => cases parsed
  · rintro (⟨rfl, literal, row_eq, rfl⟩ | ⟨rfl, name, literal, row_eq, rfl⟩ |
      ⟨rfl, literal, numeral, value, row_eq, read, rfl⟩)
    · rw [entryOfRow, row_eq, entryOfFields]
    · rw [entryOfRow, row_eq, entryOfFields]
    · rw [entryOfRow, row_eq, entryOfFields, read]

/-- The literal of a row is one of its fields. -/
theorem literal_of_entryOfRow {category : Category} {format : LineFormat}
    {row : List Char} {entry : Entry}
    (parsed : entryOfRow category format row = .ok entry) :
    entry.category = category ∧
      ∃ field ∈ WhiteSpace.fields row,
        entry.literal = Utf8.encode field := by
  rcases entryOfRow_eq_ok_iff.mp parsed with
    ⟨_, literal, row_eq, rfl⟩ | ⟨_, name, literal, row_eq, rfl⟩ |
      ⟨_, literal, numeral, value, row_eq, _, rfl⟩
  · exact ⟨rfl, literal, by simp [row_eq], rfl⟩
  · exact ⟨rfl, literal, by simp [row_eq], rfl⟩
  · exact ⟨rfl, literal, by simp [row_eq], rfl⟩

theorem exists_row_of_entryOfLine {category : Category}
    {format : LineFormat} {line : List Char} {entry : Entry}
    (parsed : entryOfLine category format line = .ok (some entry)) :
    ∃ row, entryOfRow category format row = .ok entry := by
  unfold entryOfLine at parsed
  dsimp only at parsed
  split at parsed
  case isTrue => cases parsed
  case isFalse =>
    refine ⟨WhiteSpace.trim line, ?_⟩
    cases row : entryOfRow category format (WhiteSpace.trim line) with
    | error fault =>
        rw [row] at parsed
        cases parsed
    | ok found =>
        rw [row] at parsed
        cases parsed
        rfl

theorem exists_row_of_entriesOfLines {file : String} {category : Category}
    {format : LineFormat} {number : Nat} {lines : List (List Char)}
    {entries : List Entry}
    (parsed : entriesOfLines file category format number lines =
      .ok entries) {entry : Entry} (member : entry ∈ entries) :
    ∃ row, entryOfRow category format row = .ok entry := by
  induction lines generalizing number entries with
  | nil =>
      cases parsed
      cases member
  | cons line rest induction =>
      rw [entriesOfLines] at parsed
      split at parsed
      case h_1 => cases parsed
      case h_2 found first =>
        split at parsed
        case h_1 => cases parsed
        case h_2 others later =>
          cases parsed
          rcases List.mem_append.mp member with here | there
          · rw [Option.mem_toList] at here
            rw [here] at first
            exact exists_row_of_entryOfLine first
          · exact induction later there

/-- The table has no faulty row, and one of its rows is the entry. -/
def Declares (table : Table) (entry : Entry) : Prop :=
  ∃ entries, table.entries = .ok entries ∧ entry ∈ entries

theorem Declares.exists_row {table : Table} {entry : Entry}
    (declares : table.Declares entry) :
    ∃ row, entryOfRow table.category table.format row = .ok entry := by
  rcases declares with ⟨entries, parsed, member⟩
  exact exists_row_of_entriesOfLines parsed member

theorem Declares.literal {table : Table} {entry : Entry}
    (declares : table.Declares entry) :
    entry.category = table.category ∧ entry.IsField := by
  rcases declares.exists_row with ⟨row, found⟩
  rcases literal_of_entryOfRow found with
    ⟨sameCategory, field, inRow, literal⟩
  rcases WhiteSpace.unbroken_of_mem_fields inRow with ⟨nonempty, unbroken⟩
  exact ⟨sameCategory, field, nonempty, unbroken, literal⟩

theorem Declares.category_eq {table : Table} {entry : Entry}
    (declares : table.Declares entry) : entry.category = table.category :=
  declares.literal.1

theorem Declares.isField {table : Table} {entry : Entry}
    (declares : table.Declares entry) : entry.IsField :=
  declares.literal.2

/-- The rows with a value are those of tables whose format has one. -/
theorem Declares.isSome_value_iff {table : Table} {entry : Entry}
    (declares : table.Declares entry) :
    entry.value.isSome = true ↔ table.format = .wordValue := by
  rcases declares.exists_row with ⟨row, found⟩
  rcases entryOfRow_eq_ok_iff.mp found with
    ⟨format_eq, literal, _, rfl⟩ | ⟨format_eq, name, literal, _, rfl⟩ |
      ⟨format_eq, literal, numeral, value, _, _, rfl⟩
  · simp [format_eq, Entry.ofText]
  · simp [format_eq, Entry.ofText]
  · simp [format_eq, Entry.withValue]

/-- An entry with a value is named by how it is written. -/
theorem Declares.literal_eq_of_value {table : Table} {entry : Entry}
    (declares : table.Declares entry) (valued : entry.value.isSome = true) :
    entry.literal = Utf8.ofString entry.name := by
  rcases declares.exists_row with ⟨row, found⟩
  rcases entryOfRow_eq_ok_iff.mp found with
    ⟨_, literal, _, rfl⟩ | ⟨_, name, literal, _, rfl⟩ |
      ⟨_, literal, numeral, value, _, _, rfl⟩
  · simp [Entry.ofText] at valued
  · simp [Entry.ofText] at valued
  · simp [Entry.withValue, Entry.ofText, Utf8.ofString]

/-- The entries of several tables are those that some table declares. -/
theorem mem_entriesOfAll_iff {tables : List Table} {entries : List Entry}
    (parsed : entriesOfAll tables = .ok entries) {entry : Entry} :
    entry ∈ entries ↔ ∃ table ∈ tables, table.Declares entry := by
  induction tables generalizing entries with
  | nil =>
      cases parsed
      simp
  | cons table rest induction =>
      rw [entriesOfAll] at parsed
      split at parsed
      case h_1 => cases parsed
      case h_2 found first =>
        split at parsed
        case h_1 => cases parsed
        case h_2 others later =>
          cases parsed
          have here : table.Declares entry ↔ entry ∈ found := by
            simp [Declares, first]
          rw [List.mem_append, induction later, List.exists_mem_cons_iff,
            here]

end Table

/-! ## Tokenizers of tables -/

theorem eq_ok_of_mapError {ε ε' α : Type} {outcome : Except ε α}
    {rename : ε → ε'} {result : α}
    (renamed : outcome.mapError rename = .ok result) :
    outcome = .ok result := by
  cases outcome with
  | error error => cases renamed
  | ok found =>
      cases renamed
      rfl

theorem Catalog.load_of_ofTables {tables : List Table} {catalog : Catalog}
    (built : Catalog.ofTables tables = .ok catalog) :
    ∃ entries, Table.entriesOfAll tables = .ok entries ∧
      Catalog.load entries = .ok catalog := by
  unfold Catalog.ofTables at built
  split at built
  case h_1 => cases built
  case h_2 entries parsed =>
    exact ⟨entries, parsed, eq_ok_of_mapError built⟩

/-- The entries of a catalog of tables are those that some table declares. -/
theorem Catalog.mem_entries_iff {tables : List Table} {catalog : Catalog}
    (built : Catalog.ofTables tables = .ok catalog) {entry : Entry} :
    entry ∈ catalog.entries ↔ ∃ table ∈ tables, table.Declares entry := by
  rcases Catalog.load_of_ofTables built with ⟨entries, parsed, loaded⟩
  rw [Catalog.mem_entries_of_load loaded]
  exact Table.mem_entriesOfAll_iff parsed

theorem Tokenizer.catalog_of_ofTables {tables : List Table}
    {tokenizer : Tokenizer}
    (built : Tokenizer.ofTables tables = .ok tokenizer) :
    Catalog.ofTables tables = .ok tokenizer.catalog := by
  unfold Tokenizer.ofTables at built
  split at built
  case h_1 => cases built
  case h_2 catalog ofTables =>
    rw [ofTables, (Tokenizer.parts_of_build (eq_ok_of_mapError built)).1]

/-- A tokenizer of tables is built from their entries and rules. -/
theorem Tokenizer.build_of_ofTables {tables : List Table}
    {tokenizer : Tokenizer} (built : Tokenizer.ofTables tables = .ok tokenizer) :
    ∃ entries catalog, Table.entriesOfAll tables = .ok entries ∧
      Catalog.load entries = .ok catalog ∧
        Tokenizer.build catalog (tables.map Table.rule) = .ok tokenizer := by
  unfold Tokenizer.ofTables at built
  split at built
  case h_1 => cases built
  case h_2 catalog ofTables =>
    rcases Catalog.load_of_ofTables ofTables with ⟨entries, parsed, loaded⟩
    exact ⟨entries, catalog, parsed, loaded, eq_ok_of_mapError built⟩

section Declared

variable {tables : List Table} {tokenizer : Tokenizer}

/-- The categories of the tables are tried in the order of the tables. -/
theorem Tokenizer.rules_of_ofTables
    (built : Tokenizer.ofTables tables = .ok tokenizer) :
    tokenizer.rules = tables.map Table.rule := by
  rcases Tokenizer.build_of_ofTables built with
    ⟨entries, catalog, parsed, loaded, assembled⟩
  exact (Tokenizer.parts_of_build assembled).2

theorem Tokenizer.mem_entries_iff
    (built : Tokenizer.ofTables tables = .ok tokenizer) {entry : Entry} :
    entry ∈ tokenizer.catalog.entries ↔
      ∃ table ∈ tables, table.Declares entry :=
  Catalog.mem_entries_iff (Tokenizer.catalog_of_ofTables built)

/-- No two tables of a tokenizer have the same category. -/
theorem Tokenizer.eq_of_category_eq
    (built : Tokenizer.ofTables tables = .ok tokenizer)
    {left right : Table} (leftListed : left ∈ tables)
    (rightListed : right ∈ tables)
    (same : left.category = right.category) : left = right := by
  have distinct := tokenizer.distinct
  rw [Tokenizer.rules_of_ofTables built, List.map_map] at distinct
  exact List.inj_on_of_nodup_map distinct leftListed rightListed same

/-- An entry is admissible under the rule of the table that declares it. -/
theorem Tokenizer.admissible_rule_iff
    (built : Tokenizer.ofTables tables = .ok tokenizer) {table : Table}
    (listed : table ∈ tables) {input : Bytes} {entry : Entry} :
    Admissible tokenizer.catalog.entries table.rule input entry ↔
      table.Declares entry ∧ entry.literal <+: input ∧
        table.rule.Admits (input.drop entry.literal.length) := by
  constructor
  · rintro ⟨declared, sameCategory, starts, follows⟩
    rcases (Tokenizer.mem_entries_iff built).mp declared with
      ⟨other, otherListed, declares⟩
    have same : other = table :=
      Tokenizer.eq_of_category_eq built otherListed listed
        (declares.category_eq.symm.trans sameCategory)
    rw [← same]
    rw [← same] at follows
    exact ⟨declares, starts, follows⟩
  · rintro ⟨declares, starts, follows⟩
    have declared := (Tokenizer.mem_entries_iff built).mpr
      ⟨table, listed, declares⟩
    exact ⟨declared, declares.category_eq, starts, follows⟩

/--
A token comes from the first table with an entry that can be read.  Its bytes
are the literal of the entry, and the table lets the rest follow.
-/
theorem Tokenizer.declares_of_classify
    (built : Tokenizer.ofTables tables = .ok tokenizer) {offset : Nat}
    {input : Bytes} {recognition : Recognition}
    (classified : tokenizer.classify offset input = .ok recognition) :
    ∃ before table after entry, tables = before ++ table :: after ∧
      table.Declares entry ∧ recognition.token = Token.ofEntry entry ∧
      recognition.length = entry.literal.length ∧
      input = entry.literal ++ recognition.rest ∧
      table.rule.Admits recognition.rest ∧
      ∀ earlier ∈ before, ∀ other,
        ¬ Admissible tokenizer.catalog.entries earlier.rule input other := by
  rcases Tokenizer.classify_eq_ok_iff.mp classified with
    ⟨entry, ⟨rulesBefore, rule, rulesAfter, split, longest, failed⟩,
      sameToken, sameLength, whole⟩
  rw [Tokenizer.rules_of_ofTables built] at split
  rcases List.map_eq_append_iff.mp split with
    ⟨before, others, tablesSplit, rfl, othersSplit⟩
  rcases List.map_eq_cons_iff.mp othersSplit with
    ⟨table, after, rfl, rfl, rfl⟩
  have listed : table ∈ tables := by simp [tablesSplit]
  rcases (Tokenizer.admissible_rule_iff built listed).mp
      longest.admissible with ⟨declares, _, follows⟩
  rw [whole, List.drop_left] at follows
  refine ⟨before, table, after, entry, tablesSplit, declares, sameToken,
    sameLength, whole, follows, ?_⟩
  intro earlier earlierListed other
  exact failed earlier.rule (List.mem_map_of_mem earlierListed) other

end Declared

/-- Blank bytes belong to no literal and may follow every literal. -/
structure Tokenizer.BlankFree (tokenizer : Tokenizer) : Prop where
  literals : ∀ entry ∈ tokenizer.catalog.entries, ∀ byte ∈ entry.literal,
    Byte.isBlank byte = false
  boundaries : ∀ rule ∈ tokenizer.rules, ∀ boundary,
    rule.boundary = some boundary → ∀ byte, Byte.isBlank byte = true →
      boundary.allowed.contains byte = true

theorem Adjacency.contains_of_isBlank {adjacency : Adjacency}
    {boundary : Boundary} (found : adjacency.boundary? = some boundary)
    {byte : UInt8} (blank : Byte.isBlank byte = true) :
    boundary.allowed.contains byte = true := by
  cases adjacency with
  | free => cases found
  | wholeWord =>
      cases found
      show ByteSet.wordBoundary.contains byte = true
      rw [ByteSet.contains_wordBoundary, Byte.isAscii_of_isBlank blank,
        Byte.isWord_of_isBlank blank]
      rfl

/-- Blank bytes take no part in recognition with tables. -/
theorem Tokenizer.blankFree_of_ofTables {tables : List Table}
    {tokenizer : Tokenizer}
    (built : Tokenizer.ofTables tables = .ok tokenizer) :
    tokenizer.BlankFree := by
  constructor
  · intro entry member byte inside
    rcases (Tokenizer.mem_entries_iff built).mp member with
      ⟨table, _, declares⟩
    exact declares.isField.isBlank_of_mem_literal inside
  · intro rule listed boundary found byte blank
    rw [Tokenizer.rules_of_ofTables built] at listed
    rcases List.mem_map.mp listed with ⟨table, _, rfl⟩
    exact Adjacency.contains_of_isBlank found blank

end Lexicon
