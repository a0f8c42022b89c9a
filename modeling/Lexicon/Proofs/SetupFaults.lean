import Lexicon.Proofs.TableLoading

/-!
# Faults of tables

A tokenizer is set up from tables in three stages.  The rows of all tables are
read, the entries of all rows are checked together, and then the categories
of the tables make up the priority order.  Each stage may fail, and one list
of tables may hold faults for all of them.

This module says which tables are accepted, without speaking of stages, and
which fault is reported for the others: a faulty row before anything that is
wrong with the entries, and both before a repeated category.  Of the faults
of entries, an empty literal cannot come from a table, and a value is missing
only where the format of a table has no place for one.
-/

namespace Lexicon

/-! ## What is accepted and what is reported -/

/-- The entries of a table in the order of its rows, none if a row is faulty. -/
def Table.rows (table : Table) : List Entry :=
  match table.entries with
  | .ok entries => entries
  | .error _ => []

/-- No row of the table is faulty. -/
def Table.Parses (table : Table) : Prop :=
  ∃ entries, table.entries = .ok entries

/-- What tables must satisfy for a tokenizer to be built from them. -/
structure Buildable (tables : List Table) : Prop where
  parses : ∀ table ∈ tables, table.Parses
  width_in_range : ∀ table ∈ tables, table.category = .uint →
    ∀ entry ∈ table.rows,
      ∃ width, entry.value = some width ∧ 1 ≤ width ∧ width ≤ 256
  code_in_range : ∀ table ∈ tables, table.category = .opcode →
    ∀ entry ∈ table.rows, ∃ code, entry.value = some code ∧ code ≤ 255
  /-- No literal occurs twice in a category, over all tables together. -/
  literals_distinct : (tables.flatMap Table.rows).Pairwise fun left right =>
    left.category = right.category → left.literal ≠ right.literal
  categories_distinct : (tables.map Table.category).Nodup

/-- The fault that is reported for tables. -/
inductive FirstFault (tables : List Table) : SetupError → Prop
  /-- The first table with a faulty row. -/
  | table {before : List Table} {table : Table} {after : List Table}
      {error : TableError} (split : tables = before ++ table :: after)
      (earlier : ∀ other ∈ before, other.Parses)
      (failed : table.entries = .error error) :
      FirstFault tables (.table error)
  /-- No row is faulty, but the entries of all tables do not make up a catalog. -/
  | entries {error : CatalogError}
      (parses : ∀ table ∈ tables, table.Parses)
      (failed : Catalog.load (tables.flatMap Table.rows) = .error error) :
      FirstFault tables (.catalog error)
  /-- There is a catalog, and this is the first table whose category occurred before. -/
  | priority {catalog : Catalog} {before : List Table} {table : Table}
      {after : List Table} (parses : ∀ table ∈ tables, table.Parses)
      (loaded : Catalog.load (tables.flatMap Table.rows) = .ok catalog)
      (split : tables = before ++ table :: after)
      (distinct : (before.map Table.category).Nodup)
      (repeated : table.category ∈ before.map Table.category) :
      FirstFault tables (.catalog (.duplicatePriority table.category))

/-! ## Reading the rows -/

namespace Table

theorem rows_of_entries {table : Table} {entries : List Entry}
    (parsed : table.entries = .ok entries) : table.rows = entries := by
  rw [rows, parsed]

theorem Parses.mem_rows_iff {table : Table} (parses : table.Parses)
    {entry : Entry} : entry ∈ table.rows ↔ table.Declares entry := by
  rcases parses with ⟨entries, parsed⟩
  simp [rows_of_entries parsed, Declares, parsed]

theorem not_parses_iff {table : Table} :
    ¬ table.Parses ↔ ∃ error, table.entries = .error error := by
  rw [Parses]
  cases table.entries with
  | error error => simp
  | ok entries => simp

/-- If no table has a faulty row, all rows are read in the order of the tables. -/
theorem entriesOfAll_of_parses {tables : List Table}
    (parses : ∀ table ∈ tables, table.Parses) :
    entriesOfAll tables = .ok (tables.flatMap rows) := by
  induction tables with
  | nil => rfl
  | cons table rest induction =>
      rcases List.forall_mem_cons.mp parses with
        ⟨⟨entries, parsed⟩, restParses⟩
      rw [List.flatMap_cons, rows_of_entries parsed, entriesOfAll, parsed,
        induction restParses]

/-- Reading stops at the first table with a faulty row. -/
theorem entriesOfAll_of_faulty {before after : List Table} {table : Table}
    {error : TableError} (earlier : ∀ other ∈ before, other.Parses)
    (failed : table.entries = .error error) :
    entriesOfAll (before ++ table :: after) = .error error := by
  induction before with
  | nil => rw [List.nil_append, entriesOfAll, failed]
  | cons first before induction =>
      rcases List.forall_mem_cons.mp earlier with
        ⟨⟨entries, parsed⟩, others⟩
      rw [List.cons_append, entriesOfAll, parsed, induction others]

theorem exists_first_faulty {tables : List Table}
    (faulty : ¬ ∀ table ∈ tables, table.Parses) :
    ∃ before table after error, tables = before ++ table :: after ∧
      (∀ other ∈ before, other.Parses) ∧ table.entries = .error error := by
  induction tables with
  | nil => exact absurd (List.forall_mem_nil _) faulty
  | cons table rest induction =>
      by_cases parses : table.Parses
      · have restFaulty : ¬ ∀ other ∈ rest, other.Parses := by
          intro restParses
          exact faulty (List.forall_mem_cons.mpr ⟨parses, restParses⟩)
        rcases induction restFaulty with
          ⟨before, first, after, error, rfl, earlier, failed⟩
        exact ⟨table :: before, first, after, error, rfl,
          List.forall_mem_cons.mpr ⟨parses, earlier⟩, failed⟩
      · rcases not_parses_iff.mp parses with ⟨error, failed⟩
        exact ⟨[], table, rest, error, rfl, List.forall_mem_nil _, failed⟩

/-- The rows of all tables are the entries that some table declares. -/
theorem mem_flatMap_rows_iff {tables : List Table}
    (parses : ∀ table ∈ tables, table.Parses) {entry : Entry} :
    entry ∈ tables.flatMap rows ↔
      ∃ table ∈ tables, table.Declares entry :=
  mem_entriesOfAll_iff (entriesOfAll_of_parses parses)

end Table

/-! ## Checking the entries -/

/-- The rows of tables are loadable if values fit and no literal is repeated. -/
theorem loadable_flatMap_rows_iff {tables : List Table}
    (parses : ∀ table ∈ tables, table.Parses) :
    Loadable (tables.flatMap Table.rows) ↔
      (∀ table ∈ tables, table.category = .uint → ∀ entry ∈ table.rows,
          ∃ width, entry.value = some width ∧ 1 ≤ width ∧ width ≤ 256) ∧
        (∀ table ∈ tables, table.category = .opcode →
          ∀ entry ∈ table.rows,
            ∃ code, entry.value = some code ∧ code ≤ 255) ∧
        (tables.flatMap Table.rows).Pairwise fun left right =>
          left.category = right.category → left.literal ≠ right.literal := by
  have member : ∀ {table entry}, table ∈ tables → entry ∈ table.rows →
      entry ∈ tables.flatMap Table.rows ∧
        entry.category = table.category := by
    intro table entry listed inRows
    have declares := (parses table listed).mem_rows_iff.mp inRows
    exact ⟨List.mem_flatMap.mpr ⟨table, listed, inRows⟩,
      declares.category_eq⟩
  constructor
  · intro loadable
    refine ⟨?_, ?_, loadable.distinct⟩
    · intro table listed isUint entry inRows
      rcases member listed inRows with ⟨inAll, same⟩
      exact loadable.width_in_range entry inAll (same.trans isUint)
    · intro table listed isOpcode entry inRows
      rcases member listed inRows with ⟨inAll, same⟩
      exact loadable.code_in_range entry inAll (same.trans isOpcode)
  · rintro ⟨width, code, distinct⟩
    constructor
    · intro entry inAll
      rcases (Table.mem_flatMap_rows_iff parses).mp inAll with
        ⟨table, _, declares⟩
      exact declares.isField.literal_ne_nil
    · intro entry inAll isUint
      rcases List.mem_flatMap.mp inAll with ⟨table, listed, inRows⟩
      have same := (member listed inRows).2
      exact width table listed (same.symm.trans isUint) entry inRows
    · intro entry inAll isOpcode
      rcases List.mem_flatMap.mp inAll with ⟨table, listed, inRows⟩
      have same := (member listed inRows).2
      exact code table listed (same.symm.trans isOpcode) entry inRows
    · exact distinct

/-! ## Building the priority order -/

namespace Tokenizer

theorem build_of_repeated? (catalog : Catalog) {rules : List Rule}
    {category : Category} (repeated : repeated? rules = some category) :
    build catalog rules = .error (.duplicatePriority category) := by
  unfold build
  split
  case h_1 found same =>
    rw [repeated] at same
    cases same
    rfl
  case h_2 none =>
    rw [repeated] at none
    cases none

theorem repeated?_rules {before after : List Table} {table : Table}
    (distinct : (before.map Table.category).Nodup)
    (repeated : table.category ∈ before.map Table.category) :
    repeated? ((before ++ table :: after).map Table.rule) =
      some table.category := by
  rcases List.mem_map.mp repeated with ⟨other, listed, same⟩
  have clash : firstClash? Rule.category
      ((before ++ table :: after).map Table.rule) =
        some (other.rule, table.rule) := by
    apply firstClash?_eq_some_iff.mpr
    refine ⟨before.map Table.rule, after.map Table.rule, ?_, ?_,
      List.mem_map_of_mem listed, same⟩
    · rw [List.map_append, List.map_cons]
    · rw [List.map_map]
      exact distinct
  rw [repeated?, clash]
  rfl

end Tokenizer

theorem exists_first_repeated {tables : List Table}
    (repeated : ¬ (tables.map Table.category).Nodup) :
    ∃ before table after, tables = before ++ table :: after ∧
      (before.map Table.category).Nodup ∧
        table.category ∈ before.map Table.category := by
  cases clash : firstClash? Table.category tables with
  | none => exact absurd ((firstClash?_eq_none_iff _ _).mp clash) repeated
  | some pair =>
      rcases firstClash?_eq_some_iff.mp clash with
        ⟨before, after, split, distinct, earlier, same⟩
      exact ⟨before, pair.2, after, split, distinct,
        List.mem_map.mpr ⟨pair.1, earlier, same⟩⟩

/-! ## The three stages together -/

/-- Tables that are not accepted have a first fault. -/
theorem buildable_or_firstFault (tables : List Table) :
    Buildable tables ∨ ∃ error, FirstFault tables error := by
  -- The cases follow the stages, and each stage supposes that those before it passed.
  by_cases parses : ∀ table ∈ tables, table.Parses
  · cases outcome : Catalog.load (tables.flatMap Table.rows) with
    | error error => exact Or.inr ⟨_, .entries parses outcome⟩
    | ok catalog =>
        by_cases distinct : (tables.map Table.category).Nodup
        · have loadable :=
            (Catalog.exists_load_iff _).mp ⟨catalog, outcome⟩
          rcases (loadable_flatMap_rows_iff parses).mp loadable with
            ⟨width, code, literals⟩
          exact Or.inl ⟨parses, width, code, literals, distinct⟩
        · rcases exists_first_repeated distinct with
            ⟨before, table, after, split, earlier, repeated⟩
          exact Or.inr
            ⟨_, .priority parses outcome split earlier repeated⟩
  · rcases Table.exists_first_faulty parses with
      ⟨before, table, after, error, split, earlier, failed⟩
    exact Or.inr ⟨_, .table split earlier failed⟩

namespace Tokenizer

theorem ofTables_of_firstFault {tables : List Table} {error : SetupError}
    (fault : FirstFault tables error) :
    ofTables tables = .error error := by
  cases fault with
  | table split earlier failed =>
      rw [ofTables, Catalog.ofTables, split,
        Table.entriesOfAll_of_faulty earlier failed]
  | entries parses failed =>
      rw [ofTables, Catalog.ofTables, Table.entriesOfAll_of_parses parses]
      simp only [failed, Except.mapError]
  | @priority catalog before table after parses loaded split distinct
      repeated =>
      have failed : build catalog (tables.map Table.rule) =
          .error (.duplicatePriority table.category) := by
        apply build_of_repeated?
        rw [split]
        exact repeated?_rules distinct repeated
      rw [ofTables, Catalog.ofTables, Table.entriesOfAll_of_parses parses]
      simp only [loaded, Except.mapError, failed]

theorem exists_ofTables_of_buildable {tables : List Table}
    (buildable : Buildable tables) :
    ∃ tokenizer, ofTables tables = .ok tokenizer := by
  have loadable := (loadable_flatMap_rows_iff buildable.parses).mpr
    ⟨buildable.width_in_range, buildable.code_in_range,
      buildable.literals_distinct⟩
  exact exists_ofTables_of_loadable
    (Table.entriesOfAll_of_parses buildable.parses) loadable
    buildable.categories_distinct

theorem exists_ofTables_iff (tables : List Table) :
    (∃ tokenizer, ofTables tables = .ok tokenizer) ↔ Buildable tables := by
  constructor
  · rintro ⟨tokenizer, built⟩
    rcases buildable_or_firstFault tables with buildable | ⟨error, fault⟩
    · exact buildable
    · rw [ofTables_of_firstFault fault] at built
      cases built
  · exact exists_ofTables_of_buildable

theorem ofTables_eq_error_iff {tables : List Table} {error : SetupError} :
    ofTables tables = .error error ↔ FirstFault tables error := by
  constructor
  · intro failed
    rcases buildable_or_firstFault tables with buildable | ⟨other, fault⟩
    · rcases exists_ofTables_of_buildable buildable with ⟨tokenizer, built⟩
      rw [built] at failed
      cases failed
    · rw [ofTables_of_firstFault fault] at failed
      cases failed
      exact fault
  · exact ofTables_of_firstFault

end Tokenizer

/-! ## Faults that tables exclude -/

/-- The fault of an entry that tables are refused for is that of a row. -/
theorem FirstFault.exists_row {tables : List Table} {error : CatalogError}
    (fault : FirstFault tables (.catalog error))
    (single : ∀ category literal first second,
      error ≠ .duplicateLiteral category literal first second)
    (listed : ∀ category, error ≠ .duplicatePriority category) :
    ∃ table ∈ tables, ∃ entry, table.Declares entry ∧
      entry.fault? = some error := by
  cases fault with
  | entries parses failed =>
      rcases Catalog.fault_of_load_eq_error failed with
        ⟨entry, member, faulty⟩ | ⟨category, literal, first, second, same⟩
      · rcases (Table.mem_flatMap_rows_iff parses).mp member with
          ⟨table, inTables, declares⟩
        exact ⟨table, inTables, entry, declares, faulty⟩
      · exact absurd same (single category literal first second)
  | @priority catalog before table =>
      exact absurd rfl (listed table.category)

theorem FirstFault.not_emptyLiteral {tables : List Table}
    {category : Category} {name : String} :
    ¬ FirstFault tables (.catalog (.emptyLiteral category name)) := by
  intro fault
  rcases fault.exists_row (by simp) (by simp) with
    ⟨table, _, entry, declares, faulty⟩
  rcases Entry.fault?_eq_some_iff.mp faulty with
    ⟨empty, _⟩ | ⟨_, range, _, ⟨_, same⟩ | ⟨value, _, _, same⟩⟩
  · exact declares.isField.literal_ne_nil empty
  · cases same
  · cases same

/-- A value is missing only in a table of numbers whose rows have no place for it. -/
theorem FirstFault.table_of_missingValue {tables : List Table}
    {category : Category} {name : String}
    (fault : FirstFault tables (.catalog (.missingValue category name))) :
    ∃ table ∈ tables, table.category = category ∧
      (category = .uint ∨ category = .opcode) ∧
      (table.format = .word ∨ table.format = .namedLiteral) ∧
      ∃ entry, table.Declares entry ∧ entry.name = name := by
  rcases fault.exists_row (by simp) (by simp) with
    ⟨table, listed, entry, declares, faulty⟩
  rcases Entry.fault?_eq_some_iff.mp faulty with
    ⟨_, same⟩ | ⟨_, range, wanted, ⟨missing, same⟩ | ⟨value, _, _, same⟩⟩
  · cases same
  · cases same
    refine ⟨table, listed, declares.category_eq.symm, ?_, ?_, entry,
      declares, rfl⟩
    · cases isCategory : entry.category with
      | uint => exact Or.inl rfl
      | opcode => exact Or.inr rfl
      | _ =>
          rw [isCategory] at wanted
          cases wanted
    · -- A row of the remaining format would have declared a value.
      have unvalued : ¬ table.format = .wordValue := by
        rw [← declares.isSome_value_iff, missing]
        exact Bool.false_ne_true
      cases format : table.format with
      | word => exact Or.inl rfl
      | namedLiteral => exact Or.inr rfl
      | wordValue => exact absurd format unvalued
  · cases same

namespace Tokenizer

/--
Which tables are accepted and what is reported for the others.  A tokenizer
is built exactly if every row of every table can be read, the values of widths
and codes lie in their ranges, no category repeats a literal over all tables,
and no two tables have one category; it tries the categories in the order of
the tables.  Otherwise the first table with a faulty row is reported, else
what is wrong with the entries of all tables, else the first category that
occurred before.  An empty literal is never reported, and a missing value
only for a table of widths or codes whose rows have no value.
-/
theorem ofTables_buildable_firstFault (tables : List Table) :
    ((∃ tokenizer, ofTables tables = .ok tokenizer) ↔ Buildable tables) ∧
      (∀ tokenizer, ofTables tables = .ok tokenizer →
        tokenizer.priority = tables.map Table.category) ∧
      (∀ error, ofTables tables = .error error ↔
        FirstFault tables error) ∧
      (∀ category name, ofTables tables ≠
        .error (.catalog (.emptyLiteral category name))) ∧
      ∀ category name,
        ofTables tables =
            .error (.catalog (.missingValue category name)) →
          ∃ table ∈ tables, table.category = category ∧
            (category = .uint ∨ category = .opcode) ∧
            (table.format = .word ∨ table.format = .namedLiteral) ∧
            ∃ entry, table.Declares entry ∧ entry.name = name := by
  refine ⟨exists_ofTables_iff tables, ?_, fun _ => ofTables_eq_error_iff,
    ?_, ?_⟩
  · intro tokenizer built
    rw [priority, rules_of_ofTables built, List.map_map]
    rfl
  · intro category name failed
    exact FirstFault.not_emptyLiteral (ofTables_eq_error_iff.mp failed)
  · intro category name failed
    exact (ofTables_eq_error_iff.mp failed).table_of_missingValue

/--
Opcodes before keywords are accepted.  Opcodes without values are refused for
the first missing value, although a second table repeats both their literal
and their category.
-/
theorem ofTables_buildable_firstFault_codes :
    (∃ tokenizer,
      ofTables
          [⟨.opcode, "codes", "add 0x01", .wordValue, .wholeWord⟩,
            ⟨.keyword, "words", "add", .word, .wholeWord⟩] =
        .ok tokenizer ∧
        tokenizer.priority = [.opcode, .keyword]) ∧
      ofTables
          [⟨.opcode, "codes", "add", .word, .wholeWord⟩,
            ⟨.opcode, "more", "add", .word, .wholeWord⟩] =
        .error (.catalog (.missingValue .opcode "add")) ∧
      ∃ table : Table,
        table ∈ [⟨.opcode, "codes", "add", .word, .wholeWord⟩,
            ⟨.opcode, "more", "add", .word, .wholeWord⟩] ∧
          (table.format = .word ∨ table.format = .namedLiteral) := by
  have builds : ∃ tokenizer,
      ofTables
          [⟨.opcode, "codes", "add 0x01", .wordValue, .wholeWord⟩,
            ⟨.keyword, "words", "add", .word, .wholeWord⟩] =
        .ok tokenizer :=
    ⟨_, rfl⟩
  rcases builds with ⟨tokenizer, built⟩
  rcases ofTables_buildable_firstFault
      [⟨.opcode, "codes", "add", .word, .wholeWord⟩,
        ⟨.opcode, "more", "add", .word, .wholeWord⟩] with
    ⟨_, _, reports, _, missing⟩
  have failed := (reports _).mpr (.entries
    (List.forall_mem_cons.mpr ⟨⟨_, rfl⟩,
      List.forall_mem_cons.mpr ⟨⟨_, rfl⟩, List.forall_mem_nil _⟩⟩) rfl)
  rcases missing .opcode "add" failed with
    ⟨table, listed, _, _, format, _⟩
  exact ⟨⟨tokenizer, built,
      (ofTables_buildable_firstFault _).2.1 tokenizer built⟩,
    failed, table, listed, format⟩

end Tokenizer

end Lexicon
