import Lexicon.Proofs.CatalogLoading
import Lexicon.Proofs.TableLiterals
import Lexicon.Table.Standard

/-!
# What the standard tables hold

The texts of the standard tables are read here, once each.  All that is
asserted elsewhere of what they declare is asked of their entries in one
check, which is left to evaluation: the entries can be loaded, their literals
are words exactly where whole words are wanted, the delimiters are single
bytes, and some entries are there that are referred to by name.
-/

namespace Lexicon

/-! ## Reading the text of a table -/

/-- The text of a table has no faulty row, and its entries pass a test. -/
def Table.satisfies (table : Table) (test : List Entry → Bool)
    (text : List Char) : Bool :=
  match entriesOfLines table.file table.category table.format 1
      (WhiteSpace.lines text) with
  | .ok entries => test entries
  | .error _ => false

theorem Table.exists_entries_of_satisfies {table : Table}
    {test : List Entry → Bool}
    (satisfies : table.satisfies test table.text.toList = true) :
    ∃ entries, table.entries = .ok entries ∧ test entries = true := by
  unfold Table.satisfies at satisfies
  split at satisfies
  case h_1 entries parsed => exact ⟨entries, parsed, satisfies⟩
  case h_2 => cases satisfies

/-- The bytes of the literal are word bytes exactly if whole words are wanted. -/
def Adjacency.suits (adjacency : Adjacency) (entry : Entry) : Bool :=
  entry.literal.all fun byte =>
    Byte.isWord byte == decide (adjacency = .wholeWord)

/-! ## The check -/

namespace Standard

/-- A keyword that is also an opcode, and an operator that starts with a delimiter. -/
def samples : List Entry :=
  [⟨.keyword, "return", [0x72, 0x65, 0x74, 0x75, 0x72, 0x6E], none⟩,
    ⟨.assignment, "assign_assembly", [0x3A, 0x3D], none⟩]

/-- What is asked of the entries of a standard table. -/
structure Checked (table : Table) (entries : List Entry) : Prop where
  loadable : Loadable entries
  suits : ∀ entry ∈ entries, table.adjacency.suits entry = true
  single : table.category = .delimiter →
    ∀ entry ∈ entries, entry.literal.length = 1
  sampled : ∀ entry ∈ samples, entry.category = table.category →
    entry ∈ entries

/-- Evaluate what is asked of the entries of a standard table. -/
def check (table : Table) (entries : List Entry) : Bool :=
  (Catalog.load entries).isOk &&
    (entries.all table.adjacency.suits &&
      ((table.category != .delimiter ||
          entries.all fun entry => entry.literal.length == 1) &&
        samples.all fun entry =>
          entry.category != table.category || entries.contains entry))

theorem checked_of_check {table : Table} {entries : List Entry}
    (passes : check table entries = true) : Checked table entries := by
  simp only [check, Bool.and_eq_true] at passes
  rcases passes with ⟨loads, suits, single, sampled⟩
  constructor
  · apply (Catalog.exists_load_iff entries).mp
    cases outcome : Catalog.load entries with
    | ok catalog => exact ⟨catalog, rfl⟩
    | error error =>
        rw [outcome] at loads
        cases loads
  · exact List.all_eq_true.mp suits
  · intro isDelimiter
    simpa [isDelimiter] using single
  · intro entry listed here
    simpa [here] using List.all_eq_true.mp sampled entry listed

/-- Every standard table can be read, and its entries are as they should be. -/
theorem exists_checked :
    ∀ table ∈ tables, ∃ entries,
      table.entries = .ok entries ∧ Checked table entries := by
  have satisfied : ∀ table ∈ tables,
      table.satisfies (check table) table.text.toList = true := by
    simp only [tables, List.forall_mem_cons]
    refine ⟨?_, ?_, ?_, ?_, ?_, ?_, ?_, ?_, ?_, List.forall_mem_nil _⟩
    all_goals
      simp only [keywords, reservedWords, elementaryTypes, uints,
        storageLocations, numberUnits, opcodes, assignments, delimiters,
        String.toList_append]
      -- The texts become lists of characters before the kernel reads them.
      repeat rw [String.toList_ofList]
      decide +kernel
  intro table listed
  rcases Table.exists_entries_of_satisfies (satisfied table listed) with
    ⟨entries, parsed, passes⟩
  exact ⟨entries, parsed, checked_of_check passes⟩

theorem declares_sample {table : Table} (listed : table ∈ tables)
    {entry : Entry} (sample : entry ∈ samples)
    (here : entry.category = table.category) : table.Declares entry := by
  rcases exists_checked table listed with ⟨entries, parsed, checked⟩
  exact ⟨entries, parsed, checked.sampled entry sample here⟩

theorem keywords_declares_return :
    keywords.Declares
      ⟨.keyword, "return", [0x72, 0x65, 0x74, 0x75, 0x72, 0x6E], none⟩ :=
  declares_sample (by simp [tables]) (by simp [samples]) rfl

theorem assignments_declares_assembly :
    assignments.Declares
      ⟨.assignment, "assign_assembly", [0x3A, 0x3D], none⟩ :=
  declares_sample (by simp [tables]) (by simp [samples]) rfl

end Standard

end Lexicon
