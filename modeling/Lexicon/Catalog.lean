import Lexicon.Distinct
import Lexicon.Entry

/-!
# Catalogs

A catalog holds entries that are well formed, in one table for each category.
No table repeats a literal, but one literal may be declared in several
categories.

`Catalog.load` fills the tables in one pass over a list of entries, which
stops at the first entry with a fault, and then looks for repetitions table by
table.  What it fills a table with are the entries of the category in the
order in which they are listed.
-/

namespace Lexicon

/-- The entries of one category, in the order in which they are listed. -/
def entriesOf (category : Category) (entries : List Entry) : List Entry :=
  entries.filter fun entry => entry.category == category

/-- One table of entries for each category, by its place in the order. -/
abbrev Catalog.Tables : Type :=
  Vector (Array Entry) Category.count

namespace Catalog.Tables

/-- Tables without entries. -/
def empty : Tables :=
  Vector.replicate Category.count #[]

/-- The table of a category. -/
def of (tables : Tables) (category : Category) : Array Entry :=
  getElem tables category.index category.index_lt_count

/-- Put an entry at the end of the table of its category. -/
def add (tables : Tables) (entry : Entry) : Tables :=
  tables.set entry.category.index ((tables.of entry.category).push entry)
    entry.category.index_lt_count

/-- The number of entries in all tables. -/
def size (tables : Tables) : Nat :=
  tables.foldl (fun total table => total + table.size) 0

theorem of_empty (category : Category) : empty.of category = #[] := by
  simp [of, empty]

/-- An entry goes into the table of its category and into no other. -/
theorem of_add (tables : Tables) (entry : Entry) (category : Category) :
    (tables.add entry).of category =
      if entry.category = category then (tables.of category).push entry
      else tables.of category := by
  by_cases here : entry.category = category
  · subst here
    simp [of, add]
  · have elsewhere : entry.category.index ≠ category.index :=
      fun same => here (Category.index_injective same)
    simp [of, add, here, elsewhere]

/-- The tables stand in the order of the categories. -/
theorem toList_eq_map_of (tables : Tables) :
    tables.toList = Category.all.map tables.of := by
  apply List.ext_getElem
  · rw [Vector.length_toList, List.length_map, Category.count]
  · intro place inside _
    rw [Vector.length_toList] at inside
    rw [Vector.getElem_toList, List.getElem_map, of]
    exact getElem_congr_idx (Category.index_getElem_all inside).symm

end Catalog.Tables

namespace Catalog

/--
Check entries one after the other and add each to the tables.  The first entry
with a fault ends the pass.
-/
def fill (tables : Tables) : List Entry → Except CatalogError Tables
  | [] => .ok tables
  | entry :: rest =>
      match entry.fault? with
      | some error => .error error
      | none => fill (tables.add entry) rest

theorem fill_cons_eq_ok_iff {tables filled : Tables} {entry : Entry} {rest : List Entry} :
    fill tables (entry :: rest) = .ok filled ↔
      entry.WellFormed ∧ fill (tables.add entry) rest = .ok filled := by
  rw [fill, ← Entry.fault?_eq_none_iff]
  cases entry.fault? with
  | some error => simp
  | none => simp

/-- A pass that ends well has met well-formed entries only. -/
theorem wellFormed_of_fill {tables filled : Tables} {entries : List Entry}
    (done : fill tables entries = .ok filled) : ∀ entry ∈ entries, entry.WellFormed := by
  induction entries generalizing tables with
  | nil => exact List.forall_mem_nil _
  | cons entry rest induction =>
      obtain ⟨wellFormed, restDone⟩ := fill_cons_eq_ok_iff.mp done
      exact List.forall_mem_cons.mpr ⟨wellFormed, induction restDone⟩

/-- Every table is continued with the entries of its category. -/
theorem of_fill {tables filled : Tables} {entries : List Entry}
    (done : fill tables entries = .ok filled) (category : Category) :
    (filled.of category).toList = (tables.of category).toList ++ entriesOf category entries := by
  induction entries generalizing tables with
  | nil =>
      cases done
      simp [entriesOf]
  | cons entry rest induction =>
      obtain ⟨_, restDone⟩ := fill_cons_eq_ok_iff.mp done
      rw [induction restDone, Tables.of_add]
      by_cases here : entry.category = category
      · simp [entriesOf, here]
      · simp [entriesOf, here]

/-- Tables that are filled from nothing hold the entries of each category. -/
theorem of_fill_empty {filled : Tables} {entries : List Entry}
    (done : fill .empty entries = .ok filled) (category : Category) :
    (filled.of category).toList = entriesOf category entries := by
  rw [of_fill done, Tables.of_empty, List.nil_append]

theorem mem_of_fill_empty {filled : Tables} {entries : List Entry}
    (done : fill .empty entries = .ok filled) {category : Category} {entry : Entry} :
    entry ∈ filled.of category ↔ entry ∈ entries ∧ entry.category = category := by
  rw [← Array.mem_toList_iff, of_fill_empty done, entriesOf, List.mem_filter, beq_iff_eq]

/-- The first literal that a table repeats. -/
def repetitionIn? (table : List Entry) : Option CatalogError :=
  (firstClash? Entry.literal table).map fun (first, second) =>
    .duplicateLiteral second.category (Utf8.text second.literal) first.name second.name

/-- The first repetition in the first table that has one. -/
def repetition? (tables : Tables) : Option CatalogError :=
  tables.toList.findSome? fun table => repetitionIn? table.toList

theorem repetition?_eq_none_iff (tables : Tables) :
    repetition? tables = none ↔
      ∀ category, ((tables.of category).toList.map Entry.literal).Nodup := by
  simp [repetition?, repetitionIn?, Tables.toList_eq_map_of, firstClash?_eq_none_iff]

end Catalog

/-- Checked entries in the tables of their categories. -/
structure Catalog where
  tables : Catalog.Tables
  category_eq : ∀ category, ∀ entry ∈ tables.of category, entry.category = category
  faultless : ∀ category, ∀ entry ∈ tables.of category, entry.WellFormed
  distinct : ∀ category, ((tables.of category).toList.map Entry.literal).Nodup

namespace Catalog

/--
Check a list of entries and divide it by category.  Faults of single entries
are reported before repetitions.
-/
def load (entries : List Entry) : Except CatalogError Catalog :=
  match filled : fill .empty entries with
  | .error error => .error error
  | .ok tables =>
      match distinct : repetition? tables with
      | some error => .error error
      | none => .ok
          { tables
            category_eq := fun _ _ member =>
              ((mem_of_fill_empty filled).mp member).2
            faultless := fun _ entry member =>
              wellFormed_of_fill filled entry ((mem_of_fill_empty filled).mp member).1
            distinct := (repetition?_eq_none_iff tables).mp distinct }

/-- The entries of a category. -/
def table (catalog : Catalog) (category : Category) : List Entry :=
  (catalog.tables.of category).toList

/-- The entry at a place in the table of its category. -/
def get? (catalog : Catalog) (category : Category) (index : Nat) : Option Entry :=
  (catalog.tables.of category)[index]?

/-- The number of entries in all tables. -/
def size (catalog : Catalog) : Nat :=
  catalog.tables.size

/-- No table has entries. -/
def isEmpty (catalog : Catalog) : Bool :=
  catalog.tables.all Array.isEmpty

/-- The categories that have entries, in their order. -/
def categories (catalog : Catalog) : List Category :=
  Category.all.filter fun category => !(catalog.tables.of category).isEmpty

/-- All entries, by category and then in the order of the table. -/
def entries (catalog : Catalog) : List Entry :=
  Category.all.flatMap catalog.table

theorem mem_table {catalog : Catalog} {category : Category} {entry : Entry} :
    entry ∈ catalog.table category ↔ entry ∈ catalog.entries ∧ entry.category = category := by
  constructor
  · intro member
    exact ⟨List.mem_flatMap.mpr ⟨category, Category.mem_all category, member⟩,
      catalog.category_eq category entry (Array.mem_toList_iff.mp member)⟩
  · rintro ⟨member, rfl⟩
    obtain ⟨other, _, listed⟩ := List.mem_flatMap.mp member
    rwa [catalog.category_eq other entry (Array.mem_toList_iff.mp listed)]

theorem wellFormed (catalog : Catalog) (entry : Entry) (member : entry ∈ catalog.entries) :
    entry.WellFormed :=
  catalog.faultless entry.category entry
    (Array.mem_toList_iff.mp (mem_table.mpr ⟨member, rfl⟩))

end Catalog

end Lexicon
