import Lexicon.Catalog

/-!
# Which entries make up a catalog

A catalog is loaded in two passes: every entry is checked by itself before it
is added to the table of its category, and then the literals of every table
are compared.  Together the passes accept exactly the lists whose literals are
not empty, whose widths and codes lie in their ranges, and in which no category
repeats a literal.  Different categories may share a literal, and a value that
no category asks for does no harm.

The first pass divides the list by category.  Adding an entry makes one table
longer and leaves the others alone, so in the end each table holds the entries
of its category in the order of the list, and nothing is lost.
-/

namespace Lexicon

/-- What a list of entries must satisfy to be accepted as a catalog. -/
structure Loadable (entries : List Entry) : Prop where
  literal_ne_nil : ∀ entry ∈ entries, entry.literal ≠ []
  width_in_range : ∀ entry ∈ entries, entry.category = .uint →
    ∃ width, entry.value = some width ∧ 1 ≤ width ∧ width ≤ 256
  code_in_range : ∀ entry ∈ entries, entry.category = .opcode →
    ∃ code, entry.value = some code ∧ code ≤ 255
  distinct : entries.Pairwise fun left right =>
    left.category = right.category → left.literal ≠ right.literal

/-- The catalog holds the entries of a list, divided by category. -/
structure Catalog.Divides (catalog : Catalog) (entries : List Entry) :
    Prop where
  table_eq : ∀ category, catalog.table category =
    entries.filter fun entry => entry.category = category
  get?_eq : ∀ category index, catalog.get? category index =
    (entries.filter fun entry => entry.category = category)[index]?
  size_eq : catalog.size = entries.length
  /-- The tables together hold every entry as often as the list does. -/
  perm : catalog.entries.Perm entries
  mem_categories : ∀ category, category ∈ catalog.categories ↔
    ∃ entry ∈ entries, entry.category = category
  categories_ascending : catalog.categories.Pairwise fun left right =>
    left.index < right.index

/-! ## Single entries -/

/-- Widths and codes are the only values that are looked at. -/
theorem Entry.wellFormed_iff {entry : Entry} :
    entry.WellFormed ↔ entry.literal ≠ [] ∧
      (entry.category = .uint →
        ∃ width, entry.value = some width ∧ 1 ≤ width ∧ width ≤ 256) ∧
      (entry.category = .opcode →
        ∃ code, entry.value = some code ∧ code ≤ 255) := by
  constructor
  · rintro ⟨nonempty, inRange⟩
    refine ⟨nonempty, ?_, ?_⟩
    · intro isUint
      rcases inRange ⟨1, 256⟩ (by rw [isUint]; rfl) with
        ⟨width, found, contained⟩
      simp only [ValueRange.contains, Bool.and_eq_true,
        decide_eq_true_eq] at contained
      exact ⟨width, found, contained⟩
    · intro isOpcode
      rcases inRange ⟨0, 255⟩ (by rw [isOpcode]; rfl) with
        ⟨code, found, contained⟩
      simp only [ValueRange.contains, Bool.and_eq_true,
        decide_eq_true_eq] at contained
      exact ⟨code, found, contained.2⟩
  · rintro ⟨nonempty, width, code⟩
    refine ⟨nonempty, ?_⟩
    intro range wanted
    cases isCategory : entry.category with
    | uint =>
        rw [isCategory] at wanted
        cases wanted
        rcases width isCategory with ⟨value, found, least, greatest⟩
        exact ⟨value, found, by simp [ValueRange.contains, least, greatest]⟩
    | opcode =>
        rw [isCategory] at wanted
        cases wanted
        rcases code isCategory with ⟨value, found, greatest⟩
        exact ⟨value, found, by simp [ValueRange.contains, greatest]⟩
    | _ =>
        rw [isCategory] at wanted
        cases wanted

/-- The faults of a single entry, each with its cause. -/
theorem Entry.fault?_eq_some_iff {entry : Entry} {error : CatalogError} :
    entry.fault? = some error ↔
      entry.literal = [] ∧ error = .emptyLiteral entry.category entry.name ∨
        entry.literal ≠ [] ∧
          ∃ range, entry.category.valueRange? = some range ∧
            (entry.value = none ∧
                error = .missingValue entry.category entry.name ∨
              ∃ value, entry.value = some value ∧
                range.contains value = false ∧
                error = .valueOutOfRange entry.category entry.name value
                  range) := by
  unfold fault?
  split
  case isTrue isEmpty =>
    have empty := List.isEmpty_iff.mp isEmpty
    simp [empty, @eq_comm _ error]
  case isFalse notEmpty =>
    have nonempty : entry.literal ≠ [] := by simpa using notEmpty
    rw [valueFault?, Category.requiresValue_eq_isSome]
    cases entry.category.valueRange? with
    | none => simp [nonempty]
    | some range =>
        cases entry.value with
        | none => simp [nonempty, @eq_comm _ error]
        | some value =>
            cases contained : range.contains value with
            | true => simp [nonempty, contained]
            | false => simp [nonempty, contained, @eq_comm _ error]

/-! ## Literals of a category -/

theorem Category.all_ascending :
    Category.all.Pairwise fun left right => left.index < right.index := by
  decide

/-- No category repeats a literal if no two entries agree in both. -/
theorem nodup_literals_iff_pairwise (entries : List Entry) :
    (∀ category, ((entriesOf category entries).map Entry.literal).Nodup) ↔
      entries.Pairwise fun left right =>
        left.category = right.category → left.literal ≠ right.literal := by
  simp only [entriesOf, List.Nodup, List.pairwise_map,
    List.pairwise_filter, beq_iff_eq]
  constructor
  · intro distinct
    apply List.pairwise_iff_forall_sublist.mpr
    intro left right pair same
    exact List.pairwise_iff_forall_sublist.mp (distinct right.category)
      pair same rfl
  · intro distinct category
    apply distinct.imp
    intro left right differs leftHere rightHere
    exact differs (leftHere.trans rightHere.symm)

namespace Catalog

/-! ## Filling the tables -/

/-- The fault of the first entry that has one. -/
def entryFault? (entries : List Entry) : Option CatalogError :=
  entries.findSome? Entry.fault?

theorem entryFault?_eq_none_iff (entries : List Entry) :
    entryFault? entries = none ↔ ∀ entry ∈ entries, entry.WellFormed := by
  simp [entryFault?, Entry.fault?_eq_none_iff]

/-- The pass fails with the fault of the first entry that has one. -/
theorem fill_eq_error_iff {tables : Tables} {entries : List Entry}
    {error : CatalogError} :
    fill tables entries = .error error ↔ entryFault? entries = some error := by
  induction entries generalizing tables with
  | nil => simp [fill, entryFault?]
  | cons entry rest induction =>
      rw [fill, entryFault?, List.findSome?_cons]
      cases entry.fault? with
      | some fault => simp
      | none => exact induction

theorem exists_fill_iff {tables : Tables} {entries : List Entry} :
    (∃ filled, fill tables entries = .ok filled) ↔
      entryFault? entries = none := by
  cases outcome : fill tables entries with
  | error error => simp [fill_eq_error_iff.mp outcome]
  | ok filled =>
      have wellFormed := wellFormed_of_fill outcome
      simpa using (entryFault?_eq_none_iff entries).mpr wellFormed

/-- Adding an entry makes one table longer by one. -/
theorem Tables.size_add (tables : Tables) (entry : Entry) :
    (tables.add entry).size = tables.size + 1 := by
  simp only [size, ← Vector.foldl_toList, toList_eq_map_of, Category.all,
    List.map_cons, List.map_nil, List.foldl_cons, List.foldl_nil, of_add]
  cases entry.category with
  | _ =>
      simp only [reduceCtorEq, if_true, if_false, Array.size_push]
      omega

theorem size_fill {tables filled : Tables} {entries : List Entry}
    (done : fill tables entries = .ok filled) :
    filled.size = tables.size + entries.length := by
  induction entries generalizing tables with
  | nil =>
      cases done
      rfl
  | cons entry rest induction =>
      rcases fill_cons_eq_ok_iff.mp done with ⟨_, restDone⟩
      rw [induction restDone, Tables.size_add, List.length_cons,
        Nat.add_assoc, Nat.add_comm 1]

/-- What the tables repeat is what the entries of a category repeat. -/
theorem repetition?_of_fill {filled : Tables} {entries : List Entry}
    (done : fill .empty entries = .ok filled) :
    repetition? filled = Category.all.findSome? fun category =>
      repetitionIn? (entriesOf category entries) := by
  rw [repetition?, Tables.toList_eq_map_of, List.findSome?_map]
  simp only [Function.comp_def, of_fill_empty done]

/-! ## Both passes -/

theorem fill_of_load {entries : List Entry} {catalog : Catalog}
    (loaded : load entries = .ok catalog) :
    fill .empty entries = .ok catalog.tables := by
  unfold load at loaded
  split at loaded
  case h_1 => cases loaded
  case h_2 filled done =>
    split at loaded
    case h_1 => cases loaded
    case h_2 =>
      cases loaded
      exact done

/-- The fault of a single entry is reported before any repetition. -/
theorem load_eq_error_iff {entries : List Entry} {error : CatalogError} :
    load entries = .error error ↔
      entryFault? entries = some error ∨
        entryFault? entries = none ∧
          (Category.all.findSome? fun category =>
            repetitionIn? (entriesOf category entries)) = some error := by
  unfold load
  split
  case h_1 fault failed =>
    have faulty := fill_eq_error_iff.mp failed
    simp [faulty]
  case h_2 filled done =>
    have faultless := exists_fill_iff.mp ⟨filled, done⟩
    rw [← repetition?_of_fill done]
    split
    case h_1 fault found => simp [faultless, found]
    case h_2 distinct => simp [faultless, distinct]

/-- The two passes together accept exactly the loadable lists. -/
theorem exists_load_iff (entries : List Entry) :
    (∃ catalog, load entries = .ok catalog) ↔ Loadable entries := by
  have passes : (∃ catalog, load entries = .ok catalog) ↔
      entryFault? entries = none ∧
        ∀ category, ((entriesOf category entries).map Entry.literal).Nodup := by
    unfold load
    split
    case h_1 fault failed => simp [fill_eq_error_iff.mp failed]
    case h_2 filled done =>
      have faultless := exists_fill_iff.mp ⟨filled, done⟩
      have unrepeated := repetition?_eq_none_iff filled
      simp only [of_fill_empty done] at unrepeated
      rw [← unrepeated]
      split
      case h_1 fault found => simp [found]
      case h_2 distinct => simp [faultless, distinct]
  rw [passes, entryFault?_eq_none_iff, nodup_literals_iff_pairwise]
  simp only [Entry.wellFormed_iff]
  constructor
  · rintro ⟨wellFormed, distinct⟩
    exact ⟨fun entry member => (wellFormed entry member).1,
      fun entry member => (wellFormed entry member).2.1,
      fun entry member => (wellFormed entry member).2.2, distinct⟩
  · rintro ⟨nonempty, width, code, distinct⟩
    refine ⟨?_, distinct⟩
    intro entry member
    exact ⟨nonempty entry member, width entry member, code entry member⟩

/-- What cannot be loaded has a faulty entry or a repeated literal. -/
theorem fault_of_load_eq_error {entries : List Entry} {error : CatalogError}
    (failed : load entries = .error error) :
    (∃ entry ∈ entries, entry.fault? = some error) ∨
      ∃ category literal first second,
        error = .duplicateLiteral category literal first second := by
  rcases load_eq_error_iff.mp failed with faulty | ⟨_, repeated⟩
  · exact Or.inl (List.exists_of_findSome?_eq_some faulty)
  · rcases List.exists_of_findSome?_eq_some repeated with
      ⟨category, _, found⟩
    rcases Option.map_eq_some_iff.mp found with
      ⟨⟨first, second⟩, _, same⟩
    exact Or.inr ⟨second.category, Utf8.text second.literal, first.name,
      second.name, same.symm⟩

/-! ## Division by category -/

theorem count_entriesOf (category : Category) (entries : List Entry)
    (entry : Entry) :
    (entriesOf category entries).count entry =
      if entry.category = category then entries.count entry else 0 := by
  rw [entriesOf]
  split
  case isTrue here => exact List.count_filter (by simpa using here)
  case isFalse elsewhere =>
    apply List.count_eq_zero_of_not_mem
    intro member
    exact elsewhere (by simpa using (List.mem_filter.mp member).2)

theorem flatMap_entriesOf_perm (entries : List Entry) :
    (Category.all.flatMap fun category =>
      entriesOf category entries).Perm entries := by
  apply List.perm_iff_count.mpr
  intro entry
  rw [List.count_flatMap]
  simp only [Function.comp_def, count_entriesOf]
  cases entry.category with
  | _ => simp [Category.all]

section Loaded

variable {entries : List Entry} {catalog : Catalog}

/-- The table of a category is filled with its entries in the order of the list. -/
theorem table_of_load (loaded : load entries = .ok catalog)
    (category : Category) :
    catalog.table category = entriesOf category entries :=
  of_fill_empty (fill_of_load loaded) category

/-- The tables together hold the entries of the list. -/
theorem entries_perm_of_load (loaded : load entries = .ok catalog) :
    catalog.entries.Perm entries := by
  have same : catalog.entries =
      Category.all.flatMap fun category => entriesOf category entries :=
    congrArg Category.all.flatMap (funext (table_of_load loaded))
  rw [same]
  exact flatMap_entriesOf_perm entries

theorem mem_entries_of_load (loaded : load entries = .ok catalog)
    (entry : Entry) : entry ∈ catalog.entries ↔ entry ∈ entries :=
  (entries_perm_of_load loaded).mem_iff

theorem mem_table_of_load (loaded : load entries = .ok catalog)
    {category : Category} {entry : Entry} :
    entry ∈ catalog.table category ↔
      entry ∈ entries ∧ entry.category = category := by
  rw [mem_table, mem_entries_of_load loaded]

theorem size_of_load (loaded : load entries = .ok catalog) :
    catalog.size = entries.length := by
  have counted := size_fill (fill_of_load loaded)
  have nothing : Tables.empty.size = 0 := rfl
  rwa [nothing, Nat.zero_add] at counted

end Loaded

theorem mem_categories_iff {catalog : Catalog} {category : Category} :
    category ∈ catalog.categories ↔
      ∃ entry ∈ catalog.entries, entry.category = category := by
  rw [categories, List.mem_filter]
  constructor
  · rintro ⟨_, nonempty⟩
    have remains : catalog.table category ≠ [] := by
      simpa [table] using nonempty
    rcases List.exists_mem_of_ne_nil _ remains with ⟨entry, member⟩
    exact ⟨entry, mem_table.mp member⟩
  · rintro ⟨entry, member, here⟩
    refine ⟨Category.mem_all category, ?_⟩
    have listed : entry ∈ catalog.table category :=
      mem_table.mpr ⟨member, here⟩
    simpa [table] using List.ne_nil_of_mem listed

theorem categories_ascending (catalog : Catalog) :
    catalog.categories.Pairwise fun left right =>
      left.index < right.index :=
  Category.all_ascending.filter _

/-- The tables of a catalog are a division of the list that it is loaded from. -/
theorem divides_of_load {entries : List Entry} {catalog : Catalog}
    (loaded : load entries = .ok catalog) : catalog.Divides entries where
  table_eq := table_of_load loaded
  get?_eq := by
    intro category index
    rw [get?, ← Array.getElem?_toList]
    exact congrArg (fun list => list[index]?) (table_of_load loaded category)
  size_eq := size_of_load loaded
  perm := entries_perm_of_load loaded
  mem_categories := by
    intro category
    simp only [mem_categories_iff, mem_entries_of_load loaded]
  categories_ascending := catalog.categories_ascending

/--
Loading accepts exactly the lists whose literals are not empty, whose widths
and codes lie in their ranges, and in which no category repeats a literal.
The catalog then holds the entries of each category in the order of the list,
and all entries of the list together; its categories are those that have
entries, in their fixed order.
-/
theorem load_loadable_divides (entries : List Entry) :
    ((∃ catalog, load entries = .ok catalog) ↔ Loadable entries) ∧
      ∀ catalog, load entries = .ok catalog → catalog.Divides entries :=
  ⟨exists_load_iff entries, fun _ loaded => divides_of_load loaded⟩

/--
A keyword and an opcode may share a literal, and a keyword may have a value.
The opcode that is declared between two types is found in its own table.
-/
theorem load_loadable_divides_return :
    ∃ catalog,
      load
          [⟨.uint, "uint", [0x75], some 256⟩,
            ⟨.opcode, "return", [0x72], some 0xF3⟩,
            ⟨.keyword, "return", [0x72], some 999⟩,
            ⟨.uint, "uint8", [0x75, 0x38], some 8⟩] = .ok catalog ∧
        catalog.table .uint =
          [⟨.uint, "uint", [0x75], some 256⟩,
            ⟨.uint, "uint8", [0x75, 0x38], some 8⟩] ∧
        catalog.get? .opcode 0 =
          some ⟨.opcode, "return", [0x72], some 0xF3⟩ ∧
        catalog.get? .opcode 1 = none ∧
        catalog.size = 4 ∧ .delimiter ∉ catalog.categories := by
  have loads : ∃ catalog,
      load
          [⟨.uint, "uint", [0x75], some 256⟩,
            ⟨.opcode, "return", [0x72], some 0xF3⟩,
            ⟨.keyword, "return", [0x72], some 999⟩,
            ⟨.uint, "uint8", [0x75, 0x38], some 8⟩] = .ok catalog :=
    ⟨_, rfl⟩
  rcases loads with ⟨catalog, loaded⟩
  have divides := (load_loadable_divides _).2 catalog loaded
  refine ⟨catalog, loaded, divides.table_eq .uint, divides.get?_eq .opcode 0,
    divides.get?_eq .opcode 1, divides.size_eq, ?_⟩
  intro listed
  rcases (divides.mem_categories .delimiter).mp listed with
    ⟨entry, member, here⟩
  simp only [List.mem_cons, List.not_mem_nil, or_false] at member
  rcases member with rfl | rfl | rfl | rfl <;> cases here

end Catalog

end Lexicon
