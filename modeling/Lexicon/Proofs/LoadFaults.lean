import Lexicon.Proofs.CatalogLoading
import Mathlib.Data.List.Nodup

/-!
# The fault for which a catalog is refused

A list of entries may be wrong in many ways at once, and loading reports one
of them.  The first entry that is faulty by itself goes before any repetition.
Where no entry is faulty, the categories are looked at in their fixed order,
and the first one that repeats a literal is reported with the entry that
repeats it and the one entry before it that has the literal.

That there is only one such entry before follows from the choice of the later
one: no literal is repeated before it.
-/

namespace Lexicon

/-! ## Repetitions by their places -/

section Repetition

variable {α β : Type}

/--
The key at a place occurred at an earlier place, and this is the first place
where a key occurs again.
-/
structure FirstRepetition (keys : List β) (earlier later : Nat) : Prop where
  ordered : earlier < later
  inside : later < keys.length
  same : keys[earlier]? = keys[later]?
  /-- No other place before has the key. -/
  only : ∀ place < later, keys[place]? = keys[later]? → place = earlier
  /-- No key is repeated before. -/
  least : ∀ left right, left < right → right < later →
    keys[left]? ≠ keys[right]?

namespace FirstRepetition

/-- A key that occurs again after distinct keys is the first to do so. -/
theorem of_append {before after : List β} {repeated : β} {earlier : Nat}
    (distinct : before.Nodup) (found : before[earlier]? = some repeated) :
    FirstRepetition (before ++ repeated :: after) earlier before.length := by
  rcases List.getElem?_eq_some_iff.mp found with ⟨ordered, _⟩
  have inBefore : ∀ place < before.length,
      (before ++ repeated :: after)[place]? = before[place]? :=
    fun place placeInside => List.getElem?_append_left placeInside
  have atLater : (before ++ repeated :: after)[before.length]? =
      some repeated := by simp
  constructor
  · exact ordered
  · simp
  · rw [inBefore earlier ordered, found, atLater]
  · intro place placeInside same
    rw [inBefore place placeInside, atLater, ← found] at same
    exact (List.getElem?_inj placeInside distinct).mp same
  · intro left right leftBefore rightInside same
    have leftInside := Nat.lt_trans leftBefore rightInside
    rw [inBefore left leftInside, inBefore right rightInside] at same
    exact Nat.ne_of_lt leftBefore
      ((List.getElem?_inj leftInside distinct).mp same)

theorem nodup_take {keys : List β} {earlier later : Nat}
    (repetition : FirstRepetition keys earlier later) :
    (keys.take later).Nodup := by
  apply List.nodup_iff_getElem?_ne_getElem?.mpr
  intro left right ordered rightInside
  have bound : right < later :=
    Nat.lt_of_lt_of_le rightInside (List.length_take_le _ _)
  rw [List.getElem?_take_of_lt (Nat.lt_trans ordered bound),
    List.getElem?_take_of_lt bound]
  exact repetition.least left right ordered bound

end FirstRepetition

/-- The first clash of keys is found at the first place where a key occurs again. -/
theorem firstClash?_eq_some_iff_firstRepetition [DecidableEq β]
    {key : α → β} {list : List α} {first second : α} :
    firstClash? key list = some (first, second) ↔
      ∃ earlier later, list[earlier]? = some first ∧
        list[later]? = some second ∧
          FirstRepetition (list.map key) earlier later := by
  rw [firstClash?_eq_some_iff]
  constructor
  · rintro ⟨before, after, rfl, distinct, member, same⟩
    rcases List.mem_iff_getElem?.mp member with ⟨earlier, found⟩
    rcases List.getElem?_eq_some_iff.mp found with ⟨inside, _⟩
    have repeats : FirstRepetition
        (before.map key ++ key second :: after.map key) earlier
          (before.map key).length := by
      apply FirstRepetition.of_append distinct
      rw [List.getElem?_map, found, ← same]
      rfl
    rw [List.length_map] at repeats
    refine ⟨earlier, before.length, ?_, by simp, ?_⟩
    · rw [List.getElem?_append_left inside, found]
    · rw [List.map_append, List.map_cons]
      exact repeats
  · rintro ⟨earlier, later, first_at, second_at, repeats⟩
    rcases List.getElem?_eq_some_iff.mp second_at with ⟨inside, second_eq⟩
    refine ⟨list.take later, list.drop (later + 1), ?_, ?_, ?_, ?_⟩
    · rw [← second_eq, List.getElem_cons_drop, List.take_append_drop]
    · rw [List.map_take]
      exact repeats.nodup_take
    · apply List.mem_of_getElem?
      rw [List.getElem?_take_of_lt repeats.ordered, first_at]
    · have same := repeats.same
      rw [List.getElem?_map, List.getElem?_map, first_at, second_at] at same
      exact Option.some.inj same

end Repetition

/-! ## The first category of several -/

/-- A search over all categories finds the smallest one with a result. -/
theorem Category.findSome?_all_eq_some_iff {α : Type}
    {search : Category → Option α} {result : α} :
    all.findSome? search = some result ↔
      ∃ category, search category = some result ∧
        ∀ other, other.index < category.index → search other = none := by
  have ascending := all_ascending
  rw [List.findSome?_eq_some_iff]
  constructor
  · rintro ⟨before, category, after, split, found, earlier⟩
    refine ⟨category, found, ?_⟩
    intro other smaller
    have listed := mem_all other
    rw [split, List.mem_append] at listed
    rw [split] at ascending
    have later := (List.pairwise_append.mp ascending).2.1
    rcases listed with inBefore | inRest
    · exact earlier other inBefore
    · rcases List.mem_cons.mp inRest with rfl | inAfter
      · exact absurd smaller (Nat.lt_irrefl _)
      · have larger := (List.pairwise_cons.mp later).1 other inAfter
        exact absurd smaller (Nat.lt_asymm larger)
  · rintro ⟨category, found, smaller⟩
    rcases List.append_of_mem (mem_all category) with ⟨before, after, split⟩
    refine ⟨before, category, after, split, found, ?_⟩
    intro other inBefore
    apply smaller
    rw [split] at ascending
    exact (List.pairwise_append.mp ascending).2.2 other inBefore category
      List.mem_cons_self

/-! ## What is reported -/

/-- What is wrong with an entry taken by itself. -/
inductive Entry.Faulty (entry : Entry) : CatalogError → Prop
  | emptyLiteral (empty : entry.literal = []) :
      Faulty entry (.emptyLiteral entry.category entry.name)
  | missingValue {range : ValueRange} (nonempty : entry.literal ≠ [])
      (required : entry.category.valueRange? = some range)
      (missing : entry.value = none) :
      Faulty entry (.missingValue entry.category entry.name)
  | valueOutOfRange {range : ValueRange} {value : Nat}
      (nonempty : entry.literal ≠ [])
      (required : entry.category.valueRange? = some range)
      (found : entry.value = some value)
      (outside : value < range.least ∨ range.greatest < value) :
      Faulty entry (.valueOutOfRange entry.category entry.name value range)

/-- The fault that is reported for a list of entries. -/
inductive Catalog.LoadFault (entries : List Entry) : CatalogError → Prop
  /-- The first entry that is faulty by itself. -/
  | entry {before : List Entry} {entry : Entry} {after : List Entry}
      {error : CatalogError} (split : entries = before ++ entry :: after)
      (earlier : ∀ other ∈ before, ∀ error, ¬ other.Faulty error)
      (faulty : entry.Faulty error) : LoadFault entries error
  /-- No entry is faulty, and this is the smallest category that repeats a literal. -/
  | repetition {category : Category} {earlier later : Nat}
      {first second : Entry}
      (faultless : ∀ entry ∈ entries, ∀ error, ¬ entry.Faulty error)
      (smaller : ∀ other : Category, other.index < category.index →
        ((entriesOf other entries).map Entry.literal).Nodup)
      (repeats : FirstRepetition
        ((entriesOf category entries).map Entry.literal) earlier later)
      (first_at : (entriesOf category entries)[earlier]? = some first)
      (second_at : (entriesOf category entries)[later]? = some second) :
      LoadFault entries (.duplicateLiteral category
        (Utf8.text second.literal) first.name second.name)

theorem ValueRange.contains_eq_false_iff {range : ValueRange} {value : Nat} :
    range.contains value = false ↔
      value < range.least ∨ range.greatest < value := by
  rw [contains, Bool.and_eq_false_iff, decide_eq_false_iff_not,
    decide_eq_false_iff_not, Nat.not_le, Nat.not_le]

theorem Entry.fault?_eq_some_iff_faulty {entry : Entry}
    {error : CatalogError} :
    entry.fault? = some error ↔ entry.Faulty error := by
  rw [fault?_eq_some_iff]
  constructor
  · rintro (⟨empty, rfl⟩ | ⟨nonempty, range, required,
      ⟨missing, rfl⟩ | ⟨value, found, outside, rfl⟩⟩)
    · exact .emptyLiteral empty
    · exact .missingValue nonempty required missing
    · exact .valueOutOfRange nonempty required found
        (ValueRange.contains_eq_false_iff.mp outside)
  · intro faulty
    cases faulty with
    | emptyLiteral empty => exact Or.inl ⟨empty, rfl⟩
    | @missingValue range nonempty required missing =>
        exact Or.inr ⟨nonempty, range, required, Or.inl ⟨missing, rfl⟩⟩
    | @valueOutOfRange range value nonempty required found outside =>
        exact Or.inr ⟨nonempty, range, required, Or.inr ⟨value, found,
          ValueRange.contains_eq_false_iff.mpr outside, rfl⟩⟩

theorem Entry.fault?_eq_none_iff_not_faulty {entry : Entry} :
    entry.fault? = none ↔ ∀ error, ¬ entry.Faulty error := by
  simp only [← fault?_eq_some_iff_faulty]
  exact Option.eq_none_iff_forall_ne_some

namespace Catalog

theorem entryFault?_eq_some_iff {entries : List Entry}
    {error : CatalogError} :
    entryFault? entries = some error ↔
      ∃ before entry after, entries = before ++ entry :: after ∧
        (∀ other ∈ before, ∀ error, ¬ other.Faulty error) ∧
          entry.Faulty error := by
  simp only [entryFault?, List.findSome?_eq_some_iff,
    Entry.fault?_eq_some_iff_faulty, Entry.fault?_eq_none_iff_not_faulty]
  constructor
  · rintro ⟨before, entry, after, split, faulty, earlier⟩
    exact ⟨before, entry, after, split, earlier, faulty⟩
  · rintro ⟨before, entry, after, split, earlier, faulty⟩
    exact ⟨before, entry, after, split, faulty, earlier⟩

theorem entryFault?_eq_none_iff_not_faulty {entries : List Entry} :
    entryFault? entries = none ↔
      ∀ entry ∈ entries, ∀ error, ¬ entry.Faulty error := by
  rw [entryFault?, List.findSome?_eq_none_iff]
  simp only [Entry.fault?_eq_none_iff_not_faulty]

theorem repetitionIn?_eq_none_iff {table : List Entry} :
    repetitionIn? table = none ↔ (table.map Entry.literal).Nodup := by
  rw [repetitionIn?, Option.map_eq_none_iff, firstClash?_eq_none_iff]

theorem repetitionIn?_eq_some_iff {entries : List Entry}
    {category : Category} {error : CatalogError} :
    repetitionIn? (entriesOf category entries) = some error ↔
      ∃ earlier later first second,
        (entriesOf category entries)[earlier]? = some first ∧
          (entriesOf category entries)[later]? = some second ∧
          FirstRepetition ((entriesOf category entries).map Entry.literal)
            earlier later ∧
          error = .duplicateLiteral category (Utf8.text second.literal)
            first.name second.name := by
  -- The report names the category of the repeating entry, which is that of its table.
  have category_eq : ∀ {place : Nat} {entry : Entry},
      (entriesOf category entries)[place]? = some entry →
        entry.category = category := by
    intro place entry found
    simpa using (List.mem_filter.mp (List.mem_of_getElem? found)).2
  rw [repetitionIn?, Option.map_eq_some_iff]
  constructor
  · rintro ⟨⟨first, second⟩, clash, rfl⟩
    rcases firstClash?_eq_some_iff_firstRepetition.mp clash with
      ⟨earlier, later, first_at, second_at, repeats⟩
    exact ⟨earlier, later, first, second, first_at, second_at, repeats,
      by simp only [category_eq second_at]⟩
  · rintro ⟨earlier, later, first, second, first_at, second_at, repeats, rfl⟩
    exact ⟨(first, second), firstClash?_eq_some_iff_firstRepetition.mpr
      ⟨earlier, later, first_at, second_at, repeats⟩,
      by simp only [category_eq second_at]⟩

/--
Loading reports the right error.  Whatever else is wrong, the first entry with
a fault of its own is reported: an empty literal before anything else, then a
value that is missing or out of range.  If no entry is faulty, the report is on
the smallest category that repeats a literal; it gives the text of the
literal, the entry at the first place where a literal occurs again, and the
only entry before that place with the same literal.
-/
theorem load_eq_error_iff_loadFault (entries : List Entry)
    (error : CatalogError) :
    load entries = .error error ↔ LoadFault entries error := by
  rw [load_eq_error_iff, entryFault?_eq_some_iff,
    entryFault?_eq_none_iff_not_faulty, Category.findSome?_all_eq_some_iff]
  simp only [repetitionIn?_eq_some_iff, repetitionIn?_eq_none_iff]
  constructor
  · rintro (⟨before, entry, after, split, earlier, faulty⟩ |
      ⟨faultless, category, ⟨earlier, later, first, second, first_at,
        second_at, repeats, rfl⟩, smaller⟩)
    · exact .entry split earlier faulty
    · exact .repetition faultless smaller repeats first_at second_at
  · intro fault
    cases fault with
    | entry split earlier faulty =>
        exact Or.inl ⟨_, _, _, split, earlier, faulty⟩
    | repetition faultless smaller repeats first_at second_at =>
        exact Or.inr ⟨faultless, _, ⟨_, _, _, _, first_at, second_at,
          repeats, rfl⟩, smaller⟩

example :
    load
        [⟨.opcode, "add", [0x2B], some 1⟩, ⟨.delimiter, "PLUS", [0x2B], none⟩,
          ⟨.opcode, "plus", [0x2B], some 2⟩, ⟨.delimiter, "DOT", [0x2E], none⟩,
          ⟨.delimiter, "POINT", [0x2E], none⟩,
          ⟨.delimiter, "CROSS", [0x2B], none⟩] =
      .error (.duplicateLiteral .delimiter "." "DOT" "POINT") := by
  rfl

end Catalog

end Lexicon
