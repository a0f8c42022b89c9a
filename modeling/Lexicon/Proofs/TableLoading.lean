import Lexicon.Proofs.StandardTables

/-!
# Tables that make up a tokenizer

Tables of different categories cannot spoil each other: if each of them alone
is free of faults, a tokenizer can be built from all of them.  The standard
tables are of this kind.
-/

namespace Lexicon

/-! ## Several tables -/

theorem Loadable.nil : Loadable [] :=
  ⟨by simp, by simp, by simp, List.Pairwise.nil⟩

/-- Loadable lists without a common category are loadable together. -/
theorem Loadable.append {left right : List Entry} (leftLoads : Loadable left)
    (rightLoads : Loadable right)
    (apart : ∀ first ∈ left, ∀ second ∈ right,
      first.category ≠ second.category) :
    Loadable (left ++ right) := by
  constructor
  · exact List.forall_mem_append.mpr
      ⟨leftLoads.literal_ne_nil, rightLoads.literal_ne_nil⟩
  · exact List.forall_mem_append.mpr
      ⟨leftLoads.width_in_range, rightLoads.width_in_range⟩
  · exact List.forall_mem_append.mpr
      ⟨leftLoads.code_in_range, rightLoads.code_in_range⟩
  · apply List.pairwise_append.mpr
    refine ⟨leftLoads.distinct, rightLoads.distinct, ?_⟩
    intro first firstMember second secondMember same
    exact absurd same (apart first firstMember second secondMember)

namespace Table

/-- Every row of the table is an entry, and the entries are loadable. -/
def Sound (table : Table) : Prop :=
  ∃ entries, table.entries = .ok entries ∧ Loadable entries

/-- Sound tables of different categories are sound together. -/
theorem exists_entriesOfAll {tables : List Table}
    (sound : ∀ table ∈ tables, table.Sound)
    (distinct : (tables.map Table.category).Nodup) :
    ∃ entries, entriesOfAll tables = .ok entries ∧ Loadable entries := by
  induction tables with
  | nil => exact ⟨[], rfl, Loadable.nil⟩
  | cons table rest induction =>
      rcases List.forall_mem_cons.mp sound with
        ⟨⟨first, parsed, firstLoads⟩, restSound⟩
      rcases List.nodup_cons.mp distinct with ⟨unrepeated, restDistinct⟩
      rcases induction restSound restDistinct with
        ⟨others, restParsed, othersLoad⟩
      refine ⟨first ++ others, ?_, firstLoads.append othersLoad ?_⟩
      · rw [entriesOfAll, parsed, restParsed]
      · intro left leftMember right rightMember same
        have here : table.Declares left := ⟨first, parsed, leftMember⟩
        rcases (mem_entriesOfAll_iff restParsed).mp rightMember with
          ⟨other, listed, there⟩
        rw [here.category_eq, there.category_eq] at same
        exact unrepeated (List.mem_map.mpr ⟨other, listed, same.symm⟩)

end Table

namespace Tokenizer

theorem exists_build (catalog : Catalog) {rules : List Rule}
    (distinct : (rules.map Rule.category).Nodup) :
    ∃ tokenizer, build catalog rules = .ok tokenizer := by
  unfold build
  split
  case h_1 category found =>
    rw [(repeated?_eq_none_iff rules).mpr distinct] at found
    cases found
  case h_2 => exact ⟨_, rfl⟩

/-- Tables of different categories with loadable entries make up a tokenizer. -/
theorem exists_ofTables_of_loadable {tables : List Table}
    {entries : List Entry}
    (parsed : Table.entriesOfAll tables = .ok entries)
    (loadable : Loadable entries)
    (distinct : (tables.map Table.category).Nodup) :
    ∃ tokenizer, ofTables tables = .ok tokenizer := by
  rcases (Catalog.exists_load_iff entries).mpr loadable with
    ⟨catalog, loaded⟩
  have rulesDistinct :
      ((tables.map Table.rule).map Rule.category).Nodup := by
    rw [List.map_map]
    exact distinct
  rcases exists_build catalog rulesDistinct with ⟨tokenizer, built⟩
  refine ⟨tokenizer, ?_⟩
  rw [ofTables, Catalog.ofTables, parsed]
  simp only [loaded, Except.mapError, built]

/-- Sound tables of different categories make up a tokenizer. -/
theorem exists_ofTables {tables : List Table}
    (sound : ∀ table ∈ tables, table.Sound)
    (distinct : (tables.map Table.category).Nodup) :
    ∃ tokenizer, ofTables tables = .ok tokenizer := by
  rcases Table.exists_entriesOfAll sound distinct with
    ⟨entries, parsed, loadable⟩
  exact exists_ofTables_of_loadable parsed loadable distinct

end Tokenizer

/-! ## The standard tables -/

namespace Standard

theorem sound : ∀ table ∈ tables, table.Sound := by
  intro table listed
  rcases exists_checked table listed with ⟨entries, parsed, checked⟩
  exact ⟨entries, parsed, checked.loadable⟩

/-- A tokenizer can be built from the standard tables. -/
theorem exists_tokenizer : ∃ found, tokenizer = .ok found :=
  Tokenizer.exists_ofTables sound (by decide)

end Standard

end Lexicon
