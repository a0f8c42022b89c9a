import Lexicon.Catalog.Overlap
import Lexicon.Proofs.CatalogLoading
import Mathlib.Data.List.Sort

/-!
# Which literals overlap

The overlaps of a catalog are the literals that at least two categories
declare, in lexicographic order of their bytes and each with its categories.
No other list is like that, so it does not matter how the overlaps are found.

One way is to go through the entries once and to note their categories in a
hash map under their literals.  A category is noted once for a literal since
no category repeats one.  The groups may then be read in any order: their
literals differ, so sorting leaves nothing to choose.
-/

namespace Lexicon

/-! ## The order of byte strings -/

namespace Bytes

theorem le_iff {left right : Bytes} : left.le right = true ↔ left ≤ right := by
  induction left generalizing right with
  | nil => exact iff_of_true rfl (List.nil_le right)
  | cons byte rest induction =>
      cases right with
      | nil => simp [Bytes.le]
      | cons other otherRest =>
          rw [Bytes.le, List.cons_le_cons_iff, ← induction]
          simp

theorem le_total (left right : Bytes) :
    (left.le right || right.le left) = true := by
  rw [Bool.or_eq_true, le_iff, le_iff]
  exact List.le_total left right

theorem le_trans (left middle right : Bytes)
    (first : left.le middle = true) (second : middle.le right = true) :
    left.le right = true := by
  rw [le_iff] at first second ⊢
  exact List.le_trans first second

end Bytes

/-! ## Repetitions in a sorted list -/

section Repetitions

variable {α : Type} [BEq α]

private theorem eraseRepsBy_loop_eq_append (first : α) (list seen : List α) :
    List.eraseRepsBy.loop (· == ·) first list seen =
      seen.reverse ++ List.eraseRepsBy.loop (· == ·) first list [] := by
  induction list generalizing first seen with
  | nil => simp [List.eraseRepsBy.loop]
  | cons second rest induction =>
      simp only [List.eraseRepsBy.loop]
      split
      · exact induction first seen
      · rw [induction second (first :: seen), induction second [first]]
        simp

theorem eraseReps_cons_cons (first second : α) (rest : List α) :
    (first :: second :: rest).eraseReps =
      if first == second then (first :: rest).eraseReps
      else first :: (second :: rest).eraseReps := by
  simp only [List.eraseReps, List.eraseRepsBy, List.eraseRepsBy.loop]
  cases first == second with
  | true => rfl
  | false => exact eraseRepsBy_loop_eq_append second rest [first]

theorem mem_eraseReps [LawfulBEq α] {list : List α} {element : α} :
    element ∈ list.eraseReps ↔ element ∈ list := by
  induction list with
  | nil => rfl
  | cons first rest induction =>
      cases rest with
      | nil => rfl
      | cons second rest =>
          rw [eraseReps_cons_cons]
          split
          case isTrue same =>
            cases beq_iff_eq.mp same
            rw [induction]
            simp
          case isFalse => rw [List.mem_cons, List.mem_cons, induction]

end Repetitions

/-- A sorted list without its repetitions ascends strictly. -/
theorem Bytes.ascending_eraseReps {list : List Bytes}
    (sorted : list.Pairwise (· ≤ ·)) : list.eraseReps.Pairwise (· < ·) := by
  induction list with
  | nil => exact .nil
  | cons first rest induction =>
      rcases List.pairwise_cons.mp sorted with ⟨leads, restSorted⟩
      cases rest with
      | nil => exact List.pairwise_singleton _ first
      | cons second rest =>
          rw [eraseReps_cons_cons]
          split
          case isTrue same =>
            cases beq_iff_eq.mp same
            exact induction restSorted
          case isFalse differs =>
            refine List.pairwise_cons.mpr ⟨?_, induction restSorted⟩
            intro later member
            have listed := mem_eraseReps.mp member
            rcases List.le_iff_lt_or_eq.mp (leads later listed) with
              before | rfl
            · exact before
            · -- The second element lies between two occurrences of the first.
              have notAfter : second ≤ first := by
                rcases List.mem_cons.mp listed with rfl | afterwards
                · exact List.le_refl first
                · exact List.rel_of_pairwise_cons restSorted afterwards
              have equal := List.le_antisymm
                (leads second List.mem_cons_self) notAfter
              exact absurd (beq_iff_eq.mpr equal) differs

/-! ## Declaring categories -/

/-- An entry of the category is written by the literal. -/
def DeclaredIn (entries : List Entry) (category : Category)
    (literal : Bytes) : Prop :=
  ∃ entry ∈ entries, entry.category = category ∧ entry.literal = literal

/-- Categories in their order are determined by which they are. -/
theorem Category.eq_of_ascending {left right : List Category}
    (leftAscending : left.Pairwise fun first second =>
      first.index < second.index)
    (rightAscending : right.Pairwise fun first second =>
      first.index < second.index)
    (same : ∀ category, category ∈ left ↔ category ∈ right) :
    left = right := by
  have : Std.Asymm fun first second : Category =>
      first.index < second.index :=
    ⟨fun _ _ => Nat.lt_asymm⟩
  exact leftAscending.eq_of_mem_iff rightAscending same

/-- A list without repetitions is longer than one if it has two members. -/
theorem two_le_length_iff {α : Type} {list : List α} (distinct : list.Nodup) :
    2 ≤ list.length ↔
      ∃ first second, first ≠ second ∧ first ∈ list ∧ second ∈ list := by
  constructor
  · intro long
    match list, long with
    | first :: second :: _, _ =>
        refine ⟨first, second, ?_, by simp, by simp⟩
        rintro rfl
        simp at distinct
  · rintro ⟨first, second, differ, firstListed, secondListed⟩
    match list with
    | [] => cases firstListed
    | [only] =>
        rw [List.mem_singleton] at firstListed secondListed
        exact absurd (firstListed.trans secondListed.symm) differ
    | _ :: _ :: _ => simp

namespace Catalog

variable (catalog : Catalog)

theorem mem_declaring {catalog : Catalog} {literal : Bytes}
    {category : Category} :
    category ∈ catalog.declaring literal ↔
      DeclaredIn catalog.entries category literal := by
  simp [declaring, DeclaredIn, mem_table, and_assoc]

theorem declaring_ascending (literal : Bytes) :
    (catalog.declaring literal).Pairwise fun left right =>
      left.index < right.index :=
  Category.all_ascending.filter _

theorem two_le_length_declaring_iff {catalog : Catalog} {literal : Bytes} :
    2 ≤ (catalog.declaring literal).length ↔
      ∃ first second, first ≠ second ∧
        DeclaredIn catalog.entries first literal ∧
        DeclaredIn catalog.entries second literal := by
  have distinct : (catalog.declaring literal).Nodup := by
    apply (catalog.declaring_ascending literal).imp
    rintro left _ before rfl
    exact Nat.lt_irrefl _ before
  simp only [two_le_length_iff distinct, mem_declaring]

theorem mem_literals {catalog : Catalog} {literal : Bytes} :
    literal ∈ catalog.literals ↔
      ∃ entry ∈ catalog.entries, entry.literal = literal := by
  rw [literals, mem_eraseReps, List.mem_mergeSort, List.mem_map]

theorem literals_ascending : catalog.literals.Pairwise (· < ·) := by
  apply Bytes.ascending_eraseReps
  apply (List.pairwise_mergeSort Bytes.le_trans Bytes.le_total _).imp
  exact fun ordered => Bytes.le_iff.mp ordered

end Catalog

/-! ## The list of overlaps -/

/--
The list holds the literals that at least two categories declare, in
ascending order, each with the categories that declare it in their order.
-/
structure Overlap.Listing (entries : List Entry) (list : List Overlap) :
    Prop where
  ascending : list.Pairwise fun left right => left.literal < right.literal
  listed_iff : ∀ literal, (∃ overlap ∈ list, overlap.literal = literal) ↔
    ∃ first second, first ≠ second ∧ DeclaredIn entries first literal ∧
      DeclaredIn entries second literal
  mem_categories_iff : ∀ overlap ∈ list, ∀ category,
    category ∈ overlap.categories ↔
      DeclaredIn entries category overlap.literal
  /-- Each category is listed once and in its place. -/
  categories_ascending : ∀ overlap ∈ list,
    overlap.categories.Pairwise fun left right => left.index < right.index

theorem Overlap.listing_congr {left right : List Entry}
    (same : ∀ entry, entry ∈ left ↔ entry ∈ right) {list : List Overlap} :
    Overlap.Listing left list ↔ Overlap.Listing right list := by
  have declared : ∀ {category literal},
      DeclaredIn left category literal ↔ DeclaredIn right category literal := by
    intro category literal
    simp only [DeclaredIn, same]
  constructor
  · rintro ⟨ascending, listed, members, ordered⟩
    simp only [declared] at listed members
    exact ⟨ascending, listed, members, ordered⟩
  · rintro ⟨ascending, listed, members, ordered⟩
    simp only [← declared] at listed members
    exact ⟨ascending, listed, members, ordered⟩

/-- Overlaps in ascending order are determined by which they are. -/
theorem Overlap.eq_of_ascending {left right : List Overlap}
    (leftAscending : left.Pairwise fun first second =>
      first.literal < second.literal)
    (rightAscending : right.Pairwise fun first second =>
      first.literal < second.literal)
    (same : ∀ overlap, overlap ∈ left ↔ overlap ∈ right) :
    left = right := by
  have : Std.Asymm fun first second : Overlap =>
      first.literal < second.literal :=
    ⟨fun _ _ => List.lt_asymm⟩
  exact leftAscending.eq_of_mem_iff rightAscending same

namespace Catalog

section Listings

variable {catalog : Catalog} {list : List Overlap}

/-- The overlaps of a listing are the literals with two declaring categories or more. -/
theorem mem_iff_of_listing
    (listing : Overlap.Listing catalog.entries list) {overlap : Overlap} :
    overlap ∈ list ↔ 2 ≤ (catalog.declaring overlap.literal).length ∧
      overlap.categories = catalog.declaring overlap.literal := by
  have categories_eq : ∀ other ∈ list,
      other.categories = catalog.declaring other.literal := by
    intro other member
    apply Category.eq_of_ascending
      (listing.categories_ascending other member)
      (catalog.declaring_ascending _)
    intro category
    rw [listing.mem_categories_iff other member, mem_declaring]
  rw [two_le_length_declaring_iff, ← listing.listed_iff]
  constructor
  · intro member
    exact ⟨⟨overlap, member, rfl⟩, categories_eq overlap member⟩
  · rintro ⟨⟨other, member, sameLiteral⟩, sameCategories⟩
    have sameOther := categories_eq other member
    rw [sameLiteral, ← sameCategories] at sameOther
    rcases overlap with ⟨literal, categories⟩
    cases sameLiteral
    cases sameOther
    exact member

theorem eq_of_listing {other : List Overlap}
    (listing : Overlap.Listing catalog.entries list)
    (otherListing : Overlap.Listing catalog.entries other) :
    list = other := by
  apply Overlap.eq_of_ascending listing.ascending otherListing.ascending
  intro overlap
  rw [mem_iff_of_listing listing, mem_iff_of_listing otherListing]

/-- Conversely, these literals in ascending order are a listing. -/
theorem listing_of_mem_iff
    (ascending : list.Pairwise fun left right =>
      left.literal < right.literal)
    (mem_iff : ∀ overlap, overlap ∈ list ↔
      2 ≤ (catalog.declaring overlap.literal).length ∧
        overlap.categories = catalog.declaring overlap.literal) :
    Overlap.Listing catalog.entries list := by
  refine ⟨ascending, ?_, ?_, ?_⟩
  · intro literal
    rw [← two_le_length_declaring_iff]
    constructor
    · rintro ⟨overlap, member, rfl⟩
      exact ((mem_iff overlap).mp member).1
    · intro twice
      exact ⟨⟨literal, catalog.declaring literal⟩,
        (mem_iff _).mpr ⟨twice, rfl⟩, rfl⟩
  · intro overlap member category
    rw [((mem_iff overlap).mp member).2, mem_declaring]
  · intro overlap member
    rw [((mem_iff overlap).mp member).2]
    exact catalog.declaring_ascending _

end Listings

theorem listing_overlaps (catalog : Catalog) :
    Overlap.Listing catalog.entries catalog.overlaps := by
  apply listing_of_mem_iff
  · apply List.Pairwise.filter
    rw [List.pairwise_map]
    exact catalog.literals_ascending
  · rintro ⟨literal, categories⟩
    simp only [overlaps, List.mem_filter, List.mem_map, decide_eq_true_eq,
      Overlap.mk.injEq]
    constructor
    · rintro ⟨⟨_, _, rfl, rfl⟩, twice⟩
      exact ⟨twice, rfl⟩
    · rintro ⟨twice, rfl⟩
      refine ⟨⟨literal, ?_, rfl, rfl⟩, twice⟩
      rcases two_le_length_declaring_iff.mp twice with
        ⟨_, _, _, ⟨entry, declared, _, sameLiteral⟩, _⟩
      exact mem_literals.mpr ⟨entry, declared, sameLiteral⟩

end Catalog

/-! ## Noting categories in a hash map -/

/-- The categories noted under each literal, in the order in which they are noted. -/
abbrev Groups := Std.HashMap Bytes (List Category)

namespace Groups

/-- Note the category of an entry under its literal. -/
def note (groups : Groups) (entry : Entry) : Groups :=
  groups.insert entry.literal
    (groups.getD entry.literal [] ++ [entry.category])

theorem getD_note (groups : Groups) (entry : Entry) (literal : Bytes) :
    (groups.note entry).getD literal [] =
      groups.getD literal [] ++
        if entry.literal = literal then [entry.category] else [] := by
  rw [note, Std.HashMap.getD_insert]
  by_cases same : entry.literal = literal
  · simp [same]
  · simp [same]

/-- The categories of a list of entries are noted in its order. -/
theorem getD_foldl_note (groups : Groups) (entries : List Entry)
    (literal : Bytes) :
    (entries.foldl note groups).getD literal [] =
      groups.getD literal [] ++
        (entries.filter fun entry => entry.literal = literal).map
          Entry.category := by
  induction entries generalizing groups with
  | nil => simp
  | cons entry rest induction =>
      rw [List.foldl_cons, induction, getD_note, List.append_assoc]
      by_cases same : entry.literal = literal
      · simp [same]
      · simp [same]

end Groups

namespace Catalog

/-- The categories of all entries, noted one after another. -/
def groups (catalog : Catalog) : Groups :=
  catalog.entries.foldl Groups.note ∅

variable (catalog : Catalog)

/-- Entries that share a literal come in the order of their categories. -/
theorem entries_ascending :
    catalog.entries.Pairwise fun left right =>
      left.literal = right.literal →
        left.category.index < right.category.index := by
  apply List.pairwise_flatMap.mpr
  constructor
  · intro category _
    apply (List.pairwise_map.mp (catalog.distinct category)).imp
    intro left right differ same
    exact absurd same differ
  · apply Category.all_ascending.imp
    intro first second before left leftListed right rightListed _
    rw [(mem_table.mp leftListed).2, (mem_table.mp rightListed).2]
    exact before

/-- What is noted under a literal are the categories that declare it, each once. -/
theorem getD_groups (literal : Bytes) :
    catalog.groups.getD literal [] = catalog.declaring literal := by
  rw [groups, Groups.getD_foldl_note, Std.HashMap.getD_empty, List.nil_append]
  apply Category.eq_of_ascending _ (catalog.declaring_ascending literal)
  · intro category
    rw [mem_declaring, DeclaredIn, List.mem_map]
    simp only [List.mem_filter, decide_eq_true_eq]
    constructor
    · rintro ⟨entry, ⟨listed, sameLiteral⟩, rfl⟩
      exact ⟨entry, listed, rfl, sameLiteral⟩
    · rintro ⟨entry, declared, rfl, sameLiteral⟩
      exact ⟨entry, ⟨declared, sameLiteral⟩, rfl⟩
  · rw [List.pairwise_map, List.pairwise_filter]
    apply catalog.entries_ascending.imp
    intro left right before leftHere rightHere
    apply before
    rw [of_decide_eq_true leftHere, of_decide_eq_true rightHere]

theorem mem_toList_groups {catalog : Catalog} {literal : Bytes}
    {categories : List Category} (noted : categories ≠ []) :
    (literal, categories) ∈ catalog.groups.toList ↔
      categories = catalog.declaring literal := by
  rw [Std.HashMap.mem_toList_iff_getElem?_eq_some, ← getD_groups,
    Std.HashMap.getD_eq_getD_getElem?]
  cases catalog.groups[literal]? with
  | none => simp [noted]
  | some found => simp [eq_comm]

end Catalog

/-- The overlaps among groups that are read one after another. -/
def Overlap.ofGroups (groups : List (Bytes × List Category)) :
    List Overlap :=
  ((groups.filter fun group => 1 < group.2.length).map fun group =>
    ⟨group.1, group.2⟩).mergeSort fun left right =>
      left.literal.le right.literal

theorem Overlap.mem_ofGroups {groups : List (Bytes × List Category)}
    {overlap : Overlap} :
    overlap ∈ ofGroups groups ↔
      (overlap.literal, overlap.categories) ∈ groups ∧
        2 ≤ overlap.categories.length := by
  rcases overlap with ⟨literal, categories⟩
  simp [ofGroups, Nat.succ_le_iff]

theorem Overlap.ascending_ofGroups {groups : List (Bytes × List Category)}
    (distinct : (groups.map Prod.fst).Nodup) :
    (ofGroups groups).Pairwise fun left right =>
      left.literal < right.literal := by
  have sorted : (ofGroups groups).Pairwise fun left right =>
      left.literal.le right.literal = true := by
    apply List.pairwise_mergeSort
    · intro left middle right
      exact Bytes.le_trans _ _ _
    · intro left right
      exact Bytes.le_total _ _
  have apart : (ofGroups groups).Pairwise fun left right =>
      left.literal ≠ right.literal := by
    have kept : ((groups.filter fun group => 1 < group.2.length).map
        fun group => (⟨group.1, group.2⟩ : Overlap)).Pairwise
          fun left right => left.literal ≠ right.literal := by
      apply List.pairwise_map.mpr
      exact (List.pairwise_map.mp distinct).filter _
    apply (List.mergeSort_perm _ _).symm.pairwise kept
    intro left right differ
    exact differ.symm
  exact sorted.imp₂ (fun _ _ ordered differ =>
    (List.le_iff_lt_or_eq.mp (Bytes.le_iff.mp ordered)).resolve_right differ)
    apart

namespace Catalog

/-- The overlaps are found from the groups in whatever order they are read. -/
theorem listing_ofGroups {catalog : Catalog}
    {read : List (Bytes × List Category)}
    (inAnyOrder : read.Perm catalog.groups.toList) :
    Overlap.Listing catalog.entries (Overlap.ofGroups read) := by
  apply listing_of_mem_iff
  · apply Overlap.ascending_ofGroups
    apply ((inAnyOrder.map Prod.fst).nodup_iff).mpr
    apply List.pairwise_map.mpr
    apply Std.HashMap.distinct_keys_toList.imp
    intro left right differ
    exact beq_eq_false_iff_ne.mp differ
  · intro overlap
    rw [Overlap.mem_ofGroups, inAnyOrder.mem_iff]
    constructor
    · rintro ⟨listed, twice⟩
      have noted : overlap.categories ≠ [] :=
        List.ne_nil_of_length_pos (Nat.zero_lt_of_lt twice)
      have categories_eq := (mem_toList_groups noted).mp listed
      rw [categories_eq] at twice
      exact ⟨twice, categories_eq⟩
    · rintro ⟨twice, categories_eq⟩
      rw [← categories_eq] at twice
      have noted : overlap.categories ≠ [] :=
        List.ne_nil_of_length_pos (Nat.zero_lt_of_lt twice)
      exact ⟨(mem_toList_groups noted).mpr categories_eq, twice⟩

/--
The overlaps of a loaded catalog are exact and canonical.  They ascend
strictly in the lexicographic order of their literals, which are those that at
least two categories declare, and each has the categories that declare it,
once each and in their order.  Only one list is like that.  It is also what
sorting gives after the categories have been noted in a hash map under their
literals, in whatever order the groups of the map are read.
-/
theorem overlaps_listing {entries : List Entry} {catalog : Catalog}
    (loaded : load entries = .ok catalog) :
    Overlap.Listing entries catalog.overlaps ∧
      (∀ list, Overlap.Listing entries list → list = catalog.overlaps) ∧
      ∀ read : List (Bytes × List Category),
        read.Perm catalog.groups.toList →
          Overlap.ofGroups read = catalog.overlaps := by
  have listing := catalog.listing_overlaps
  have members := mem_entries_of_load loaded
  refine ⟨(Overlap.listing_congr members).mp listing, ?_, ?_⟩
  · intro list other
    exact eq_of_listing ((Overlap.listing_congr members).mpr other) listing
  · intro read inAnyOrder
    exact eq_of_listing (listing_ofGroups inAnyOrder) listing

/--
A keyword and an opcode overlap, and so do a type and an opcode, while `if` is
declared once.  The groups of the map give the overlaps in their order also if
they are read backwards.
-/
theorem overlaps_listing_return :
    ∃ catalog,
      load
          [⟨.opcode, "return", [0x72], some 0xF3⟩,
            ⟨.keyword, "return", [0x72], none⟩,
            ⟨.keyword, "if", [0x69], none⟩,
            ⟨.opcode, "address", [0x61], some 0x30⟩,
            ⟨.elementaryType, "address", [0x61], none⟩] = .ok catalog ∧
        catalog.overlaps =
          [⟨[0x61], [.elementaryType, .opcode]⟩,
            ⟨[0x72], [.keyword, .opcode]⟩] ∧
        (¬ ∃ overlap ∈ catalog.overlaps, overlap.literal = [0x69]) ∧
        Overlap.ofGroups catalog.groups.toList.reverse =
          catalog.overlaps := by
  have finds : ∃ catalog,
      load
          [⟨.opcode, "return", [0x72], some 0xF3⟩,
            ⟨.keyword, "return", [0x72], none⟩,
            ⟨.keyword, "if", [0x69], none⟩,
            ⟨.opcode, "address", [0x61], some 0x30⟩,
            ⟨.elementaryType, "address", [0x61], none⟩] = .ok catalog ∧
        catalog.overlaps =
          [⟨[0x61], [.elementaryType, .opcode]⟩,
            ⟨[0x72], [.keyword, .opcode]⟩] := by
    refine ⟨_, rfl, ?_⟩
    simp [overlaps, literals, declaring, entries, table, Tables.of_add,
      Tables.of_empty, Category.all, List.mergeSort, Bytes.le,
      List.eraseReps, List.eraseRepsBy, List.eraseRepsBy.loop]
  rcases finds with ⟨catalog, loaded, found⟩
  rcases overlaps_listing loaded with ⟨listing, _, inAnyOrder⟩
  refine ⟨catalog, loaded, found, ?_, inAnyOrder _ (List.reverse_perm _)⟩
  rw [listing.listed_iff]
  simp [DeclaredIn]

end Catalog

end Lexicon
