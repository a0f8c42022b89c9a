import Lexicon.Proofs.Classification
import Lexicon.Proofs.SourceTiling
import Mathlib.Data.Set.Basic

/-!
# Only matching entries count

Two tokenizers with the same rules may hold their entries in different orders
and match them in different ways, one by one or through a trie.  What they
recognise at the start of an input depends on the set of entries whose
literals start it and on nothing else: the order of the entries would only
decide between equal literals, and a category does not repeat a literal.

The order in which entries are declared is therefore invisible to lexing.
-/

namespace Lexicon

/-! ## Matching sets -/

/-- The entries of a category whose literals start the input. -/
def matching (entries : List Entry) (category : Category) (input : Bytes) :
    Set Entry :=
  {entry | entry ∈ entries ∧ entry.category = category ∧
    entry.literal <+: input}

theorem admissible_iff_mem_matching {entries : List Entry} {rule : Rule}
    {input : Bytes} {entry : Entry} :
    Admissible entries rule input entry ↔
      entry ∈ matching entries rule.category input ∧
        rule.Admits (input.drop entry.literal.length) := by
  constructor
  · rintro ⟨declared, sameCategory, starts, follows⟩
    exact ⟨⟨declared, sameCategory, starts⟩, follows⟩
  · rintro ⟨⟨declared, sameCategory, starts⟩, follows⟩
    exact ⟨declared, sameCategory, starts, follows⟩

/-- The order of a category's entries does not matter for the set of those that match. -/
theorem matching_eq_of_perm {left right : List Entry} {category : Category}
    (perm : (entriesOf category left).Perm (entriesOf category right))
    (input : Bytes) :
    matching left category input = matching right category input := by
  have sameMembers : ∀ entry,
      entry ∈ left ∧ entry.category = category ↔
        entry ∈ right ∧ entry.category = category := by
    intro entry
    have members := perm.mem_iff (a := entry)
    simpa [entriesOf] using members
  ext entry
  show (_ ∧ _ ∧ _) ↔ (_ ∧ _ ∧ _)
  rw [← and_assoc, sameMembers entry, and_assoc]

/-- Entries that do not match may come and go. -/
theorem matching_eq_of_not_prefix {left right kept removed added : List Entry}
    {input : Bytes} (leftPerm : left.Perm (kept ++ removed))
    (rightPerm : right.Perm (kept ++ added))
    (apart : ∀ entry ∈ removed ++ added, ¬ entry.literal <+: input)
    (category : Category) :
    matching left category input = matching right category input := by
  have same : ∀ entry, entry.literal <+: input →
      (entry ∈ left ↔ entry ∈ right) := by
    intro entry starts
    have neither : entry ∉ removed ++ added :=
      fun member => apart entry member starts
    rw [List.mem_append, not_or] at neither
    rw [leftPerm.mem_iff, rightPerm.mem_iff, List.mem_append,
      List.mem_append]
    simp [neither]
  ext entry
  constructor
  · rintro ⟨declared, sameCategory, starts⟩
    exact ⟨(same entry starts).mp declared, sameCategory, starts⟩
  · rintro ⟨declared, sameCategory, starts⟩
    exact ⟨(same entry starts).mpr declared, sameCategory, starts⟩

/-! ## Equal outcomes -/

section Congruence

variable {left right : Tokenizer}

/-- Equal rules with the same admissible entries have the same outcome. -/
theorem Tokenizer.classify_eq_of_admissible_iff
    (sameRules : left.rules = right.rules) {input : Bytes}
    (same : ∀ rule ∈ right.rules, ∀ entry,
      Admissible left.catalog.entries rule input entry ↔
        Admissible right.catalog.entries rule input entry)
    (offset : Nat) :
    left.classify offset input = right.classify offset input := by
  cases outcome : left.classify offset input with
  | ok recognition =>
      rcases classify_eq_ok_iff.mp outcome with
        ⟨entry, chosen, sameToken, sameLength, whole⟩
      rw [sameRules] at chosen
      symm
      apply classify_eq_ok_iff.mpr
      exact ⟨entry, chosen.of_admissible_iff same, sameToken, sameLength,
        whole⟩
  | error error =>
      rcases classify_eq_error_iff.mp outcome with ⟨failed, sameError⟩
      rw [sameRules] at failed
      symm
      apply classify_eq_error_iff.mpr
      refine ⟨?_, sameError⟩
      intro rule listed entry admissible
      exact failed rule listed entry
        ((same rule listed entry).mpr admissible)

theorem Cursor.step?_congr
    (same : ∀ offset input,
      left.classify offset input = right.classify offset input)
    (cursor : Cursor) : cursor.step? left = cursor.step? right := by
  rw [step?, step?, read, read, same]

/-- Tokenizers that always agree give the same items. -/
theorem scan_congr
    (same : ∀ offset input,
      left.classify offset input = right.classify offset input)
    (cursor : Cursor) : scan left cursor = scan right cursor := by
  fun_induction scan left cursor with
  | case1 cursor stepped =>
      rw [cursor.step?_congr same] at stepped
      exact (scan_of_step?_eq_none stepped).symm
  | case2 cursor item next stepped induction =>
      rw [cursor.step?_congr same] at stepped
      rw [scan_of_step?_eq_some stepped, induction]

end Congruence

/-! ## Two catalogs under the same rules -/

namespace Tokenizer

section Built

variable {leftEntries rightEntries : List Entry}
  {leftCatalog rightCatalog : Catalog} {rules : List Rule}
  {left right : Tokenizer}

theorem classify_eq_of_matching_eq
    (leftLoaded : Catalog.load leftEntries = .ok leftCatalog)
    (rightLoaded : Catalog.load rightEntries = .ok rightCatalog)
    (leftBuilt : build leftCatalog rules = .ok left)
    (rightBuilt : build rightCatalog rules = .ok right) {input : Bytes}
    (same : ∀ rule ∈ rules, matching leftEntries rule.category input =
      matching rightEntries rule.category input) (offset : Nat) :
    left.classify offset input = right.classify offset input := by
  rcases parts_of_build leftBuilt with ⟨rfl, leftRules⟩
  rcases parts_of_build rightBuilt with ⟨rfl, rightRules⟩
  apply classify_eq_of_admissible_iff (leftRules.trans rightRules.symm)
  intro rule listed entry
  rw [rightRules] at listed
  rw [admissible_congr (Catalog.mem_entries_of_load leftLoaded),
    admissible_congr (Catalog.mem_entries_of_load rightLoaded),
    admissible_iff_mem_matching, admissible_iff_mem_matching,
    same rule listed]

/--
Classification depends only on the matching entries.  Two tokenizers with the
same rules agree at an offset of a source if every listed category has the
same set of entries there whose literals start what remains.  So entries
which do not match there may be left out or added, in any number and at any
place, and those which remain may change their order.  If each listed category
has the same entries in some order, the two tokenizers lex every source alike.
-/
theorem classifyAt_eq_of_matching_eq
    (leftLoaded : Catalog.load leftEntries = .ok leftCatalog)
    (rightLoaded : Catalog.load rightEntries = .ok rightCatalog)
    (leftBuilt : build leftCatalog rules = .ok left)
    (rightBuilt : build rightCatalog rules = .ok right) :
    (∀ source offset,
        (∀ rule ∈ rules,
          matching leftEntries rule.category (source.drop offset) =
            matching rightEntries rule.category (source.drop offset)) →
          left.classifyAt source offset = right.classifyAt source offset) ∧
      (∀ source offset kept removed added,
        leftEntries.Perm (kept ++ removed) →
        rightEntries.Perm (kept ++ added) →
        (∀ entry ∈ removed ++ added,
          ¬ entry.literal <+: source.drop offset) →
          left.classifyAt source offset = right.classifyAt source offset) ∧
      ((∀ rule ∈ rules, (entriesOf rule.category leftEntries).Perm
          (entriesOf rule.category rightEntries)) →
        ∀ source, lex left source = lex right source) := by
  have agree := @classify_eq_of_matching_eq _ _ _ _ _ _ _ leftLoaded
    rightLoaded leftBuilt rightBuilt
  refine ⟨?_, ?_, ?_⟩
  · intro source offset same
    exact agree same offset
  · intro source offset kept removed added leftPerm rightPerm apart
    apply agree _ offset
    intro rule _
    exact matching_eq_of_not_prefix leftPerm rightPerm apart rule.category
  · intro perm source
    have everywhere : ∀ offset input,
        left.classify offset input = right.classify offset input := by
      intro offset input
      apply agree _ offset
      intro rule listed
      exact matching_eq_of_perm (perm rule listed) input
    rw [lex, lex, scan_congr everywhere]

end Built

/--
Thirty-two further keywords that do not match turn a list that is tried one by
one into a trie, and the keyword among them is recognised as before.
-/
theorem classifyAt_eq_of_matching_eq_trie :
    ∃ leftCatalog rightCatalog left right,
      Catalog.load [⟨.keyword, "is", [0x69, 0x73], none⟩] =
          .ok leftCatalog ∧
        Catalog.load
            (((List.range 32).map fun index =>
                ⟨.keyword, "x", [0x78, UInt8.ofNat index], none⟩) ++
              [⟨.keyword, "is", [0x69, 0x73], none⟩]) =
          .ok rightCatalog ∧
        build leftCatalog [⟨.keyword, some Boundary.word⟩] = .ok left ∧
        build rightCatalog [⟨.keyword, some Boundary.word⟩] = .ok right ∧
        (left.classifiers.map fun found => found.matcher.usesTrie) =
          [false] ∧
        (right.classifiers.map fun found => found.matcher.usesTrie) =
          [true] ∧
        left.classifyAt [0x20, 0x69, 0x73, 0x2E] 1 =
          right.classifyAt [0x20, 0x69, 0x73, 0x2E] 1 := by
  have builds : ∃ leftCatalog rightCatalog left right,
      Catalog.load [⟨.keyword, "is", [0x69, 0x73], none⟩] =
          .ok leftCatalog ∧
        Catalog.load
            (((List.range 32).map fun index =>
                ⟨.keyword, "x", [0x78, UInt8.ofNat index], none⟩) ++
              [⟨.keyword, "is", [0x69, 0x73], none⟩]) =
          .ok rightCatalog ∧
        build leftCatalog [⟨.keyword, some Boundary.word⟩] = .ok left ∧
        build rightCatalog [⟨.keyword, some Boundary.word⟩] = .ok right ∧
        (left.classifiers.map fun found => found.matcher.usesTrie) =
          [false] ∧
        (right.classifiers.map fun found => found.matcher.usesTrie) =
          [true] :=
    ⟨_, _, _, _, rfl, rfl, rfl, rfl, rfl, rfl⟩
  rcases builds with ⟨leftCatalog, rightCatalog, left, right, leftLoaded,
    rightLoaded, leftBuilt, rightBuilt, leftPlain, rightTrie⟩
  refine ⟨leftCatalog, rightCatalog, left, right, leftLoaded, rightLoaded,
    leftBuilt, rightBuilt, leftPlain, rightTrie, ?_⟩
  apply (classifyAt_eq_of_matching_eq leftLoaded rightLoaded leftBuilt
    rightBuilt).2.1 _ 1 [⟨.keyword, "is", [0x69, 0x73], none⟩] [] _
    (List.Perm.refl _) List.perm_append_comm
  intro entry member starts
  rcases List.mem_map.mp member with ⟨index, _, rfl⟩
  simp at starts

end Tokenizer

end Lexicon
