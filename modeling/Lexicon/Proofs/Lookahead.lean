import Lexicon.Proofs.CandidateListing
import Lexicon.Proofs.Classification

/-!
# How far classification looks

Matching an input looks at no more bytes than the longest literal has, and a
boundary looks at one byte more.  As soon as an input is longer than every
literal, each literal that starts it leaves a byte for the boundary to look
at.  The bytes after that can be anything: they change neither which entries
are admissible nor what is found where there are none.

The bound is sharp.  After an input that is just as long as the longest
literal, the next byte may still decide.
-/

namespace Lexicon

/-! ## The longest literal -/

theorem Matcher.longestLiteral_build (literals : List Bytes) :
    (build literals).longestLiteral = greatestLength literals := by
  rw [build]
  split
  case isTrue => rfl
  case isFalse => rfl

namespace Tokenizer

/-- The length of the longest literal of any category that is tried, zero if there is none. -/
def longestLiteral (tokenizer : Tokenizer) : Nat :=
  (tokenizer.classifiers.map fun classifier =>
    classifier.matcher.longestLiteral).max?.getD 0

theorem length_le_longestLiteral {tokenizer : Tokenizer} {rule : Rule}
    (listed : rule ∈ tokenizer.rules) {entry : Entry}
    (declared : entry ∈ tokenizer.catalog.entries)
    (sameCategory : entry.category = rule.category) :
    entry.literal.length ≤ tokenizer.longestLiteral := by
  have built : tokenizer.catalog.classifier rule ∈
      tokenizer.classifiers := by
    rw [tokenizer.classifiers_eq]
    exact List.mem_map_of_mem listed
  have member : entry.literal ∈
      (tokenizer.catalog.table rule.category).map Entry.literal :=
    List.mem_map_of_mem (Catalog.mem_table.mpr ⟨declared, sameCategory⟩)
  calc
    entry.literal.length ≤ Matcher.greatestLength
        ((tokenizer.catalog.table rule.category).map Entry.literal) :=
      Matcher.length_le_greatestLength member
    _ = (tokenizer.catalog.classifier rule).matcher.longestLiteral :=
      (Matcher.longestLiteral_build _).symm
    _ ≤ tokenizer.longestLiteral :=
      List.le_max?_getD_of_mem (List.mem_map_of_mem built)

/-! ## Bytes out of reach -/

/-- What comes after an input that is longer than every literal does not matter. -/
theorem admissible_append_iff_of_longestLiteral_lt {tokenizer : Tokenizer}
    {input : Bytes} (long : tokenizer.longestLiteral < input.length)
    (suffix : Bytes) {rule : Rule} (listed : rule ∈ tokenizer.rules)
    (entry : Entry) :
    Admissible tokenizer.catalog.entries rule (input ++ suffix) entry ↔
      Admissible tokenizer.catalog.entries rule input entry := by
  have short : entry ∈ tokenizer.catalog.entries →
      entry.category = rule.category →
        entry.literal.length < input.length := by
    intro declared sameCategory
    exact Nat.lt_of_le_of_lt
      (length_le_longestLiteral listed declared sameCategory) long
  apply admissible_append_iff
  · intro declared sameCategory starts
    exact List.prefix_of_prefix_length_le starts
      (List.prefix_append input suffix)
      (Nat.le_of_lt (short declared sameCategory))
  · -- The literal leaves a byte of the input for the boundary to look at.
    intro declared sameCategory
    apply Rule.admits_append_of_ne_nil
    exact List.drop_eq_nil_iff.not.mpr
      (Nat.not_le.mpr (short declared sameCategory))

/--
Lookahead is bounded.  If an input is longer than every literal of the
categories that are tried, then whatever bytes come after it, classification
gives one and the same token with one and the same length, or it fails with
one and the same error.
-/
theorem classifyAny_lookahead (tokenizer : Tokenizer) {input : Bytes}
    (long : tokenizer.longestLiteral + 1 ≤ input.length)
    (left right : Bytes) :
    (∃ leftFound rightFound,
        tokenizer.classifyAny (input ++ left) = .ok leftFound ∧
          tokenizer.classifyAny (input ++ right) = .ok rightFound ∧
          leftFound.token = rightFound.token ∧
          leftFound.length = rightFound.length) ∨
      ∃ leftError rightError,
        tokenizer.classifyAny (input ++ left) = .error leftError ∧
          tokenizer.classifyAny (input ++ right) = .error rightError ∧
          leftError.offset = rightError.offset ∧
          leftError.found = rightError.found := by
  have same : ∀ suffix, ∀ rule ∈ tokenizer.rules, ∀ entry,
      Admissible tokenizer.catalog.entries rule (input ++ suffix) entry ↔
        Admissible tokenizer.catalog.entries rule input entry := by
    intro suffix rule listed entry
    exact admissible_append_iff_of_longestLiteral_lt long suffix listed
      entry
  -- Both sources are compared with the input alone.
  cases outcome : tokenizer.classify 0 input with
  | ok recognition =>
      exact Or.inl ⟨_, _, classify_append_of_eq_ok (same left) outcome,
        classify_append_of_eq_ok (same right) outcome, rfl, rfl⟩
  | error error =>
      have remains : input ≠ [] :=
        List.length_pos_iff.mp (Nat.zero_lt_of_lt long)
      exact Or.inr ⟨_, _,
        classify_append_of_eq_error (same left) remains outcome,
        classify_append_of_eq_error (same right) remains outcome, rfl, rfl⟩

/--
The word `is` may end with the input or be followed by more of a word, so its
two bytes do not settle the outcome.  Three bytes do.
-/
theorem classifyAny_lookahead_word :
    ∃ catalog tokenizer,
      Catalog.load [⟨.keyword, "is", [0x69, 0x73], none⟩] = .ok catalog ∧
        build catalog [⟨.keyword, some Boundary.word⟩] = .ok tokenizer ∧
        tokenizer.longestLiteral = 2 ∧
        tokenizer.classifyAny [0x69, 0x73] =
          .ok ⟨.keyword "is", 2, []⟩ ∧
        tokenizer.classifyAny [0x69, 0x73, 0x78] =
          .error ⟨0, some 0x69⟩ ∧
        ∃ found, tokenizer.classifyAny [0x69, 0x73, 0x2E, 0x69, 0x73] =
            .ok found ∧
          found.token = .keyword "is" ∧ found.length = 2 := by
  have runs : ∃ catalog tokenizer,
      Catalog.load [⟨.keyword, "is", [0x69, 0x73], none⟩] = .ok catalog ∧
        build catalog [⟨.keyword, some Boundary.word⟩] = .ok tokenizer ∧
        tokenizer.longestLiteral = 2 ∧
        tokenizer.classifyAny [0x69, 0x73] =
          .ok ⟨.keyword "is", 2, []⟩ ∧
        tokenizer.classifyAny [0x69, 0x73, 0x78] =
          .error ⟨0, some 0x69⟩ ∧
        tokenizer.classifyAny [0x69, 0x73, 0x2E] =
          .ok ⟨.keyword "is", 2, [0x2E]⟩ :=
    ⟨_, _, rfl, rfl, by decide +kernel, by decide +kernel,
      by decide +kernel, by decide +kernel⟩
  rcases runs with
    ⟨catalog, tokenizer, loaded, built, longest, ends, goesOn, stops⟩
  have long : tokenizer.longestLiteral + 1 ≤
      ([0x69, 0x73, 0x2E] : Bytes).length := by
    rw [longest]
    decide
  refine ⟨catalog, tokenizer, loaded, built, longest, ends, goesOn, ?_⟩
  rcases classifyAny_lookahead tokenizer long [] [0x69, 0x73] with
    ⟨alone, found, classified, further, sameToken, sameLength⟩ |
      ⟨error, _, failed, _⟩
  · cases stops.symm.trans classified
    exact ⟨found, further, sameToken.symm, sameLength.symm⟩
  · cases stops.symm.trans failed

end Tokenizer

end Lexicon
