import Lexicon.Proofs.BoundaryUnion
import Lexicon.Proofs.CandidateListing
import Lexicon.Proofs.TableLoading
import Lexicon.Proofs.WordRuns

/-!
# When the longest match decides

A classifier whose boundary refuses a candidate goes on to a shorter one.  In
general this matters: a literal may end where a longer one has a byte that
the boundary allows.  It never matters if no literal holds such a byte.  What
follows a shorter candidate is then a byte of the longest literal, so the
boundary refuses the shorter candidate as well, and looking at the longest
match alone gives the same answer.

Nothing else is asked of the literals.  They may be empty or repeated, and
they may be held as a trie or tried one by one.  Words are of this kind with
the word boundary, and so are all the words of the standard tables.
-/

namespace Lexicon

/-! ## Literals apart from the boundary -/

namespace Boundary

/-- No byte of the literal may follow a literal. -/
def Avoids (boundary : Boundary) (literal : Bytes) : Prop :=
  ∀ byte ∈ literal, boundary.allowed.contains byte = false

/-- An input is not broken within a literal that starts it. -/
theorem Avoids.accepts_drop {boundary : Boundary} {literal input : Bytes}
    (avoids : boundary.Avoids literal) (starts : literal <+: input)
    {length : Nat} (shorter : length < literal.length) :
    boundary.accepts (input.drop length) = false := by
  rcases exists_mem_head?_drop starts shorter with ⟨byte, member, next⟩
  rcases List.head?_eq_some_iff.mp next with ⟨rest, split⟩
  rw [split, accepts_cons]
  exact avoids byte member

theorem avoids_word {literal : Bytes}
    (isWord : ∀ byte ∈ literal, Byte.isWord byte = true) :
    Boundary.word.Avoids literal := by
  intro byte member
  simp [Boundary.word, isWord byte member]

end Boundary

/-! ## One check instead of a search -/

/-- If a test that fails at the head fails everywhere, a search looks at the head only. -/
theorem find?_eq_filter_head? {α : Type} {list : List α} {holds : α → Bool}
    (settled : ∀ first, list.head? = some first → holds first = false →
      ∀ other ∈ list, holds other = false) :
    list.find? holds = list.head?.filter holds := by
  cases list with
  | nil => rfl
  | cons first rest =>
      cases outcome : holds first with
      | true =>
          rw [List.find?_cons_of_pos outcome, List.head?_cons,
            Option.filter_some_pos outcome]
      | false =>
          have nothing : (first :: rest).find? holds = none := by
            apply List.find?_eq_none.mpr
            intro other member
            rw [settled first rfl outcome other member]
            exact Bool.false_ne_true
          rw [nothing, List.head?_cons,
            Option.filter_some_neg (by simp [outcome])]

namespace Classifier

/-- What is selected from an input depends on a check of the longest match alone. -/
structure DecidedByLongest (classifier : Classifier) (boundary : Boundary)
    (input : Bytes) : Prop where
  selects_iff : ∀ candidate, classifier.select? input = some candidate ↔
    classifier.matcher.longest? input = some candidate ∧
      boundary.accepts (input.drop candidate.length) = true
  /-- Nothing shorter is selected after a candidate that was refused. -/
  no_fallback : ∀ refused ∈ classifier.matcher.candidates input,
    boundary.accepts (input.drop refused.length) = false →
      ∀ candidate, classifier.select? input = some candidate →
        ¬ candidate.length < refused.length

section Entries

variable {boundary : Boundary} {entries : List Entry}
  (avoids : ∀ entry ∈ entries, boundary.Avoids entry.literal)
  (category : Category) (input : Bytes)

include avoids

/-- A candidate is refused if there is a longer one. -/
theorem admits_eq_false_of_lt {longer : Candidate}
    (member : longer ∈
      (build category entries (some boundary)).matcher.candidates input)
    {candidate : Candidate} (shorter : candidate.length < longer.length) :
    (build category entries (some boundary)).admits input candidate =
      false := by
  rcases Matcher.exists_literal_of_mem_candidates_build member with
    ⟨literal, listed, sameLength, starts⟩
  rcases List.mem_map.mp listed with ⟨entry, declared, rfl⟩
  apply (avoids entry declared).accepts_drop starts
  rw [sameLength]
  exact shorter

/-- The longest match is selected if the boundary accepts it, and nothing otherwise. -/
theorem select?_eq_filter_longest? :
    (build category entries (some boundary)).select? input =
      ((build category entries (some boundary)).matcher.longest?
        input).filter
          ((build category entries (some boundary)).admits input) := by
  apply find?_eq_filter_head?
  intro longest leads refused other member
  have ordered := Matcher.candidates_build_ordered
    (entries.map Entry.literal) input
  have longestListed := List.mem_of_head? leads
  rcases (Candidate.head?_eq_some_iff_of_ordered ordered).mp leads |>.2
      other member with rfl | precedes
  · exact refused
  · rcases precedes.length_le.lt_or_eq with shorter | sameLength
    · exact admits_eq_false_of_lt avoids category input longestListed shorter
    · rw [admits_byLength _ input other longest sameLength]
      exact refused

theorem decidedByLongest :
    (build category entries (some boundary)).DecidedByLongest boundary
      input where
  selects_iff := by
    intro candidate
    rw [select?_eq_filter_longest? avoids category input,
      Option.filter_eq_some_iff]
    exact Iff.rfl
  no_fallback := by
    intro refused member _ candidate selected shorter
    have accepted := List.find?_some selected
    rw [admits_eq_false_of_lt avoids category input member shorter]
      at accepted
    cases accepted

end Entries

/--
Trying shorter candidates never helps where no literal holds a byte of the
boundary.  For any such entries and any input, a candidate is selected
exactly if it is the longest match and the boundary accepts what follows it,
and a candidate that is refused is never followed by a shorter one that is
selected.  In particular this holds of literals that are made of word bytes
with the word boundary, and so of every standard table of whole words.
-/
theorem select?_decidedByLongest :
    (∀ (allowed : ByteSet) (category : Category) (entries : List Entry),
      (∀ entry ∈ entries, ∀ byte ∈ entry.literal,
        allowed.contains byte = false) →
      ∀ input, (build category entries (some ⟨allowed⟩)).DecidedByLongest
        ⟨allowed⟩ input) ∧
    (∀ (category : Category) (entries : List Entry),
      (∀ entry ∈ entries, ∀ byte ∈ entry.literal,
        Byte.isWord byte = true) →
      ∀ input, (build category entries
        (some Boundary.word)).DecidedByLongest Boundary.word input) ∧
    ∀ table ∈ Standard.tables, table.adjacency = .wholeWord →
      ∃ entries, table.entries = .ok entries ∧
        ∀ input, (build table.category entries
          (some Boundary.word)).DecidedByLongest Boundary.word input := by
  have words : ∀ (category : Category) (entries : List Entry),
      (∀ entry ∈ entries, ∀ byte ∈ entry.literal,
        Byte.isWord byte = true) →
      ∀ input, (build category entries
        (some Boundary.word)).DecidedByLongest Boundary.word input := by
    intro category entries isWord input
    apply decidedByLongest
    intro entry declared
    exact Boundary.avoids_word (isWord entry declared)
  refine ⟨?_, words, ?_⟩
  · intro allowed category entries avoids input
    exact decidedByLongest avoids category input
  · intro table listed whole
    rcases Standard.sound table listed with ⟨entries, parsed, _⟩
    refine ⟨entries, parsed, words table.category entries ?_⟩
    intro entry declared
    exact (Standard.keepsWordsApart table listed).words whole entry
      ⟨entries, parsed, declared⟩

/--
If only a semicolon may follow, the longest match `ab` is refused before
`abc`, and neither of the two `a` nor the empty literal is selected in its
place.  Before `a;` the first `a` is selected.
-/
theorem select?_decidedByLongest_letters :
    ∃ (semicolon : Boundary) (entries : List Entry),
      semicolon = ⟨ByteSet.ofBytes [0x3B]⟩ ∧
      entries = [⟨.keyword, "nothing", [], none⟩,
        ⟨.keyword, "a", [0x61], none⟩, ⟨.keyword, "ab", [0x61, 0x62], none⟩,
        ⟨.keyword, "again", [0x61], none⟩] ∧
      (build .keyword entries (some semicolon)).matcher.longest?
        [0x61, 0x62, 0x63] = some ⟨2, 2⟩ ∧
      (build .keyword entries (some semicolon)).select?
        [0x61, 0x62, 0x63] = none ∧
      (build .keyword entries (some semicolon)).select?
        [0x61, 0x3B] = some ⟨1, 1⟩ ∧
      ∃ words, Standard.keywords.entries = .ok words ∧
        (build .keyword words (some Boundary.word)).DecidedByLongest
          Boundary.word [0x69, 0x66] := by
  have refused : (Matcher.build [[], [0x61], [0x61, 0x62], [0x61]]).longest?
      [0x61, 0x62, 0x63] = some ⟨2, 2⟩ := by
    simp [Matcher.longest?, Matcher.build, Matcher.trieThreshold,
      Ranked.candidates, Ranked.ofLiterals, List.mergeSort, Ranked.precedes]
  have accepted : (Matcher.build [[], [0x61], [0x61, 0x62], [0x61]]).longest?
      [0x61, 0x3B] = some ⟨1, 1⟩ := by
    simp [Matcher.longest?, Matcher.build, Matcher.trieThreshold,
      Ranked.candidates, Ranked.ofLiterals, List.mergeSort, Ranked.precedes]
  rcases select?_decidedByLongest with ⟨general, _, standard⟩
  have decided := general (ByteSet.ofBytes [0x3B]) .keyword
    [⟨.keyword, "nothing", [], none⟩, ⟨.keyword, "a", [0x61], none⟩,
      ⟨.keyword, "ab", [0x61, 0x62], none⟩,
      ⟨.keyword, "again", [0x61], none⟩] (by simp)
  refine ⟨_, _, rfl, rfl, refused, ?_, ?_, ?_⟩
  · apply Option.eq_none_iff_forall_ne_some.mpr
    intro candidate selected
    rcases ((decided _).selects_iff candidate).mp selected with
      ⟨longest, follows⟩
    cases refused.symm.trans longest
    simp at follows
  · exact ((decided _).selects_iff _).mpr ⟨accepted, by simp⟩
  · rcases standard Standard.keywords List.mem_cons_self rfl with
      ⟨words, parsed, decides⟩
    exact ⟨words, parsed, decides _⟩

end Classifier

end Lexicon
