import Lexicon.Proofs.CandidateOrder
import Lexicon.Proofs.CatalogLoading
import Lexicon.Tokenizer

/-!
# What is recognised

A tokenizer is compared with what its entries and rules say.  An entry is
admissible under a rule where its literal starts the input and the bytes
after the literal may follow.  The tokenizer recognises the longest
admissible entry of the first rule that has one, and it fails exactly where
no rule has one.

Literals are matched through indices into the table of a category.  The
statements here speak of entries alone, so later arguments need not know how
matching works.
-/

namespace Lexicon

/-! ## Admissible entries -/

/--
The bytes after a literal may follow it: the rule has no boundary, the input
ends there, or the next byte is allowed.
-/
def Rule.Admits (rule : Rule) (rest : Bytes) : Prop :=
  rule.boundary = none ∨ rest = [] ∨
    ∃ boundary byte, rule.boundary = some boundary ∧
      rest.head? = some byte ∧ boundary.allowed.contains byte = true

/-- Where bytes follow a literal, the first of them decides. -/
theorem Rule.admits_append_of_ne_nil {rule : Rule} {rest : Bytes}
    (remains : rest ≠ []) (suffix : Bytes) :
    rule.Admits (rest ++ suffix) ↔ rule.Admits rest := by
  cases rest with
  | nil => exact absurd rfl remains
  | cons byte rest => simp [Admits]

/-- The entry can be read at the start of an input under a rule. -/
structure Admissible (declared : List Entry) (rule : Rule) (input : Bytes)
    (entry : Entry) : Prop where
  mem_declared : entry ∈ declared
  category_eq : entry.category = rule.category
  starts : entry.literal <+: input
  follows : rule.Admits (input.drop entry.literal.length)

/--
An input that goes on has the same admissible entries if no literal reaches
into the further bytes and those do not matter for what may follow one.
-/
theorem admissible_append_iff {declared : List Entry} {rule : Rule}
    {input suffix : Bytes} {entry : Entry}
    (starts : entry ∈ declared → entry.category = rule.category →
      entry.literal <+: input ++ suffix → entry.literal <+: input)
    (follows : entry ∈ declared → entry.category = rule.category →
      (rule.Admits (input.drop entry.literal.length ++ suffix) ↔
        rule.Admits (input.drop entry.literal.length))) :
    Admissible declared rule (input ++ suffix) entry ↔
      Admissible declared rule input entry := by
  constructor
  · rintro ⟨member, sameCategory, reaches, admits⟩
    have within := starts member sameCategory reaches
    rw [List.drop_append_of_le_length within.length_le] at admits
    exact ⟨member, sameCategory, within,
      (follows member sameCategory).mp admits⟩
  · rintro ⟨member, sameCategory, within, admits⟩
    refine ⟨member, sameCategory,
      within.trans (List.prefix_append input suffix), ?_⟩
    rw [List.drop_append_of_le_length within.length_le]
    exact (follows member sameCategory).mpr admits

/-- Which entries are admissible depends on nothing but which entries there are. -/
theorem admissible_congr {left right : List Entry}
    (same : ∀ entry, entry ∈ left ↔ entry ∈ right) {rule : Rule}
    {input : Bytes} {entry : Entry} :
    Admissible left rule input entry ↔ Admissible right rule input entry := by
  constructor
  · rintro ⟨member, sameCategory, starts, follows⟩
    exact ⟨(same entry).mp member, sameCategory, starts, follows⟩
  · rintro ⟨member, sameCategory, starts, follows⟩
    exact ⟨(same entry).mpr member, sameCategory, starts, follows⟩

/-- No admissible entry of the rule has a longer literal. -/
structure LongestAdmissible (declared : List Entry) (rule : Rule)
    (input : Bytes) (entry : Entry) : Prop where
  admissible : Admissible declared rule input entry
  longest : ∀ other, Admissible declared rule input other →
    other.literal.length ≤ entry.literal.length

/-- The longest admissible entry of the first rule that has one. -/
def Chosen (declared : List Entry) (rules : List Rule) (input : Bytes)
    (entry : Entry) : Prop :=
  ∃ before rule after, rules = before ++ rule :: after ∧
    LongestAdmissible declared rule input entry ∧
      ∀ earlier ∈ before, ∀ other, ¬ Admissible declared earlier input other

theorem Chosen.starts {declared : List Entry} {rules : List Rule}
    {input : Bytes} {entry : Entry}
    (chosen : Chosen declared rules input entry) :
    entry.literal <+: input := by
  rcases chosen with ⟨_, _, _, _, longest, _⟩
  exact longest.admissible.starts

theorem Chosen.mem_declared {declared : List Entry} {rules : List Rule}
    {input : Bytes} {entry : Entry}
    (chosen : Chosen declared rules input entry) : entry ∈ declared := by
  rcases chosen with ⟨_, _, _, _, longest, _⟩
  exact longest.admissible.mem_declared

/-- The choice depends on nothing but which entries are admissible. -/
theorem Chosen.of_admissible_iff {leftDeclared rightDeclared : List Entry}
    {rules : List Rule} {leftInput rightInput : Bytes} {entry : Entry}
    (same : ∀ rule ∈ rules, ∀ entry,
      Admissible leftDeclared rule leftInput entry ↔
        Admissible rightDeclared rule rightInput entry)
    (chosen : Chosen leftDeclared rules leftInput entry) :
    Chosen rightDeclared rules rightInput entry := by
  rcases chosen with ⟨before, rule, after, rfl, longest, failed⟩
  have sameHere := same rule (by simp)
  refine ⟨before, rule, after, rfl, ⟨?_, ?_⟩, ?_⟩
  · exact (sameHere entry).mp longest.admissible
  · intro other admissible
    exact longest.longest other ((sameHere other).mpr admissible)
  · intro earlier listed other admissible
    have sameBefore := same earlier (List.mem_append_left _ listed)
    exact failed earlier listed other ((sameBefore other).mpr admissible)

theorem chosen_congr {left right : List Entry}
    (same : ∀ entry, entry ∈ left ↔ entry ∈ right) {rules : List Rule}
    {input : Bytes} {entry : Entry} :
    Chosen left rules input entry ↔ Chosen right rules input entry := by
  constructor
  · exact Chosen.of_admissible_iff fun _ _ _ => admissible_congr same
  · exact Chosen.of_admissible_iff fun _ _ _ => (admissible_congr same).symm

/-! ## Classifiers -/

namespace Catalog

theorem literals_ne_nil (catalog : Catalog) (category : Category) :
    ∀ literal ∈ (catalog.table category).map Entry.literal, literal ≠ [] := by
  intro literal member
  rcases List.mem_map.mp member with ⟨entry, place, rfl⟩
  exact (catalog.wellFormed entry (mem_table.mp place).1).literal_ne_nil

/-- The candidates of a classifier are the entries of its table that start the input. -/
theorem mem_candidates_classifier {catalog : Catalog} {rule : Rule}
    {input : Bytes} {candidate : Candidate} :
    candidate ∈ (catalog.classifier rule).matcher.candidates input ↔
      ∃ entry, (catalog.table rule.category)[candidate.index]? = some entry ∧
        candidate.length = entry.literal.length ∧
          entry.literal <+: input := by
  have members := @Matcher.mem_candidates_build _
    (catalog.literals_ne_nil rule.category) (catalog.distinct rule.category)
    input candidate
  apply members.trans
  constructor
  · rintro ⟨literal, place, sameLength, starts⟩
    rw [List.getElem?_map] at place
    rcases Option.map_eq_some_iff.mp place with ⟨entry, found, rfl⟩
    exact ⟨entry, found, sameLength, starts⟩
  · rintro ⟨entry, found, sameLength, starts⟩
    have place :
        ((catalog.table rule.category).map Entry.literal)[candidate.index]? =
          some entry.literal := by
      rw [List.getElem?_map, found, Option.map_some]
    exact ⟨entry.literal, place, sameLength, starts⟩

theorem literal_of_mem_candidates_classifier {catalog : Catalog}
    {rule : Rule} {input : Bytes} {candidate : Candidate} {entry : Entry}
    (member : candidate ∈ (catalog.classifier rule).matcher.candidates input)
    (place :
      (catalog.table rule.category)[candidate.index]? = some entry) :
    candidate.length = entry.literal.length ∧ entry.literal <+: input := by
  rcases mem_candidates_classifier.mp member with
    ⟨found, foundPlace, sameLength, starts⟩
  have same : found = entry :=
    Option.some.inj (foundPlace.symm.trans place)
  rw [← same]
  exact ⟨sameLength, starts⟩

theorem admits_classifier_iff {catalog : Catalog} {rule : Rule}
    {input : Bytes} {candidate : Candidate} :
    (catalog.classifier rule).admits input candidate = true ↔
      rule.Admits (input.drop candidate.length) := by
  have sameBoundary :
      (catalog.classifier rule).boundary = rule.boundary := rfl
  rw [Classifier.admits, sameBoundary, Rule.Admits]
  cases rule.boundary with
  | none => simp
  | some boundary =>
      cases input.drop candidate.length with
      | nil => simp
      | cons byte rest => simp

/-- A candidate that may be followed by the rest stands for an admissible entry. -/
theorem admissible_iff_candidate {catalog : Catalog} {rule : Rule}
    {input : Bytes} {entry : Entry} :
    Admissible catalog.entries rule input entry ↔
      ∃ candidate ∈ (catalog.classifier rule).matcher.candidates input,
        (catalog.table rule.category)[candidate.index]? = some entry ∧
          candidate.length = entry.literal.length ∧
            (catalog.classifier rule).admits input candidate = true := by
  constructor
  · intro admissible
    have member : entry ∈ catalog.table rule.category :=
      mem_table.mpr ⟨admissible.mem_declared, admissible.category_eq⟩
    rcases List.mem_iff_getElem?.mp member with ⟨index, place⟩
    exact ⟨⟨index, entry.literal.length⟩,
      mem_candidates_classifier.mpr ⟨entry, place, rfl, admissible.starts⟩,
      place, rfl, admits_classifier_iff.mpr admissible.follows⟩
  · rintro ⟨candidate, member, place, sameLength, admits⟩
    rcases literal_of_mem_candidates_classifier member place with
      ⟨_, starts⟩
    rcases mem_table.mp (List.mem_of_getElem? place) with
      ⟨declared, sameCategory⟩
    have follows := admits_classifier_iff.mp admits
    rw [sameLength] at follows
    exact ⟨declared, sameCategory, starts, follows⟩

theorem select?_classifier_eq_some_iff {catalog : Catalog} {rule : Rule}
    {input : Bytes} {candidate : Candidate} :
    (catalog.classifier rule).select? input = some candidate ↔
      (candidate ∈ (catalog.classifier rule).matcher.candidates input ∧
          (catalog.classifier rule).admits input candidate = true) ∧
        ∀ other ∈ (catalog.classifier rule).matcher.candidates input,
          (catalog.classifier rule).admits input other = true →
            other.length ≤ candidate.length :=
  Candidate.find?_eq_some_iff_of_descending
    (Matcher.candidates_build_descending
      (catalog.literals_ne_nil rule.category)
      (catalog.distinct rule.category) input)

theorem recognize?_classifier (catalog : Catalog) (rule : Rule)
    (input : Bytes) :
    (catalog.classifier rule).recognize? input =
      ((catalog.classifier rule).select? input).bind fun candidate =>
        (catalog.table rule.category)[candidate.index]?.map fun entry =>
          (entry, candidate.length) := by
  rw [Classifier.recognize?]
  simp [classifier, Classifier.build]

/-- A classifier recognises the longest admissible entry of its rule. -/
theorem recognize?_classifier_eq_some_iff {catalog : Catalog} {rule : Rule}
    {input : Bytes} {entry : Entry} {length : Nat} :
    (catalog.classifier rule).recognize? input = some (entry, length) ↔
      LongestAdmissible catalog.entries rule input entry ∧
        length = entry.literal.length := by
  rw [recognize?_classifier, Option.bind_eq_some_iff]
  constructor
  · rintro ⟨candidate, selected, recognized⟩
    rcases Option.map_eq_some_iff.mp recognized with ⟨found, place, equal⟩
    cases equal
    rcases select?_classifier_eq_some_iff.mp selected with
      ⟨⟨member, admits⟩, greatest⟩
    rcases literal_of_mem_candidates_classifier member place with
      ⟨sameLength, _⟩
    constructor
    · constructor
      · exact admissible_iff_candidate.mpr
          ⟨candidate, member, place, sameLength, admits⟩
      · intro rival admissible
        rcases admissible_iff_candidate.mp admissible with
          ⟨rivalCandidate, rivalMember, _, rivalLength, rivalAdmits⟩
        rw [← rivalLength, ← sameLength]
        exact greatest rivalCandidate rivalMember rivalAdmits
    · exact sameLength
  · rintro ⟨longest, rfl⟩
    rcases admissible_iff_candidate.mp longest.admissible with
      ⟨candidate, member, place, sameLength, admits⟩
    have selected : (catalog.classifier rule).select? input =
        some candidate := by
      apply select?_classifier_eq_some_iff.mpr
      constructor
      · exact ⟨member, admits⟩
      · intro rival rivalMember rivalAdmits
        rcases mem_candidates_classifier.mp rivalMember with
          ⟨rivalEntry, rivalPlace, rivalLength, _⟩
        rw [rivalLength, sameLength]
        apply longest.longest
        exact admissible_iff_candidate.mpr
          ⟨rival, rivalMember, rivalPlace, rivalLength, rivalAdmits⟩
    exact ⟨candidate, selected, by rw [place, Option.map_some, sameLength]⟩

/-- A classifier fails exactly where its rule has no admissible entry. -/
theorem recognize?_classifier_eq_none_iff {catalog : Catalog} {rule : Rule}
    {input : Bytes} :
    (catalog.classifier rule).recognize? input = none ↔
      ∀ entry, ¬ Admissible catalog.entries rule input entry := by
  constructor
  · intro failed entry admissible
    rcases admissible_iff_candidate.mp admissible with
      ⟨candidate, member, _, _, admits⟩
    cases selected : (catalog.classifier rule).select? input with
    | none =>
        exact List.find?_eq_none.mp selected candidate member admits
    | some chosen =>
        rcases select?_classifier_eq_some_iff.mp selected with
          ⟨⟨chosenMember, _⟩, _⟩
        rcases mem_candidates_classifier.mp chosenMember with
          ⟨found, place, _⟩
        rw [recognize?_classifier, selected, Option.bind_some, place] at failed
        cases failed
  · intro none
    cases recognized : (catalog.classifier rule).recognize? input with
    | none => rfl
    | some result =>
        rcases recognize?_classifier_eq_some_iff.mp recognized with
          ⟨longest, _⟩
        exact absurd longest.admissible (none result.1)

end Catalog

/-! ## Tokenizers -/

namespace Tokenizer

theorem parts_of_build {catalog : Catalog} {rules : List Rule}
    {tokenizer : Tokenizer} (built : build catalog rules = .ok tokenizer) :
    tokenizer.catalog = catalog ∧ tokenizer.rules = rules := by
  unfold build at built
  split at built
  case h_1 => cases built
  case h_2 =>
    cases built
    exact ⟨rfl, rfl⟩

theorem recognizeEntry?_eq_findSome? (tokenizer : Tokenizer)
    (input : Bytes) :
    tokenizer.recognizeEntry? input =
      tokenizer.rules.findSome? fun rule =>
        (tokenizer.catalog.classifier rule).recognize? input := by
  unfold recognizeEntry?
  rw [tokenizer.classifiers_eq, List.findSome?_map]
  rfl

/-- A tokenizer recognises the longest admissible entry of the first rule with one. -/
theorem recognizeEntry?_eq_some_iff {tokenizer : Tokenizer}
    {input : Bytes} {entry : Entry} {length : Nat} :
    tokenizer.recognizeEntry? input = some (entry, length) ↔
      Chosen tokenizer.catalog.entries tokenizer.rules input entry ∧
        length = entry.literal.length := by
  rw [recognizeEntry?_eq_findSome?, List.findSome?_eq_some_iff]
  simp only [Catalog.recognize?_classifier_eq_some_iff,
    Catalog.recognize?_classifier_eq_none_iff]
  constructor
  · rintro ⟨before, rule, after, split, ⟨longest, sameLength⟩, failed⟩
    exact ⟨⟨before, rule, after, split, longest, failed⟩, sameLength⟩
  · rintro ⟨⟨before, rule, after, split, longest, failed⟩, sameLength⟩
    exact ⟨before, rule, after, split, ⟨longest, sameLength⟩, failed⟩

/-- A tokenizer fails exactly where no rule has an admissible entry. -/
theorem recognizeEntry?_eq_none_iff {tokenizer : Tokenizer}
    {input : Bytes} :
    tokenizer.recognizeEntry? input = none ↔
      ∀ rule ∈ tokenizer.rules, ∀ entry,
        ¬ Admissible tokenizer.catalog.entries rule input entry := by
  rw [recognizeEntry?_eq_findSome?, List.findSome?_eq_none_iff]
  simp only [Catalog.recognize?_classifier_eq_none_iff]

theorem chosen_unique {tokenizer : Tokenizer} {input : Bytes}
    {left right : Entry}
    (leftChosen :
      Chosen tokenizer.catalog.entries tokenizer.rules input left)
    (rightChosen :
      Chosen tokenizer.catalog.entries tokenizer.rules input right) :
    left = right := by
  have leftFound := recognizeEntry?_eq_some_iff.mpr ⟨leftChosen, rfl⟩
  have rightFound := recognizeEntry?_eq_some_iff.mpr ⟨rightChosen, rfl⟩
  rw [leftFound] at rightFound
  cases rightFound
  rfl

/-- What a recognised token is, how long it is and what follows it. -/
theorem classify_eq_ok_iff {tokenizer : Tokenizer} {offset : Nat}
    {input : Bytes} {recognition : Recognition} :
    tokenizer.classify offset input = .ok recognition ↔
      ∃ entry,
        Chosen tokenizer.catalog.entries tokenizer.rules input entry ∧
          recognition.token = Token.ofEntry entry ∧
          recognition.length = entry.literal.length ∧
          input = entry.literal ++ recognition.rest := by
  constructor
  · intro classified
    have recognized := recognize?_of_classify classified
    rcases Option.map_eq_some_iff.mp recognized with
      ⟨⟨entry, length⟩, found, rfl⟩
    rcases recognizeEntry?_eq_some_iff.mp found with ⟨chosen, rfl⟩
    refine ⟨entry, chosen, rfl, rfl, ?_⟩
    have whole := List.take_append_drop entry.literal.length input
    rw [← List.prefix_iff_eq_take.mp chosen.starts] at whole
    exact whole.symm
  · rintro ⟨entry, chosen, sameToken, sameLength, whole⟩
    have found := recognizeEntry?_eq_some_iff.mpr ⟨chosen, rfl⟩
    have sameRest : input.drop entry.literal.length = recognition.rest := by
      rw [whole, List.drop_left]
    rw [classify, recognize?, found]
    cases recognition
    cases sameToken
    cases sameLength
    cases sameRest
    rfl

/-- A token stands for the entry that is written by the bytes it takes. -/
theorem exists_chosen_of_classifyAt {tokenizer : Tokenizer} {source : Bytes}
    {offset : Nat} {recognition : Recognition}
    (classified : tokenizer.classifyAt source offset = .ok recognition) :
    ∃ entry, Chosen tokenizer.catalog.entries tokenizer.rules
        (source.drop offset) entry ∧
      recognition.token = Token.ofEntry entry ∧
      (source.drop offset).take recognition.length = entry.literal := by
  rcases classify_eq_ok_iff.mp classified with
    ⟨entry, chosen, sameToken, sameLength, whole⟩
  refine ⟨entry, chosen, sameToken, ?_⟩
  rw [whole, sameLength, List.take_left]

/-- An input may go on if that makes no other entries admissible. -/
theorem classify_append_of_eq_ok {tokenizer : Tokenizer}
    {input suffix : Bytes}
    (same : ∀ rule ∈ tokenizer.rules, ∀ entry,
      Admissible tokenizer.catalog.entries rule (input ++ suffix) entry ↔
        Admissible tokenizer.catalog.entries rule input entry)
    {offset : Nat} {recognition : Recognition}
    (classified : tokenizer.classify offset input = .ok recognition) :
    tokenizer.classify offset (input ++ suffix) =
      .ok ⟨recognition.token, recognition.length,
        recognition.rest ++ suffix⟩ := by
  rcases classify_eq_ok_iff.mp classified with
    ⟨entry, chosen, sameToken, sameLength, whole⟩
  apply classify_eq_ok_iff.mpr
  refine ⟨entry, ?_, sameToken, sameLength, ?_⟩
  · apply chosen.of_admissible_iff
    intro rule listed entry
    exact (same rule listed entry).symm
  · rw [whole, List.append_assoc]

theorem length_pos_of_classify {tokenizer : Tokenizer} {offset : Nat}
    {input : Bytes} {recognition : Recognition}
    (classified : tokenizer.classify offset input = .ok recognition) :
    0 < recognition.length :=
  length_pos_of_recognize? (recognize?_of_classify classified)

theorem length_le_of_classify {tokenizer : Tokenizer} {offset : Nat}
    {input : Bytes} {recognition : Recognition}
    (classified : tokenizer.classify offset input = .ok recognition) :
    recognition.length ≤ input.length := by
  rcases classify_eq_ok_iff.mp classified with
    ⟨entry, chosen, _, sameLength, _⟩
  rw [sameLength]
  exact chosen.starts.length_le

theorem classify_eq_error_iff {tokenizer : Tokenizer} {offset : Nat}
    {input : Bytes} {error : Unrecognized} :
    tokenizer.classify offset input = .error error ↔
      (∀ rule ∈ tokenizer.rules, ∀ entry,
          ¬ Admissible tokenizer.catalog.entries rule input entry) ∧
        error = ⟨offset, input.head?⟩ := by
  rw [← recognizeEntry?_eq_none_iff, classify, recognize?]
  cases tokenizer.recognizeEntry? input with
  | none =>
      constructor
      · intro failed
        cases failed
        exact ⟨rfl, rfl⟩
      · rintro ⟨_, rfl⟩
        rfl
  | some found =>
      constructor
      · intro failed
        cases failed
      · rintro ⟨nothing, _⟩
        cases nothing

theorem classify_append_of_eq_error {tokenizer : Tokenizer}
    {input suffix : Bytes}
    (same : ∀ rule ∈ tokenizer.rules, ∀ entry,
      Admissible tokenizer.catalog.entries rule (input ++ suffix) entry ↔
        Admissible tokenizer.catalog.entries rule input entry)
    (remains : input ≠ []) {offset : Nat} {error : Unrecognized}
    (classified : tokenizer.classify offset input = .error error) :
    tokenizer.classify offset (input ++ suffix) = .error error := by
  rcases classify_eq_error_iff.mp classified with ⟨failed, sameError⟩
  apply classify_eq_error_iff.mpr
  constructor
  · intro rule listed entry admissible
    exact failed rule listed entry ((same rule listed entry).mp admissible)
  · rw [sameError, List.head?_append_of_ne_nil input remains]

/--
Classification at an offset, from the entries and the rules that a tokenizer
is built of.  It succeeds exactly where some rule has an admissible entry.
The token is then that of the longest admissible entry of the first rule that
has one, which is the only such entry; it takes the bytes of the literal and
leaves the others.  Where it fails, the error carries the offset and the byte
that stands there.
-/
theorem classifyAt_spec {entries : List Entry} {rules : List Rule}
    {catalog : Catalog} {tokenizer : Tokenizer}
    (loaded : Catalog.load entries = .ok catalog)
    (built : build catalog rules = .ok tokenizer)
    (source : Bytes) (offset : Nat) :
    ((∃ recognition, tokenizer.classifyAt source offset = .ok recognition) ↔
        ∃ rule ∈ rules, ∃ entry,
          Admissible entries rule (source.drop offset) entry) ∧
      (∀ recognition,
        tokenizer.classifyAt source offset = .ok recognition ↔
          ∃ entry, Chosen entries rules (source.drop offset) entry ∧
            recognition.token = Token.ofEntry entry ∧
            recognition.length = entry.literal.length ∧
            source.drop offset = entry.literal ++ recognition.rest) ∧
      (∀ left right, Chosen entries rules (source.drop offset) left →
        Chosen entries rules (source.drop offset) right → left = right) ∧
      ∀ error, tokenizer.classifyAt source offset = .error error ↔
        (∀ rule ∈ rules, ∀ entry,
            ¬ Admissible entries rule (source.drop offset) entry) ∧
          error.offset = offset ∧ error.found = source[offset]? := by
  rcases parts_of_build built with ⟨rfl, rfl⟩
  have members := fun entry =>
    (Catalog.mem_entries_of_load loaded entry).symm
  simp only [admissible_congr members, chosen_congr members]
  have errors : ∀ error,
      tokenizer.classifyAt source offset = .error error ↔
        (∀ rule ∈ tokenizer.rules, ∀ entry,
            ¬ Admissible tokenizer.catalog.entries rule
              (source.drop offset) entry) ∧
          error.offset = offset ∧ error.found = source[offset]? := by
    intro error
    apply classify_eq_error_iff.trans
    apply and_congr_right
    intro _
    rw [List.head?_drop]
    cases error
    simp
  refine ⟨?_, fun _ => classify_eq_ok_iff, fun _ _ => chosen_unique, errors⟩
  cases outcome : tokenizer.classifyAt source offset with
  | ok recognition =>
      rcases classify_eq_ok_iff.mp outcome with ⟨entry, chosen, _⟩
      rcases chosen with ⟨before, rule, after, split, longest, _⟩
      have listed : rule ∈ tokenizer.rules := by simp [split]
      exact iff_of_true ⟨recognition, rfl⟩
        ⟨rule, listed, entry, longest.admissible⟩
  | error error =>
      rcases (errors error).mp outcome with ⟨nothing, _⟩
      apply iff_of_false
      · rintro ⟨recognition, impossible⟩
        cases impossible
      · rintro ⟨rule, listed, entry, admissible⟩
        exact nothing rule listed entry admissible

/--
The word `is` starts `iszero` but the boundary refuses it, so that the opcode
of the next rule is recognised.
-/
theorem classifyAt_spec_iszero :
    ∃ catalog tokenizer,
      Catalog.load
          [⟨.keyword, "is", [0x69, 0x73], none⟩,
            ⟨.opcode, "iszero", [0x69, 0x73, 0x7A, 0x65, 0x72, 0x6F],
              some 0x15⟩] = .ok catalog ∧
        build catalog [⟨.keyword, some Boundary.word⟩, ⟨.opcode, none⟩] =
          .ok tokenizer ∧
        tokenizer.classifyAt
            [0x20, 0x69, 0x73, 0x7A, 0x65, 0x72, 0x6F, 0x2B] 1 =
          .ok ⟨.opcode "iszero" 0x15, 6, [0x2B]⟩ := by
  have loads : ∃ catalog, Catalog.load
      [⟨.keyword, "is", [0x69, 0x73], none⟩,
        ⟨.opcode, "iszero", [0x69, 0x73, 0x7A, 0x65, 0x72, 0x6F],
          some 0x15⟩] = .ok catalog := ⟨_, rfl⟩
  rcases loads with ⟨catalog, loaded⟩
  have builds : ∃ tokenizer, build catalog
      [⟨.keyword, some Boundary.word⟩, ⟨.opcode, none⟩] = .ok tokenizer :=
    ⟨_, rfl⟩
  rcases builds with ⟨tokenizer, built⟩
  refine ⟨catalog, tokenizer, loaded, built, ?_⟩
  apply ((classifyAt_spec loaded built _ 1).2.1 _).mpr
  refine ⟨⟨.opcode, "iszero", [0x69, 0x73, 0x7A, 0x65, 0x72, 0x6F],
    some 0x15⟩, ?_, rfl, rfl, rfl⟩
  refine ⟨[⟨.keyword, some Boundary.word⟩], ⟨.opcode, none⟩, [], rfl,
    ⟨⟨by simp, rfl, by decide, Or.inl rfl⟩, ?_⟩, ?_⟩
  · rintro other ⟨declared, _, _, _⟩
    rcases List.mem_pair.mp declared with rfl | rfl
    · decide
    · decide
  · rintro earlier listed other ⟨declared, sameCategory, _, follows⟩
    cases List.mem_singleton.mp listed
    rcases List.mem_pair.mp declared with rfl | rfl
    · have refused : Byte.isWord 0x7A = true := by decide
      simp [Rule.Admits, Boundary.word, refused] at follows
    · cases sameCategory

end Tokenizer

end Lexicon
