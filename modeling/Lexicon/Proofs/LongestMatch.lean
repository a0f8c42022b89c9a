import Lexicon.Proofs.TableLoading
import Lexicon.Proofs.WordRuns

/-!
# The longest match wins

The rules of a tokenizer are tried in order, and the first one with an
admissible entry is taken.  For rules in general this is not the longest
match: an earlier rule may have a short literal where a later one has a long
literal that is never reached.

It is the longest match if no later rule can have the longer literal.  With
tables that keep words apart there are two kinds of literals, which never
start at the same place.  Words that may end are as long as the run of word
bytes, so they are equally long.  Literals that anything may follow are
compared by what the tables declare: those of a later table must not go on
where one of an earlier table ends.  The delimiters of the standard tables
are single bytes, so they do not.
-/

namespace Lexicon

/-! ## Choice by length -/

/--
The longest admissible entry of all rules.  Where several rules have one that
is as long, it is that of the first of them.
-/
def LongestOverall (declared : List Entry) (rules : List Rule)
    (input : Bytes) (entry : Entry) : Prop :=
  ∃ before rule after, rules = before ++ rule :: after ∧
    Admissible declared rule input entry ∧
    (∀ rival ∈ rules, ∀ other, Admissible declared rival input other →
      other.literal.length ≤ entry.literal.length) ∧
    ∀ earlier ∈ before, ∀ other, Admissible declared earlier input other →
      other.literal.length < entry.literal.length

/-- No rule has an admissible entry that is longer than one of a rule before it. -/
def LaterNotLonger (declared : List Entry) (rules : List Rule)
    (input : Bytes) : Prop :=
  rules.Pairwise fun earlier later => ∀ first second,
    Admissible declared earlier input first →
      Admissible declared later input second →
        second.literal.length ≤ first.literal.length

/-- Where no later rule has a longer entry, priority chooses the longest entry. -/
theorem chosen_iff_longestOverall {declared : List Entry}
    {rules : List Rule} {input : Bytes}
    (ordered : LaterNotLonger declared rules input) {entry : Entry} :
    Chosen declared rules input entry ↔
      LongestOverall declared rules input entry := by
  constructor
  · rintro ⟨before, rule, after, rfl, longest, failed⟩
    rcases List.pairwise_append.mp ordered with ⟨_, rest, _⟩
    rcases List.pairwise_cons.mp rest with ⟨behind, _⟩
    refine ⟨before, rule, after, rfl, longest.admissible, ?_, ?_⟩
    · intro rival listed other admissible
      rcases List.mem_append.mp listed with early | late
      · exact absurd admissible (failed rival early other)
      · rcases List.mem_cons.mp late with rfl | later
        · exact longest.longest other admissible
        · exact behind rival later entry other longest.admissible admissible
    · intro earlier listed other admissible
      exact absurd admissible (failed earlier listed other)
  · rintro ⟨before, rule, after, rfl, admissible, longest, shorter⟩
    rcases List.pairwise_append.mp ordered with ⟨_, _, across⟩
    refine ⟨before, rule, after, rfl, ⟨admissible, ?_⟩, ?_⟩
    · intro other otherAdmissible
      exact longest rule (by simp) other otherAdmissible
    · intro earlier listed other otherAdmissible
      have notLonger := across earlier listed rule List.mem_cons_self
        other entry otherAdmissible admissible
      exact absurd (shorter earlier listed other otherAdmissible)
        (Nat.not_lt.mpr notLonger)

/-! ## Literals at the same place -/

theorem mem_of_prefix_cons {literal rest : Bytes} {byte : UInt8}
    (nonempty : literal ≠ []) (starts : literal <+: byte :: rest) :
    byte ∈ literal := by
  rcases List.prefix_cons_iff.mp starts with empty | ⟨tail, split, _⟩
  · exact absurd empty nonempty
  · rw [split]
    exact List.mem_cons_self

/-- A word ends no later than a literal that no word byte follows. -/
theorem length_le_of_isWord {literal word input : Bytes}
    (starts : word <+: input)
    (isWord : ∀ byte ∈ word, Byte.isWord byte = true)
    (stops : ∀ byte, (input.drop literal.length).head? = some byte →
      Byte.isWord byte = false) :
    word.length ≤ literal.length := by
  by_contra longer
  rcases exists_mem_head?_drop starts (Nat.lt_of_not_le longer) with
    ⟨byte, member, next⟩
  have notWord := stops byte next
  rw [isWord byte member] at notWord
  cases notWord

namespace Table

theorem KeepsWordsApart.isWord_eq {table : Table}
    (apart : table.KeepsWordsApart) {entry : Entry}
    (declares : table.Declares entry) {byte : UInt8}
    (member : byte ∈ entry.literal) :
    Byte.isWord byte = decide (table.adjacency = .wholeWord) := by
  cases adjacent : table.adjacency with
  | free => exact apart.others adjacent entry declares byte member
  | wholeWord => exact apart.words adjacent entry declares byte member

/-- Of two tables with literals at the same place, both have words or neither. -/
theorem KeepsWordsApart.adjacency_eq {left right : Table}
    (leftApart : left.KeepsWordsApart) (rightApart : right.KeepsWordsApart)
    {first second : Entry} (leftDeclares : left.Declares first)
    (rightDeclares : right.Declares second) {input : Bytes}
    (firstStarts : first.literal <+: input)
    (secondStarts : second.literal <+: input) :
    left.adjacency = right.adjacency := by
  cases input with
  | nil =>
      exact absurd (List.prefix_nil.mp firstStarts)
        leftDeclares.isField.literal_ne_nil
  | cons byte rest =>
      have firstHolds : byte ∈ first.literal :=
        mem_of_prefix_cons leftDeclares.isField.literal_ne_nil firstStarts
      have secondHolds : byte ∈ second.literal :=
        mem_of_prefix_cons rightDeclares.isField.literal_ne_nil
          secondStarts
      have same : left.adjacency = .wholeWord ↔
          right.adjacency = .wholeWord := by
        rw [← decide_eq_decide,
          ← leftApart.isWord_eq leftDeclares firstHolds,
          ← rightApart.isWord_eq rightDeclares secondHolds]
      cases here : left.adjacency with
      | wholeWord => exact (same.mp here).symm
      | free =>
          cases there : right.adjacency with
          | free => rfl
          | wholeWord =>
              rw [same.mpr there] at here
              cases here

end Table

/--
Where anything may follow the literals of two tables, no literal of the later
table goes on where one of the earlier table ends.
-/
def FreeInOrder (tables : List Table) : Prop :=
  tables.Pairwise fun earlier later =>
    earlier.adjacency = .free → later.adjacency = .free →
      ∀ first second, earlier.Declares first → later.Declares second →
        first.literal <+: second.literal → second.literal = first.literal

section Tables

variable {tables : List Table} {tokenizer : Tokenizer}

/-- Tables in such an order never have the longer literal in the later table. -/
theorem Tokenizer.laterNotLonger
    (built : Tokenizer.ofTables tables = .ok tokenizer)
    (apart : ∀ table ∈ tables, table.KeepsWordsApart)
    (ordered : FreeInOrder tables) (input : Bytes) :
    LaterNotLonger tokenizer.catalog.entries tokenizer.rules input := by
  rw [LaterNotLonger, Tokenizer.rules_of_ofTables built, List.pairwise_map]
  apply ordered.imp_of_mem
  intro earlier later earlierListed laterListed inOrder first second
    firstAdmissible secondAdmissible
  rcases (Tokenizer.admissible_rule_iff built earlierListed).mp
    firstAdmissible with ⟨firstDeclared, firstStarts, firstFollows⟩
  rcases (Tokenizer.admissible_rule_iff built laterListed).mp
    secondAdmissible with ⟨secondDeclared, secondStarts, _⟩
  have same := (apart earlier earlierListed).adjacency_eq
    (apart later laterListed) firstDeclared secondDeclared
    firstStarts secondStarts
  cases adjacent : earlier.adjacency with
  | free =>
      rcases List.prefix_or_prefix_of_prefix firstStarts secondStarts with
        goesOn | within
      · rw [inOrder adjacent (same.symm.trans adjacent) first second
          firstDeclared secondDeclared goesOn]
      · exact within.length_le
  | wholeWord =>
      apply length_le_of_isWord secondStarts
      · exact (apart later laterListed).words (same.symm.trans adjacent)
          second secondDeclared
      · intro byte found
        exact ((Table.admits_iff_of_wholeWord adjacent).mp firstFollows
          byte found).2

end Tables

/-! ## The standard tables -/

namespace Standard

theorem length_of_declares_delimiter {entry : Entry}
    (declares : delimiters.Declares entry) : entry.literal.length = 1 := by
  rcases exists_checked delimiters (by simp [tables]) with
    ⟨entries, parsed, checked⟩
  rcases declares with ⟨listed, found, member⟩
  cases parsed.symm.trans found
  exact checked.single rfl entry member

/-- The tables of whole words. -/
def wordTables : List Table :=
  [keywords, reservedWords, elementaryTypes, uints, storageLocations,
    numberUnits, opcodes]

theorem tables_eq : tables = wordTables ++ [assignments, delimiters] := rfl

theorem wholeWord_of_mem_wordTables :
    ∀ table ∈ wordTables, table.adjacency = .wholeWord := by decide

theorem isWord_of_mem_wordTables {table : Table} (listed : table ∈ wordTables)
    {entry : Entry} (declares : table.Declares entry) {byte : UInt8}
    (member : byte ∈ entry.literal) : Byte.isWord byte = true := by
  have apart := keepsWordsApart table (List.mem_append_left _ listed)
  exact apart.words (wholeWord_of_mem_wordTables table listed) entry
    declares byte member

/-- The assignment operators come before the delimiters, which are single bytes. -/
theorem freeInOrder : FreeInOrder tables := by
  have notFree : ∀ table ∈ wordTables, table.adjacency ≠ .free := by
    intro table listed
    rw [wholeWord_of_mem_wordTables table listed]
    decide
  rw [FreeInOrder, tables_eq]
  apply List.pairwise_append.mpr
  refine ⟨?_, List.pairwise_pair.mpr ?_, ?_⟩
  · apply List.pairwise_of_forall_mem_list
    intro earlier listed later _ free
    exact absurd free (notFree earlier listed)
  · intro _ _ first second firstDeclared secondDeclared goesOn
    have nonempty := firstDeclared.isField.literal_ne_nil
    have single := length_of_declares_delimiter secondDeclared
    symm
    apply goesOn.eq_of_length_le
    rw [single]
    exact List.length_pos_iff.mpr nonempty
  · intro earlier listed later _ free
    exact absurd free (notFree earlier listed)

/--
The priority order of the standard tables never beats a longer match.  At
every offset of every source classification fails exactly if no table has an
entry that can be read there.  Otherwise it gives the longest entry that can
be read, over all tables, and of several that are as long it gives that of
the first table.
-/
theorem classifyAt_longestOverall :
    ∃ found, tokenizer = .ok found ∧ ∀ source offset,
      ((∃ error, found.classifyAt source offset = .error error) ↔
        ∀ table ∈ tables, ∀ entry,
          ¬ Admissible found.catalog.entries table.rule
            (source.drop offset) entry) ∧
      ∀ recognition,
        found.classifyAt source offset = .ok recognition ↔
          ∃ entry,
            LongestOverall found.catalog.entries (tables.map Table.rule)
                (source.drop offset) entry ∧
              recognition.token = Token.ofEntry entry ∧
              recognition.length = entry.literal.length ∧
              source.drop offset = entry.literal ++ recognition.rest := by
  rcases exists_tokenizer with ⟨found, built⟩
  have sameRules := Tokenizer.rules_of_ofTables built
  refine ⟨found, built, fun source offset => ⟨?_, ?_⟩⟩
  · constructor
    · rintro ⟨error, failed⟩ table listed entry
      have ruleListed : table.rule ∈ found.rules := by
        rw [sameRules]
        exact List.mem_map_of_mem listed
      exact (Tokenizer.classify_eq_error_iff.mp failed).1 table.rule
        ruleListed entry
    · intro nothing
      refine ⟨_, Tokenizer.classify_eq_error_iff.mpr ⟨?_, rfl⟩⟩
      intro rule listed entry
      rw [sameRules] at listed
      rcases List.mem_map.mp listed with ⟨table, tableListed, rfl⟩
      exact nothing table tableListed entry
  · intro recognition
    have ordered := Tokenizer.laterNotLonger built keepsWordsApart
      freeInOrder (source.drop offset)
    rw [sameRules] at ordered
    apply Tokenizer.classify_eq_ok_iff.trans
    simp only [sameRules, chosen_iff_longestOverall ordered]

/-- The operator `:=` is one token, although its first byte is a delimiter. -/
theorem classifyAt_longestOverall_assembly :
    ∃ found, tokenizer = .ok found ∧
      found.classifyAt [0x3A, 0x3D] 0 =
        .ok ⟨.assignment "assign_assembly", 2, []⟩ := by
  rcases classifyAt_longestOverall with ⟨found, built, longest⟩
  refine ⟨found, built, ((longest [0x3A, 0x3D] 0).2 _).mpr
    ⟨⟨.assignment, "assign_assembly", [0x3A, 0x3D], none⟩, ?_, rfl, rfl,
      rfl⟩⟩
  refine ⟨wordTables.map Table.rule, assignments.rule, [delimiters.rule],
    rfl, ?_, ?_, ?_⟩
  · apply (Tokenizer.admissible_rule_iff built (by simp [tables])).mpr
    exact ⟨assignments_declares_assembly, List.prefix_rfl, Or.inl rfl⟩
  · intro rival _ other admissible
    exact admissible.starts.length_le
  · intro earlier listed other admissible
    rcases List.mem_map.mp listed with ⟨table, inWords, rfl⟩
    have tableListed : table ∈ tables := List.mem_append_left _ inWords
    rcases (Tokenizer.admissible_rule_iff built tableListed).mp admissible
      with ⟨declares, starts, _⟩
    have word := isWord_of_mem_wordTables inWords declares
      (mem_of_prefix_cons declares.isField.literal_ne_nil starts)
    exact absurd word (by decide)

end Standard

end Lexicon
