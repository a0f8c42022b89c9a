import Lexicon.Proofs.LosslessLexing
import Lexicon.Proofs.StandardTables

/-!
# Words are read whole

Nothing in the lexer looks at the bytes before a token.  Words are read whole
all the same, when the literals of tables are either words or free of word
bytes: every item then consists of word bytes or holds none, and an item of
word bytes goes on as far as they do.  An item that meets a run of word bytes
is therefore that run, because the item before it cannot hold its last byte
without holding the run as well.

Whether the run is a token is decided by the tables of whole words and by the
byte after it.
-/

namespace Lexicon

/-! ## Words in a source -/

/-- A run of word bytes that no further word byte adjoins. -/
structure WordRun (source : Bytes) (start stop : Nat) : Prop where
  nonempty : start < stop
  word : ∀ position, start ≤ position → position < stop →
    ∃ byte, source[position]? = some byte ∧ Byte.isWord byte = true
  before : ∀ position byte, position + 1 = start →
    source[position]? = some byte → Byte.isWord byte = false
  after : ∀ byte, source[stop]? = some byte → Byte.isWord byte = false

namespace Span

/-- The span holds word bytes alone, and none follows it. -/
structure EndsWord (span : Span) (source : Bytes) : Prop where
  word : ∀ position byte, span.Covers position →
    source[position]? = some byte → Byte.isWord byte = true
  after : ∀ byte, source[span.stop]? = some byte →
    Byte.isWord byte = false

/-- The span holds no word byte. -/
def HoldsNoWord (span : Span) (source : Bytes) : Prop :=
  ∀ position byte, span.Covers position →
    source[position]? = some byte → Byte.isWord byte = false

end Span

namespace WordRun

variable {source : Bytes} {start stop : Nat}

theorem stop_le (run : WordRun source start stop) :
    stop ≤ source.length := by
  rcases run.word (stop - 1) (Nat.le_sub_one_of_lt run.nonempty)
      (Nat.sub_one_lt (Nat.ne_zero_of_lt run.nonempty)) with
    ⟨byte, found, _⟩
  rcases List.getElem?_eq_some_iff.mp found with ⟨inside, _⟩
  exact Nat.le_of_pred_lt inside

/-- The only span of word bytes with a proper end that meets the start of a run is the run. -/
theorem span_eq (run : WordRun source start stop) {span : Span}
    (ends : span.EndsWord source) (inside : span.stop ≤ source.length)
    (covers : span.Covers start) :
    span.start = start ∧ span.stop = stop := by
  rcases covers with ⟨startsBefore, stopsAfter⟩
  have notWord : ∀ position, span.Covers position →
      (∀ byte, source[position]? = some byte →
        Byte.isWord byte = false) → False := by
    intro position covered other
    have present := List.getElem?_eq_getElem
      (Nat.lt_of_lt_of_le covered.2 inside)
    have word := ends.word position _ covered present
    rw [other _ present] at word
    cases word
  constructor
  · apply Nat.le_antisymm startsBefore
    by_contra early
    have previous : start - 1 + 1 = start := by omega
    apply notWord (start - 1)
    · exact ⟨by omega, by omega⟩
    · intro byte found
      exact run.before (start - 1) byte previous found
  · apply Nat.le_antisymm
    · by_contra late
      apply notWord stop
      · exact ⟨startsBefore.trans run.nonempty.le, Nat.lt_of_not_le late⟩
      · exact run.after
    · by_contra early
      rcases run.word span.stop stopsAfter.le (Nat.lt_of_not_le early) with
        ⟨byte, found, word⟩
      rw [ends.after byte found] at word
      cases word

end WordRun

/-! ## Words in tables -/

/-- Whole words are made of word bytes, and the other literals hold none. -/
structure Table.KeepsWordsApart (table : Table) : Prop where
  words : table.adjacency = .wholeWord → ∀ entry, table.Declares entry →
    ∀ byte ∈ entry.literal, Byte.isWord byte = true
  others : table.adjacency = .free → ∀ entry, table.Declares entry →
    ∀ byte ∈ entry.literal, Byte.isWord byte = false

/-- A whole word may be followed by a byte of ASCII that is no word byte. -/
theorem Table.admits_iff_of_wholeWord {table : Table}
    (whole : table.adjacency = .wholeWord) {rest : Bytes} :
    table.rule.Admits rest ↔
      ∀ byte, rest.head? = some byte →
        Byte.isAscii byte = true ∧ Byte.isWord byte = false := by
  have boundary : table.rule.boundary = some Boundary.word := by
    rw [Table.rule, whole]
    rfl
  cases rest with
  | nil => simp [Rule.Admits]
  | cons byte rest => simp [Rule.Admits, boundary, Boundary.word]

/-! ## Items -/

namespace Span

variable {source : Bytes} {span : Span} {first : UInt8}

/-- The bytes of a skipped run are word bytes if its first byte is one. -/
theorem isWord_of_unrecognized (opens : source[span.start]? = some first)
    (stop_eq : span.stop =
      span.start + unrecognizedLength (source.drop span.start))
    {position : Nat} {byte : UInt8} (covers : span.Covers position)
    (found : source[position]? = some byte) :
    Byte.isWord byte = Byte.isWord first := by
  rcases covers with ⟨notBefore, inside⟩
  rw [stop_eq] at inside
  rw [← Nat.add_sub_cancel' notBefore, ← List.getElem?_drop] at found
  apply isWord_of_lt_unrecognizedLength _
    (Nat.sub_lt_left_of_lt_add notBefore inside) found
  rw [List.head?_drop, opens]

theorem endsWord_of_unrecognized (opens : source[span.start]? = some first)
    (stop_eq : span.stop =
      span.start + unrecognizedLength (source.drop span.start))
    (word : Byte.isWord first = true) : span.EndsWord source := by
  constructor
  · intro position byte covers found
    rw [isWord_of_unrecognized opens stop_eq covers found, word]
  · intro byte found
    rw [stop_eq, ← List.getElem?_drop] at found
    apply isWord_of_getElem?_unrecognizedLength _ word found
    rw [List.head?_drop, opens]

theorem holdsNoWord_of_unrecognized
    (opens : source[span.start]? = some first)
    (stop_eq : span.stop =
      span.start + unrecognizedLength (source.drop span.start))
    (notWord : Byte.isWord first = false) : span.HoldsNoWord source := by
  intro position byte covers found
  rw [isWord_of_unrecognized opens stop_eq covers found, notWord]

end Span

section Tables

variable {tables : List Table} {tokenizer : Tokenizer} {source : Bytes}
  {item : Item}

/-- An item consists of word bytes as far as they go, or it holds none. -/
theorem Faithful.endsWord_or_holdsNoWord
    (built : Tokenizer.ofTables tables = .ok tokenizer)
    (apart : ∀ table ∈ tables, table.KeepsWordsApart)
    (opens : ∃ first, source[item.span.start]? = some first)
    (faithful : Faithful tokenizer source item) :
    item.span.EndsWord source ∨ item.span.HoldsNoWord source := by
  cases faithful with
  | @lexeme lexeme recognition classified token_eq stop_eq =>
      rcases Tokenizer.declares_of_classify built classified with
        ⟨before, table, after, entry, split, declares, _, sameLength,
          whole, follows, _⟩
      have listed : table ∈ tables := by simp [split]
      have inLiteral : ∀ position byte, lexeme.span.Covers position →
          source[position]? = some byte → byte ∈ entry.literal := by
        rintro position byte ⟨notBefore, inside⟩ found
        rw [stop_eq, sameLength] at inside
        exact mem_literal_of_lt whole notBefore inside found
      cases adjacent : table.adjacency with
      | free =>
          right
          intro position byte covered found
          exact (apart table listed).others adjacent entry declares byte
            (inLiteral position byte covered found)
      | wholeWord =>
          left
          constructor
          · intro position byte covered found
            exact (apart table listed).words adjacent entry declares byte
              (inLiteral position byte covered found)
          · intro byte found
            change source[lexeme.span.stop]? = some byte at found
            rw [stop_eq, sameLength, ← head?_rest_eq whole] at found
            exact ((Table.admits_iff_of_wholeWord adjacent).mp follows
              byte found).2
  | skipped classified stop_eq =>
      rcases opens with ⟨first, present⟩
      cases word : Byte.isWord first with
      | true =>
          exact Or.inl (Span.endsWord_of_unrecognized present stop_eq word)
      | false =>
          exact Or.inr
            (Span.holdsNoWord_of_unrecognized present stop_eq word)

/-- A run of word bytes is an item. -/
theorem WordRun.exists_item
    (built : Tokenizer.ofTables tables = .ok tokenizer)
    (apart : ∀ table ∈ tables, table.KeepsWordsApart)
    {items : List Item} (tiling : Tiling tokenizer source 0 items)
    {start stop : Nat} (run : WordRun source start stop) :
    ∃ item ∈ items, item.span.start = start ∧ item.span.stop = stop := by
  rcases run.word start le_rfl run.nonempty with ⟨byte, found, word⟩
  have notBlank : Byte.isBlank byte = false := by
    cases blank : Byte.isBlank byte with
    | false => rfl
    | true =>
        rw [Byte.isWord_of_isBlank blank] at word
        cases word
  rcases tiling.exists_covering (Nat.zero_le start) found notBlank with
    ⟨item, member, covers⟩
  rcases tiling.firstAfter_of_mem member with ⟨_, _, first⟩
  rcases first.opens with ⟨opening, present, _⟩
  rcases first.faithful.endsWord_or_holdsNoWord built apart
      ⟨opening, present⟩ with ends | none
  · rcases run.span_eq ends first.inside covers with ⟨startsAt, stopsAt⟩
    exact ⟨item, member, startsAt, stopsAt⟩
  · rw [none start byte covers found] at word
    cases word

/-! ## Tokens of words -/

/-- The entry is that of the first table that declares the literal. -/
def FirstDeclares (tables : List Table) (literal : Bytes) (entry : Entry) :
    Prop :=
  entry.literal = literal ∧
    ∃ before table after, tables = before ++ table :: after ∧
      table.Declares entry ∧
        ∀ earlier ∈ before, ∀ other, earlier.Declares other →
          other.literal ≠ literal

namespace WordRun

variable {start stop : Nat}

theorem length_extract (run : WordRun source start stop) :
    (source.extract start stop).length = stop - start := by
  have inside := run.stop_le
  rw [List.extract_eq_take_drop, List.length_take, List.length_drop]
  omega

/-- The run, and what follows it, make up the source from its start on. -/
theorem drop_start_eq (run : WordRun source start stop) :
    source.drop start = source.extract start stop ++ source.drop stop := by
  have split := List.take_append_drop (stop - start) (source.drop start)
  rw [List.drop_drop, Nat.add_sub_cancel' run.nonempty.le] at split
  rw [List.extract_eq_take_drop, split]

theorem isWord_of_mem_extract (run : WordRun source start stop)
    {byte : UInt8} (member : byte ∈ source.extract start stop) :
    Byte.isWord byte = true := by
  rcases List.mem_iff_getElem?.mp member with ⟨index, found⟩
  have inside := (List.getElem?_eq_some_iff.mp found).1
  rw [run.length_extract] at inside
  rcases run.word (start + index) (Nat.le_add_right _ _) (by omega) with
    ⟨other, present, word⟩
  rw [← List.getElem?_drop, run.drop_start_eq,
    List.getElem?_append_left (by rwa [run.length_extract]), found]
    at present
  cases present
  exact word

/-- Tables that keep words apart declare a run of word bytes as a whole word or not at all. -/
theorem wholeWord_of_declares (run : WordRun source start stop)
    {table : Table} (apart : table.KeepsWordsApart) {entry : Entry}
    (declares : table.Declares entry)
    (spelled : entry.literal = source.extract start stop) :
    table.adjacency = .wholeWord := by
  cases adjacent : table.adjacency with
  | wholeWord => rfl
  | free =>
      have nonempty : 0 < (source.extract start stop).length := by
        rw [run.length_extract]
        exact Nat.sub_pos_of_lt run.nonempty
      rcases List.exists_mem_of_length_pos nonempty with ⟨byte, member⟩
      have word := run.isWord_of_mem_extract member
      rw [← spelled] at member
      rw [apart.others adjacent entry declares byte member] at word
      cases word

/-- A declared run of word bytes can be read exactly if no byte outside ASCII follows it. -/
theorem admissible_iff (run : WordRun source start stop)
    (built : Tokenizer.ofTables tables = .ok tokenizer)
    (apart : ∀ table ∈ tables, table.KeepsWordsApart)
    {table : Table} (listed : table ∈ tables) {entry : Entry}
    (declares : table.Declares entry)
    (spelled : entry.literal = source.extract start stop) :
    Admissible tokenizer.catalog.entries table.rule (source.drop start)
        entry ↔
      ∀ byte, source[stop]? = some byte → byte < 0x80 := by
  have whole :=
    run.wholeWord_of_declares (apart table listed) declares spelled
  have rest : (source.drop start).drop entry.literal.length =
      source.drop stop := by
    rw [spelled, run.drop_start_eq, List.drop_left]
  have starts : entry.literal <+: source.drop start := by
    rw [spelled, run.drop_start_eq]
    exact List.prefix_append _ _
  rw [Tokenizer.admissible_rule_iff built listed, rest,
    Table.admits_iff_of_wholeWord whole, List.head?_drop]
  constructor
  · rintro ⟨_, _, follows⟩ byte found
    simpa [Byte.isAscii] using (follows byte found).1
  · intro ascii
    refine ⟨declares, starts, ?_⟩
    intro byte found
    exact ⟨decide_eq_true (ascii byte found), run.after byte found⟩

/-- The token of a run comes from the first table that declares it. -/
theorem firstDeclares_of_lexeme (run : WordRun source start stop)
    (built : Tokenizer.ofTables tables = .ok tokenizer)
    (apart : ∀ table ∈ tables, table.KeepsWordsApart) {lexeme : Lexeme}
    (faithful : Faithful tokenizer source (.lexeme lexeme))
    (startsAt : lexeme.span.start = start)
    (stopsAt : lexeme.span.stop = stop) :
    (∃ entry, FirstDeclares tables (source.extract start stop) entry ∧
        lexeme.token = Token.ofEntry entry) ∧
      ∀ byte, source[stop]? = some byte → byte < 0x80 := by
  cases faithful with
  | lexeme classified token_eq stop_eq =>
      rw [startsAt] at classified stop_eq
      rcases Tokenizer.declares_of_classify built classified with
        ⟨before, table, after, entry, split, declares, sameToken,
          sameLength, whole, follows, failed⟩
      have listed : table ∈ tables := by simp [split]
      have spelled : entry.literal = source.extract start stop := by
        apply List.append_inj_left (whole.symm.trans run.drop_start_eq)
        rw [run.length_extract, ← sameLength]
        omega
      have ascii : ∀ byte, source[stop]? = some byte → byte < 0x80 := by
        apply (run.admissible_iff built apart listed declares spelled).mp
        apply (Tokenizer.admissible_rule_iff built listed).mpr
        refine ⟨declares, ⟨_, whole.symm⟩, ?_⟩
        rw [whole, List.drop_left]
        exact follows
      refine ⟨⟨entry, ⟨spelled, before, table, after, split, declares, ?_⟩,
        token_eq.symm.trans sameToken⟩, ascii⟩
      intro earlier earlierListed other otherDeclares otherSpelled
      have otherListed : earlier ∈ tables := by
        rw [split]
        exact List.mem_append_left _ earlierListed
      exact failed earlier earlierListed other ((run.admissible_iff built
        apart otherListed otherDeclares otherSpelled).mpr ascii)

/-- A run that is skipped cannot be read under any table. -/
theorem not_declares_of_skipped (run : WordRun source start stop)
    (built : Tokenizer.ofTables tables = .ok tokenizer)
    (apart : ∀ table ∈ tables, table.KeepsWordsApart)
    {skipped : SkippedRun}
    (faithful : Faithful tokenizer source (.skipped skipped))
    (startsAt : skipped.span.start = start)
    (ascii : ∀ byte, source[stop]? = some byte → byte < 0x80)
    {table : Table} (listed : table ∈ tables) {entry : Entry}
    (declares : table.Declares entry) :
    entry.literal ≠ source.extract start stop := by
  intro spelled
  cases faithful with
  | skipped classified stop_eq =>
      rw [startsAt] at classified
      rcases Tokenizer.classify_eq_error_iff.mp classified with ⟨failed, _⟩
      have ruleListed : table.rule ∈ tokenizer.rules := by
        rw [Tokenizer.rules_of_ofTables built]
        exact List.mem_map_of_mem listed
      exact failed table.rule ruleListed entry
        ((run.admissible_iff built apart listed declares spelled).mpr ascii)

/-- Every lexeme at the place of a run has the token of the first table that declares it. -/
theorem firstDeclares_of_mem (run : WordRun source start stop)
    (built : Tokenizer.ofTables tables = .ok tokenizer)
    (apart : ∀ table ∈ tables, table.KeepsWordsApart)
    {items : List Item} (tiling : Tiling tokenizer source 0 items)
    {lexeme : Lexeme} (member : lexeme ∈ (Lexed.ofItems items).lexemes)
    (startsAt : lexeme.span.start = start)
    (stopsAt : lexeme.span.stop = stop) :
    (∃ entry, FirstDeclares tables (source.extract start stop) entry ∧
        lexeme.token = Token.ofEntry entry) ∧
      ∀ byte, source[stop]? = some byte → byte < 0x80 := by
  rcases tiling.firstAfter_of_mem (Lexed.mem_lexemes_ofItems.mp member) with
    ⟨_, _, first⟩
  exact run.firstDeclares_of_lexeme built apart first.faithful
    startsAt stopsAt

/-- A run is a lexeme exactly if it is declared and no byte outside ASCII follows it. -/
theorem exists_lexeme_iff (run : WordRun source start stop)
    (built : Tokenizer.ofTables tables = .ok tokenizer)
    (apart : ∀ table ∈ tables, table.KeepsWordsApart)
    {items : List Item} (tiling : Tiling tokenizer source 0 items)
    (listed : item ∈ items) (startsAt : item.span.start = start)
    (stopsAt : item.span.stop = stop) :
    (∃ lexeme ∈ (Lexed.ofItems items).lexemes, lexeme.span = item.span) ↔
      (∃ table ∈ tables, table.adjacency = .wholeWord ∧
        ∃ entry, table.Declares entry ∧
          entry.literal = source.extract start stop) ∧
        ∀ byte, source[stop]? = some byte → byte < 0x80 := by
  constructor
  · rintro ⟨lexeme, member, same⟩
    rcases run.firstDeclares_of_mem built apart tiling member
      (by rw [same, startsAt]) (by rw [same, stopsAt]) with
      ⟨⟨entry, ⟨spelled, before, table, after, split, declares, _⟩, _⟩,
        ascii⟩
    have tableListed : table ∈ tables := by simp [split]
    have whole := run.wholeWord_of_declares (apart table tableListed)
      declares spelled
    exact ⟨⟨table, tableListed, whole, entry, declares, spelled⟩, ascii⟩
  · rintro ⟨⟨table, tableListed, _, entry, declares, spelled⟩, ascii⟩
    cases item with
    | lexeme lexeme =>
        exact ⟨lexeme, Lexed.mem_lexemes_ofItems.mpr listed, rfl⟩
    | skipped skipped =>
        rcases tiling.firstAfter_of_mem listed with ⟨_, _, first⟩
        exact absurd spelled (run.not_declares_of_skipped built apart
          first.faithful startsAt ascii tableListed declares)

end WordRun

end Tables

/-! ## The standard tables -/

theorem Table.keepsWordsApart_of_suits {table : Table} {entries : List Entry}
    (parsed : table.entries = .ok entries)
    (suits : ∀ entry ∈ entries, table.adjacency.suits entry = true) :
    table.KeepsWordsApart := by
  have suitsByte : ∀ entry, table.Declares entry → ∀ byte ∈ entry.literal,
      Byte.isWord byte = decide (table.adjacency = .wholeWord) := by
    rintro entry ⟨listed, found, member⟩ byte inLiteral
    cases parsed.symm.trans found
    exact eq_of_beq
      (List.all_eq_true.mp (suits entry member) byte inLiteral)
  constructor
  · intro adjacent entry declares byte member
    simpa [adjacent] using suitsByte entry declares byte member
  · intro adjacent entry declares byte member
    simpa [adjacent] using suitsByte entry declares byte member

/-- The standard tables of words hold words, and the two others hold no word byte. -/
theorem Standard.keepsWordsApart :
    ∀ table ∈ Standard.tables, table.KeepsWordsApart := by
  intro table listed
  rcases exists_checked table listed with ⟨entries, parsed, checked⟩
  exact Table.keepsWordsApart_of_suits parsed checked.suits

/-! ## Whole sources -/

/--
Words are never split and never glued to what adjoins them.  Take tables whose
whole words are made of word bytes and whose other literals hold none, as is
so for the standard ones.  Every run of word bytes of a source that is lexed
with such tables is the span of exactly one lexeme or skipped run.  It is a
lexeme exactly if a table of whole words declares it and the source ends after
it or goes on with a byte of ASCII; the token is then that of the first table
that declares it.
-/
theorem lex_wordRun :
    (∀ table ∈ Standard.tables, table.KeepsWordsApart) ∧
      ∀ {tables : List Table} {tokenizer : Tokenizer} {source : Bytes},
        Tokenizer.ofTables tables = .ok tokenizer →
        (∀ table ∈ tables, table.KeepsWordsApart) →
        source.length ≤ maxOffset →
          ∃ lexed, lex tokenizer source = .ok lexed ∧
            ∀ start stop, WordRun source start stop →
              ∃ span, span.start = start ∧ span.stop = stop ∧
                lexed.spans.count span = 1 ∧
                ((∃ lexeme ∈ lexed.lexemes, lexeme.span = span) ↔
                  (∃ table ∈ tables, table.adjacency = .wholeWord ∧
                    ∃ entry, table.Declares entry ∧
                      entry.literal = source.extract start stop) ∧
                    ∀ byte, source[stop]? = some byte → byte < 0x80) ∧
                ∀ lexeme ∈ lexed.lexemes, lexeme.span = span →
                  ∃ entry, lexeme.token = Token.ofEntry entry ∧
                    FirstDeclares tables (source.extract start stop)
                      entry := by
  refine ⟨Standard.keepsWordsApart, ?_⟩
  intro tables tokenizer source built apart fits
  have tiling := tiling_scan_start tokenizer fits
  refine ⟨_, lex_of_le tokenizer fits, ?_⟩
  intro start stop run
  rcases run.exists_item built apart tiling with
    ⟨item, listed, startsAt, stopsAt⟩
  have member := Lexed.mem_spans_ofItems.mpr ⟨item, listed, rfl⟩
  refine ⟨item.span, startsAt, stopsAt,
    List.count_eq_one_of_mem tiling.lossless.nodup_spans member,
    run.exists_lexeme_iff built apart tiling listed startsAt stopsAt, ?_⟩
  intro lexeme lexemeMember same
  rcases run.firstDeclares_of_mem built apart tiling lexemeMember
    (by rw [same, startsAt]) (by rw [same, stopsAt]) with
    ⟨⟨entry, first, token⟩, _⟩
  exact ⟨entry, token, first⟩

/-- A word before a point is a token, although the bytes after the point start with it too. -/
theorem lex_wordRun_point :
    ∃ tokenizer lexed span,
      Tokenizer.ofTables
          [⟨.keyword, "words", "is", .word, .wholeWord⟩,
            ⟨.delimiter, "signs", "POINT .", .namedLiteral, .free⟩] =
        .ok tokenizer ∧
        WordRun [0x69, 0x73, 0x2E, 0x69, 0x73, 0x78] 0 2 ∧
        lex tokenizer [0x69, 0x73, 0x2E, 0x69, 0x73, 0x78] = .ok lexed ∧
        span.start = 0 ∧ span.stop = 2 ∧ lexed.spans.count span = 1 ∧
        ∃ lexeme ∈ lexed.lexemes, lexeme.span = span := by
  have builds : ∃ tokenizer,
      Tokenizer.ofTables
          [⟨.keyword, "words", "is", .word, .wholeWord⟩,
            ⟨.delimiter, "signs", "POINT .", .namedLiteral, .free⟩] =
        .ok tokenizer :=
    ⟨_, rfl⟩
  rcases builds with ⟨tokenizer, built⟩
  have apart : ∀ table ∈
      ([⟨.keyword, "words", "is", .word, .wholeWord⟩,
        ⟨.delimiter, "signs", "POINT .", .namedLiteral, .free⟩] :
          List Table), table.KeepsWordsApart := by
    intro table listed
    rcases List.mem_pair.mp listed with rfl | rfl
    · exact Table.keepsWordsApart_of_suits rfl (by decide)
    · exact Table.keepsWordsApart_of_suits rfl (by decide)
  have run : WordRun [0x69, 0x73, 0x2E, 0x69, 0x73, 0x78] 0 2 := by
    refine ⟨by decide, ?_, ?_, ?_⟩
    · rintro (_ | _ | position) _ before
      · exact ⟨0x69, rfl, rfl⟩
      · exact ⟨0x73, rfl, rfl⟩
      · omega
    · intro position byte previous
      cases previous
    · intro byte found
      cases found
      rfl
  have fits : ([0x69, 0x73, 0x2E, 0x69, 0x73, 0x78] : Bytes).length ≤
      maxOffset := by
    decide
  rcases lex_wordRun.2 built apart fits with ⟨lexed, lexes, runs⟩
  rcases runs 0 2 run with ⟨span, startsAt, stopsAt, once, token, _⟩
  refine ⟨tokenizer, lexed, span, built, run, lexes, startsAt, stopsAt, once,
    token.mpr ⟨⟨_, List.mem_cons_self, rfl, ⟨.keyword, "is", [0x69, 0x73],
      none⟩, ⟨_, rfl, List.mem_cons_self⟩, rfl⟩, ?_⟩⟩
  intro byte found
  cases found
  decide

end Lexicon
