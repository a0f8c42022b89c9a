import Lexicon.Proofs.BlankJoin
import Lexicon.Proofs.LongestMatch

/-!
# Literals are read back

A sequence of entries is written as their literals with blank bytes between
them.  Lexing the text gives the entries back, each at the place of its
literal, as long as every entry is the one that its literal stands for: the
first table that declares the literal declares the entry.

A single literal is read back because it is the longest match at its place
and no earlier table has one that is as long.  What comes after it does not
matter, since it begins with a blank byte.  The run follows the pieces of the
text one by one.
-/

namespace Lexicon

/-! ## Written entries -/

/-- An entry with the blank bytes that are written before it. -/
structure SpacedEntry where
  blanks : Bytes
  entry : Entry
  isBlank : ∀ byte ∈ blanks, Byte.isBlank byte = true

namespace SpacedEntry

/-- The blank bytes, and then the literal of the entry. -/
def written (piece : SpacedEntry) : Bytes :=
  piece.blanks ++ piece.entry.literal

/-- What lexing gives for a piece that is written from an offset on. -/
def lexeme (offset : Nat) (piece : SpacedEntry) : Lexeme where
  token := Token.ofEntry piece.entry
  span := Span.clamp (offset + piece.blanks.length)
    (offset + piece.written.length)

end SpacedEntry

/-- The pieces one after the other. -/
def written (pieces : List SpacedEntry) : Bytes :=
  pieces.flatMap SpacedEntry.written

/-- What lexing gives for pieces that are written from an offset on. -/
def writtenLexemes : Nat → List SpacedEntry → List Lexeme
  | _, [] => []
  | offset, piece :: rest =>
      piece.lexeme offset ::
        writtenLexemes (offset + piece.written.length) rest

@[simp]
theorem written_nil : written [] = [] := rfl

@[simp]
theorem written_cons (piece : SpacedEntry) (rest : List SpacedEntry) :
    written (piece :: rest) = piece.written ++ written rest := by
  simp [written]

@[simp]
theorem length_writtenLexemes (offset : Nat) (pieces : List SpacedEntry) :
    (writtenLexemes offset pieces).length = pieces.length := by
  induction pieces generalizing offset with
  | nil => rfl
  | cons piece rest induction => simp [writtenLexemes, induction]

/-- The lexeme of a piece lies behind all that is written before the piece. -/
theorem getElem?_writtenLexemes (offset : Nat) (pieces : List SpacedEntry)
    (index : Nat) :
    (writtenLexemes offset pieces)[index]? =
      pieces[index]?.map fun piece =>
        piece.lexeme (offset + (written (pieces.take index)).length) := by
  induction pieces generalizing offset index with
  | nil => rfl
  | cons piece rest induction =>
      cases index with
      | zero => rfl
      | succ index =>
          simp [writtenLexemes, induction, Nat.add_assoc]

theorem length_written_take_add_le {pieces : List SpacedEntry}
    {index : Nat} {piece : SpacedEntry}
    (found : pieces[index]? = some piece) :
    (written (pieces.take index)).length + piece.written.length ≤
      (written pieces).length := by
  induction pieces generalizing index with
  | nil => cases found
  | cons first rest induction =>
      cases index with
      | zero =>
          cases found
          simp
      | succ index =>
          have bound := induction (List.getElem?_cons_succ ▸ found)
          simp only [List.take_succ_cons, written_cons, List.length_append]
          omega

/-- Text that is written after a literal begins with a blank byte, if there is any. -/
theorem isBlank_head?_written {pieces : List SpacedEntry} {closing : Bytes}
    (separated : ∀ piece ∈ pieces, piece.blanks ≠ [])
    (closes : ∀ byte ∈ closing, Byte.isBlank byte = true) {byte : UInt8}
    (found : (written pieces ++ closing).head? = some byte) :
    Byte.isBlank byte = true := by
  cases pieces with
  | nil => exact closes byte (List.mem_of_mem_head? found)
  | cons piece rest =>
      have nonempty := separated piece List.mem_cons_self
      rw [written_cons, SpacedEntry.written, List.append_assoc,
        List.append_assoc, List.head?_append_of_ne_nil _ nonempty] at found
      exact piece.isBlank byte (List.mem_of_mem_head? found)

/-! ## Runs over written entries -/

/-- The literal is read as the entry where the input ends after it or a blank byte follows. -/
structure Tokenizer.ReadsBack (tokenizer : Tokenizer) (entry : Entry) :
    Prop where
  opens : ∃ byte tail, entry.literal = byte :: tail ∧
    Byte.isBlank byte = false
  classify_eq : ∀ offset rest,
    (∀ byte, rest.head? = some byte → Byte.isBlank byte = true) →
      tokenizer.classify offset (entry.literal ++ rest) =
        .ok ⟨Token.ofEntry entry, entry.literal.length, rest⟩

section Run

variable {tokenizer : Tokenizer} {piece : SpacedEntry} {rest : Bytes}

theorem Cursor.skipBlanks_spaced
    (reads : tokenizer.ReadsBack piece.entry) (offset : Nat) :
    (Cursor.mk offset (piece.written ++ rest)).skipBlanks =
      ⟨offset + piece.blanks.length, piece.entry.literal ++ rest⟩ := by
  rcases reads.opens with ⟨byte, tail, literal, notBlank⟩
  have run : (piece.written ++ rest).takeWhile Byte.isBlank =
      piece.blanks := by
    rw [SpacedEntry.written, List.append_assoc,
      List.takeWhile_append_of_pos piece.isBlank, literal,
      List.cons_append, List.takeWhile_cons_of_neg (by simp [notBlank]),
      List.append_nil]
  rw [skipBlanks, run, advance, SpacedEntry.written, List.append_assoc,
    List.drop_left]

/-- One step reads one piece. -/
theorem Cursor.step?_spaced (reads : tokenizer.ReadsBack piece.entry)
    (follows : ∀ byte, rest.head? = some byte → Byte.isBlank byte = true)
    (offset : Nat) :
    (Cursor.mk offset (piece.written ++ rest)).step? tokenizer =
      some (.lexeme (piece.lexeme offset),
        ⟨offset + piece.written.length, rest⟩) := by
  rcases reads.opens with ⟨byte, tail, literal, _⟩
  have classified := reads.classify_eq (offset + piece.blanks.length) rest
    follows
  have nonempty : ¬ (piece.entry.literal ++ rest).isEmpty = true := by
    simp [literal]
  have total : offset + piece.blanks.length + piece.entry.literal.length =
      offset + piece.written.length := by
    rw [SpacedEntry.written, List.length_append, Nat.add_assoc]
  rw [step?, skipBlanks_spaced reads, if_neg nonempty,
    read_of_classify_eq_ok classified]
  simp only [spanOf, advance, total, List.drop_left]
  rfl

/-- The run over a written text gives one lexeme for each piece and nothing else. -/
theorem scan_written {pieces : List SpacedEntry} {closing : Bytes}
    (reads : ∀ piece ∈ pieces, tokenizer.ReadsBack piece.entry)
    (separated : ∀ piece ∈ pieces.tail, piece.blanks ≠ [])
    (closes : ∀ byte ∈ closing, Byte.isBlank byte = true) (offset : Nat) :
    scan tokenizer ⟨offset, written pieces ++ closing⟩ =
      (writtenLexemes offset pieces).map .lexeme := by
  induction pieces generalizing offset with
  | nil =>
      exact scan_of_step?_eq_none (Cursor.step?_eq_none_iff.mpr closes)
  | cons piece rest induction =>
      rcases List.forall_mem_cons.mp reads with ⟨here, others⟩
      have follows : ∀ byte,
          (written rest ++ closing).head? = some byte →
            Byte.isBlank byte = true :=
        fun byte => isBlank_head?_written separated closes
      have stepped := Cursor.step?_spaced here follows offset
      have laterSeparated : ∀ piece ∈ rest.tail, piece.blanks ≠ [] :=
        fun piece member => separated piece (List.mem_of_mem_tail member)
      rw [written_cons, List.append_assoc, scan_of_step?_eq_some stepped,
        induction others laterSeparated]
      rfl

end Run

theorem Lexed.ofItems_map_lexeme (lexemes : List Lexeme) :
    Lexed.ofItems (lexemes.map .lexeme) = ⟨lexemes, []⟩ := by
  induction lexemes with
  | nil => rfl
  | cons lexeme rest induction =>
      rw [List.map_cons, ofItems_lexeme_cons, induction]

/-! ## Literals of tables -/

section Tables

variable {tables : List Table} {tokenizer : Tokenizer}

/-- The literal of an entry, taken alone, is read as the entry of the first table with it. -/
theorem Tokenizer.classify_literal
    (built : Tokenizer.ofTables tables = .ok tokenizer)
    (apart : ∀ table ∈ tables, table.KeepsWordsApart)
    (ordered : FreeInOrder tables) {entry : Entry}
    (first : FirstDeclares tables entry.literal entry) (offset : Nat) :
    tokenizer.classify offset entry.literal =
      .ok ⟨Token.ofEntry entry, entry.literal.length, []⟩ := by
  rcases first with ⟨_, before, table, after, split, declares, unshadowed⟩
  have listed : table ∈ tables := by simp [split]
  have longest : LongestOverall tokenizer.catalog.entries
      tokenizer.rules entry.literal entry := by
    refine ⟨before.map Table.rule, table.rule, after.map Table.rule,
      ?_, ?_, ?_, ?_⟩
    · rw [Tokenizer.rules_of_ofTables built, split, List.map_append,
        List.map_cons]
    · apply (Tokenizer.admissible_rule_iff built listed).mpr
      exact ⟨declares, List.prefix_rfl, Or.inr (Or.inl (by simp))⟩
    · intro rival _ other admissible
      exact admissible.starts.length_le
    · intro rule ruleListed other admissible
      rcases List.mem_map.mp ruleListed with ⟨earlier, inBefore, rfl⟩
      have earlierListed : earlier ∈ tables := by
        rw [split]
        exact List.mem_append_left _ inBefore
      rcases (Tokenizer.admissible_rule_iff built earlierListed).mp
        admissible with ⟨otherDeclared, starts, _⟩
      apply Nat.lt_of_le_of_ne starts.length_le
      intro sameLength
      exact unshadowed earlier inBefore other otherDeclared
        (starts.eq_of_length sameLength)
  apply Tokenizer.classify_eq_ok_iff.mpr
  exact ⟨entry, (chosen_iff_longestOverall (Tokenizer.laterNotLonger built
    apart ordered entry.literal)).mpr longest, rfl, rfl, by simp⟩

theorem Tokenizer.readsBack
    (built : Tokenizer.ofTables tables = .ok tokenizer)
    (apart : ∀ table ∈ tables, table.KeepsWordsApart)
    (ordered : FreeInOrder tables) {entry : Entry}
    (first : FirstDeclares tables entry.literal entry) :
    tokenizer.ReadsBack entry := by
  have free := Tokenizer.blankFree_of_ofTables built
  have declared : entry ∈ tokenizer.catalog.entries := by
    rcases first with ⟨_, before, table, after, split, declares, _⟩
    exact (Tokenizer.mem_entries_iff built).mpr
      ⟨table, by simp [split], declares⟩
  constructor
  · have nonempty :=
      (tokenizer.catalog.wellFormed entry declared).literal_ne_nil
    rcases List.exists_cons_of_ne_nil nonempty with ⟨byte, tail, literal⟩
    exact ⟨byte, tail, literal,
      free.literals entry declared byte (by simp [literal])⟩
  · intro offset rest follows
    have alone :=
      Tokenizer.classify_literal built apart ordered first offset
    cases rest with
    | nil => rw [List.append_nil, alone]
    | cons blank rest =>
        exact free.classify_append_of_eq_ok (follows blank rfl) alone rest

end Tables

/-! ## The standard tables -/

namespace Standard

/--
The literals of the language are read back.  Take any entries of the standard
tables that no earlier table hides, and write their literals one after the
other with blank bytes between them; there may be blank bytes before the
first and after the last.  Lexing the text skips nothing and gives the tokens
of the entries in order.  The span of each is the place of its literal: it
starts behind all that is written before the literal.
-/
theorem lex_written :
    ∃ found, tokenizer = .ok found ∧
      ∀ (pieces : List SpacedEntry) (closing : Bytes),
        (∀ piece ∈ pieces,
          FirstDeclares tables piece.entry.literal piece.entry) →
        (∀ piece ∈ pieces.tail, piece.blanks ≠ []) →
        (∀ byte ∈ closing, Byte.isBlank byte = true) →
        (written pieces ++ closing).length ≤ maxOffset →
          ∃ lexemes,
            lex found (written pieces ++ closing) = .ok ⟨lexemes, []⟩ ∧
              lexemes.length = pieces.length ∧
              ∀ index piece, pieces[index]? = some piece →
                ∃ lexeme, lexemes[index]? = some lexeme ∧
                  lexeme.token = Token.ofEntry piece.entry ∧
                  lexeme.span.start =
                    (written (pieces.take index)).length +
                      piece.blanks.length ∧
                  lexeme.span.stop =
                    lexeme.span.start + piece.entry.literal.length := by
  rcases exists_tokenizer with ⟨found, built⟩
  refine ⟨found, built, ?_⟩
  intro pieces closing unshadowed separated closes fits
  have reads : ∀ piece ∈ pieces, found.ReadsBack piece.entry := by
    intro piece member
    exact Tokenizer.readsBack built keepsWordsApart freeInOrder
      (unshadowed piece member)
  refine ⟨writtenLexemes 0 pieces, ?_, by simp, ?_⟩
  · rw [lex_of_le found fits, Cursor.start,
      scan_written reads separated closes, Lexed.ofItems_map_lexeme]
  · intro index piece present
    have inside := length_written_take_add_le present
    rw [List.length_append] at fits
    have stops : (written (pieces.take index)).length +
        piece.written.length ≤ maxOffset := by omega
    have parts : piece.written.length =
        piece.blanks.length + piece.entry.literal.length :=
      List.length_append
    refine ⟨piece.lexeme (written (pieces.take index)).length, ?_, rfl,
      ?_, ?_⟩
    · rw [getElem?_writtenLexemes, present, Option.map_some, Nat.zero_add]
    · exact Span.clamp_start (by omega)
    · rw [SpacedEntry.lexeme, Span.clamp_stop stops,
        Span.clamp_start (by omega), parts, Nat.add_assoc]

/-- No table before that of the assignment operators declares `:=`. -/
theorem firstDeclares_assembly :
    FirstDeclares tables [0x3A, 0x3D]
      ⟨.assignment, "assign_assembly", [0x3A, 0x3D], none⟩ := by
  refine ⟨rfl, wordTables, assignments, [delimiters], rfl,
    assignments_declares_assembly, ?_⟩
  intro earlier listed other declares literal
  have word : Byte.isWord 0x3A = true := by
    apply isWord_of_mem_wordTables listed declares
    simp [literal]
  exact absurd word (by decide)

/-- The keyword `return` and the operator `:=` on two lines, with blank bytes around them. -/
theorem lex_written_lines :
    ∃ found lexemes first second, tokenizer = .ok found ∧
      lex found
          [0x20, 0x72, 0x65, 0x74, 0x75, 0x72, 0x6E, 0x09, 0x0A, 0x3A,
            0x3D, 0x0C] = .ok ⟨lexemes, []⟩ ∧
        lexemes.length = 2 ∧
        lexemes[0]? = some first ∧ first.token = .keyword "return" ∧
        first.span.start = 1 ∧ first.span.stop = 7 ∧
        lexemes[1]? = some second ∧
        second.token = .assignment "assign_assembly" ∧
        second.span.start = 9 ∧ second.span.stop = 11 := by
  have keywordFirst : FirstDeclares tables
      [0x72, 0x65, 0x74, 0x75, 0x72, 0x6E]
      ⟨.keyword, "return", [0x72, 0x65, 0x74, 0x75, 0x72, 0x6E], none⟩ :=
    ⟨rfl, [], keywords, _, rfl, keywords_declares_return, by simp⟩
  rcases lex_written with ⟨found, built, reads⟩
  rcases reads
    [⟨[0x20], ⟨.keyword, "return", [0x72, 0x65, 0x74, 0x75, 0x72, 0x6E],
        none⟩, by simp [Byte.isBlank]⟩,
      ⟨[0x09, 0x0A], ⟨.assignment, "assign_assembly", [0x3A, 0x3D], none⟩,
        by simp [Byte.isBlank]⟩] [0x0C]
    (List.forall_mem_cons.mpr ⟨keywordFirst,
      List.forall_mem_singleton.mpr firstDeclares_assembly⟩)
    (by simp) (by simp [Byte.isBlank]) (by decide) with
    ⟨lexemes, lexes, count, places⟩
  rcases places 0 _ rfl with
    ⟨first, firstFound, firstToken, firstStart, firstStop⟩
  rcases places 1 _ rfl with
    ⟨second, secondFound, secondToken, secondStart, secondStop⟩
  rw [firstStart] at firstStop
  rw [secondStart] at secondStop
  exact ⟨found, lexemes, first, second, built, lexes, count, firstFound,
    firstToken, firstStart, firstStop, secondFound, secondToken,
    secondStart, secondStop⟩

end Standard

end Lexicon
