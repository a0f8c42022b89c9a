import Lexicon.Proofs.LosslessLexing
import Lexicon.Proofs.TableLiterals

/-!
# The bytes that items take

Lexemes and skipped runs take every byte that is not blank, whatever the
literals are.  That they take no blank byte depends on the literals: one that
holds a blank byte covers it.  The literals of tables hold none, so with a
tokenizer of tables the blank bytes of a source are exactly those that
nothing takes.
-/

namespace Lexicon

namespace Lossless

variable {tokenizer : Tokenizer} {source : Bytes} {lexed : Lexed}
  {position : Nat} {byte : UInt8}

/-- The bytes of a lexeme are those of a literal. -/
theorem mem_literal_of_lexeme (lossless : Lossless tokenizer source lexed)
    {lexeme : Lexeme} (member : lexeme ∈ lexed.lexemes)
    (covers : lexeme.span.Covers position)
    (found : source[position]? = some byte) :
    ∃ entry ∈ tokenizer.catalog.entries, byte ∈ entry.literal := by
  rcases covers with ⟨after, before⟩
  rcases lossless.lexeme_classified lexeme member with
    ⟨recognition, classified, _, spanLength⟩
  rcases Tokenizer.classify_eq_ok_iff.mp classified with
    ⟨entry, chosen, _, literalLength, whole⟩
  have ends : lexeme.span.stop =
      lexeme.span.start + entry.literal.length := by
    have nonempty := after.trans_lt before
    rw [← literalLength, spanLength, Nat.add_sub_cancel' nonempty.le]
  rw [ends] at before
  exact ⟨entry, chosen.mem_declared,
    mem_literal_of_lt whole after before found⟩

/-- Where no literal holds a blank byte, the bytes that are taken are the others. -/
theorem covered_iff (lossless : Lossless tokenizer source lexed)
    (free : tokenizer.BlankFree)
    (found : source[position]? = some byte) :
    (∃ span ∈ lexed.spans, span.Covers position) ↔
      Byte.isBlank byte = false := by
  constructor
  · rintro ⟨span, member, covers⟩
    rcases List.mem_append.mp member with inLexemes | inSkipped
    · rcases List.mem_map.mp inLexemes with ⟨lexeme, listed, rfl⟩
      rcases lossless.mem_literal_of_lexeme listed covers found with
        ⟨entry, declared, inLiteral⟩
      exact free.literals entry declared byte inLiteral
    · rcases List.mem_map.mp inSkipped with ⟨run, listed, rfl⟩
      exact lossless.not_blank_of_skipped run listed position byte covers
        found
  · intro notBlank
    by_contra uncovered
    have blank : Byte.isBlank byte = true := by
      apply lossless.blank_of_uncovered position byte found
      intro span member covers
      exact uncovered ⟨span, member, covers⟩
    rw [notBlank] at blank
    cases blank

end Lossless

theorem Byte.not_mem_blanks_iff {byte : UInt8} :
    byte ∉ [0x20, 0x09, 0x0A, 0x0D, 0x0C] ↔ Byte.isBlank byte = false := by
  rw [← Bool.not_eq_true, Byte.isBlank_iff]
  simp

/--
With a tokenizer of tables, a position of a source lies in the span of a
lexeme or of a skipped run exactly if its byte is none of space, tab, line
feed, carriage return and form feed.  No literal that any table declares is
empty or holds one of these bytes.
-/
theorem lex_covers_iff_not_blank {tables : List Table}
    {tokenizer : Tokenizer}
    (built : Tokenizer.ofTables tables = .ok tokenizer) {source : Bytes}
    (fits : source.length ≤ maxOffset) :
    (∃ lexed, lex tokenizer source = .ok lexed ∧
        ∀ position byte, source[position]? = some byte →
          ((∃ span ∈ lexed.spans, span.Covers position) ↔
            byte ∉ [0x20, 0x09, 0x0A, 0x0D, 0x0C])) ∧
      ∀ table entry, Table.Declares table entry → entry.literal ≠ [] ∧
        ∀ byte ∈ entry.literal, byte ∉ [0x20, 0x09, 0x0A, 0x0D, 0x0C] := by
  constructor
  · have tiling := tiling_scan_start tokenizer fits
    refine ⟨_, lex_of_le tokenizer fits, ?_⟩
    intro position byte found
    rw [Byte.not_mem_blanks_iff]
    exact tiling.lossless.covered_iff
      (Tokenizer.blankFree_of_ofTables built) found
  · intro table entry declares
    refine ⟨declares.isField.literal_ne_nil, ?_⟩
    intro byte inside
    rw [Byte.not_mem_blanks_iff]
    exact declares.isField.isBlank_of_mem_literal inside

/--
A no-break space is part of a literal and a vertical tab is skipped as a
character of its own, so both are taken.  The space between them is not.
-/
theorem lex_covers_iff_not_blank_spaces :
    ∃ tokenizer lexed,
      Tokenizer.ofTables
          [⟨.keyword, "words", "a\u00a0b", .word, .wholeWord⟩] =
        .ok tokenizer ∧
        lex tokenizer [0x61, 0xC2, 0xA0, 0x62, 0x20, 0x0B] = .ok lexed ∧
        (∃ span ∈ lexed.spans, span.Covers 2) ∧
        (¬ ∃ span ∈ lexed.spans, span.Covers 4) ∧
        (∃ span ∈ lexed.spans, span.Covers 5) ∧
        Table.Declares ⟨.keyword, "words", "a\u00a0b", .word, .wholeWord⟩
          ⟨.keyword, "a\u00a0b", [0x61, 0xC2, 0xA0, 0x62], none⟩ ∧
        ∀ byte ∈ ([0x61, 0xC2, 0xA0, 0x62] : Bytes),
          byte ∉ [0x20, 0x09, 0x0A, 0x0D, 0x0C] := by
  have builds : ∃ tokenizer,
      Tokenizer.ofTables
          [⟨.keyword, "words", "a\u00a0b", .word, .wholeWord⟩] =
        .ok tokenizer :=
    ⟨_, rfl⟩
  rcases builds with ⟨tokenizer, built⟩
  have declares :
      Table.Declares ⟨.keyword, "words", "a\u00a0b", .word, .wholeWord⟩
        ⟨.keyword, "a\u00a0b", [0x61, 0xC2, 0xA0, 0x62], none⟩ :=
    ⟨_, rfl, List.mem_singleton_self _⟩
  rcases lex_covers_iff_not_blank built
      (show [0x61, 0xC2, 0xA0, 0x62, 0x20, 0x0B].length ≤ maxOffset
        by decide) with ⟨⟨lexed, lexes, covers⟩, literals⟩
  refine ⟨tokenizer, lexed, built, lexes, ?_, ?_, ?_, declares,
    (literals _ _ declares).2⟩
  · exact (covers 2 0xA0 rfl).mpr (by simp)
  · intro covered
    exact (covers 4 0x20 rfl).mp covered (by simp)
  · exact (covers 5 0x0B rfl).mpr (by simp)

end Lexicon
