import Lexicon.Proofs.CharacterBoundaries

/-!
# What skipped runs hide

Where no token is recognised, the lexer skips a run of bytes and never looks
inside it.  A run of word bytes may well hide a token: the end of an unknown
word can be a known one.  Every other run hides none, although on a source
that is no text it may go on for many bytes.  All of them but the first
continue a character, and no literal of a table starts with such a byte, since
literals are encoded text.
-/

namespace Lexicon

/-- The literal of a table opens with a byte that opens a character. -/
theorem Entry.IsField.isContinuation_of_head? {entry : Entry}
    (isField : entry.IsField) {byte : UInt8}
    (opens : entry.literal.head? = some byte) :
    Byte.isContinuation byte = false := by
  rcases isField with ⟨field, nonempty, _, literal⟩
  rcases List.exists_cons_of_ne_nil nonempty with ⟨char, rest, rfl⟩
  rcases Utf8.exists_utf8EncodeChar_eq_cons char with
    ⟨first, others, encoded, opening, _⟩
  rw [literal, Utf8.encode_cons, encoded] at opens
  cases opens
  exact opening

section Tables

variable {tables : List Table} {tokenizer : Tokenizer} {source : Bytes}

/-- No token starts with a byte that continues a character. -/
theorem Tokenizer.classifyAt_of_isContinuation
    (built : Tokenizer.ofTables tables = .ok tokenizer) {position : Nat}
    {byte : UInt8} (found : source[position]? = some byte)
    (continues : Byte.isContinuation byte = true) :
    tokenizer.classifyAt source position =
      .error ⟨position, some byte⟩ := by
  rw [← List.head?_drop] at found
  cases classified : tokenizer.classifyAt source position with
  | error error =>
      rcases Tokenizer.classify_eq_error_iff.mp classified with
        ⟨_, error_eq⟩
      rw [error_eq, found]
  | ok recognition =>
      rcases Tokenizer.declares_of_classify built classified with
        ⟨_, table, _, entry, _, declares, _, _, whole, _⟩
      have opens : entry.literal.head? = some byte := by
        rw [whole, List.head?_append_of_ne_nil _
          declares.isField.literal_ne_nil] at found
        exact found
      rw [declares.isField.isContinuation_of_head? opens] at continues
      cases continues

/-- Where the first byte of a skipped run is no word byte, the others continue a character. -/
theorem Span.isContinuation_of_unrecognized {span : Span}
    {first byte : UInt8} {position : Nat}
    (opens : source[span.start]? = some first)
    (stop_eq : span.stop =
      span.start + unrecognizedLength (source.drop span.start))
    (notWord : Byte.isWord first = false) (after : span.start < position)
    (before : position < span.stop)
    (found : source[position]? = some byte) :
    Byte.isContinuation byte = true := by
  rcases Nat.exists_eq_add_of_lt after with ⟨index, rfl⟩
  rw [stop_eq, Nat.add_assoc] at before
  rw [← List.head?_drop] at opens
  rw [Nat.add_assoc, ← List.getElem?_drop] at found
  have continues := continuesRun_of_lt_unrecognizedLength opens
    (Nat.lt_of_add_lt_add_left before) found
  rw [continuesRun, notWord, if_neg Bool.false_ne_true] at continues
  exact continues

/-- A skipped run is a word to its end, or no token starts inside it. -/
theorem Faithful.endsWord_or_unrecognized
    (built : Tokenizer.ofTables tables = .ok tokenizer) {run : SkippedRun}
    (faithful : Faithful tokenizer source (.skipped run))
    (opens : ∃ first, source[run.span.start]? = some first)
    (inside : run.span.stop ≤ source.length) {position : Nat}
    (after : run.span.start < position) (before : position < run.span.stop) :
    run.span.EndsWord source ∨
      ∃ byte, source[position]? = some byte ∧
        tokenizer.classifyAt source position =
          .error ⟨position, some byte⟩ := by
  rcases opens with ⟨first, present⟩
  cases faithful with
  | skipped classified stop_eq =>
      cases word : Byte.isWord first with
      | true =>
          exact Or.inl (Span.endsWord_of_unrecognized present stop_eq word)
      | false =>
          have found := List.getElem?_eq_getElem (before.trans_le inside)
          have continues := Span.isContinuation_of_unrecognized present
            stop_eq word after before found
          exact Or.inr ⟨_, found,
            Tokenizer.classifyAt_of_isContinuation built found continues⟩

end Tables

/--
Recovery hides no token but in a word.  With a tokenizer of tables every
source that is short enough is lexed.  For each position inside a skipped run
and after its start, the run consists of word bytes and no word byte follows
it, or classification fails at that position for the byte that stands there.
-/
theorem lex_skipped_hides_no_token {tables : List Table}
    {tokenizer : Tokenizer}
    (built : Tokenizer.ofTables tables = .ok tokenizer) {source : Bytes}
    (fits : source.length ≤ maxOffset) :
    ∃ lexed, lex tokenizer source = .ok lexed ∧
      ∀ run ∈ lexed.skipped, ∀ position, run.span.start < position →
        position < run.span.stop →
          run.span.EndsWord source ∨
            ∃ byte, source[position]? = some byte ∧
              tokenizer.classifyAt source position =
                .error ⟨position, some byte⟩ := by
  have tiling := tiling_scan_start tokenizer fits
  refine ⟨_, lex_of_le tokenizer fits, ?_⟩
  intro run member position after before
  have listed := Lexed.mem_skipped_ofItems.mp member
  rcases tiling.firstAfter_of_mem listed with ⟨_, _, first⟩
  rcases first.opens with ⟨opening, present, _⟩
  exact first.faithful.endsWord_or_unrecognized built ⟨opening, present⟩
    first.inside after before

/--
The keyword inside an unknown word would be recognised, and the word is
skipped to its end.  The second byte of a literal stands after a question
mark, where it is skipped without being recognised.
-/
theorem lex_skipped_hides_no_token_cent :
    ∃ tokenizer,
      Tokenizer.ofTables
          [⟨.keyword, "words", "is", .word, .wholeWord⟩,
            ⟨.delimiter, "signs", "CENT ¢", .namedLiteral, .free⟩] =
        .ok tokenizer ∧
        lex tokenizer [0x78, 0x69, 0x73, 0x3F, 0xA2] =
          .ok ⟨[], [⟨⟨0, some 0x78⟩, Span.clamp 0 3⟩,
            ⟨⟨3, some 0x3F⟩, Span.clamp 3 5⟩]⟩ ∧
        tokenizer.classifyAt [0x78, 0x69, 0x73, 0x3F, 0xA2] 1 =
          .ok ⟨.keyword "is", 2, [0x3F, 0xA2]⟩ ∧
        (Span.clamp 0 3).EndsWord [0x78, 0x69, 0x73, 0x3F, 0xA2] ∧
        tokenizer.classifyAt [0x78, 0x69, 0x73, 0x3F, 0xA2] 4 =
          .error ⟨4, some 0xA2⟩ := by
  have lexes : ∃ tokenizer,
      Tokenizer.ofTables
          [⟨.keyword, "words", "is", .word, .wholeWord⟩,
            ⟨.delimiter, "signs", "CENT ¢", .namedLiteral, .free⟩] =
        .ok tokenizer ∧
        lex tokenizer [0x78, 0x69, 0x73, 0x3F, 0xA2] =
          .ok ⟨[], [⟨⟨0, some 0x78⟩, Span.clamp 0 3⟩,
            ⟨⟨3, some 0x3F⟩, Span.clamp 3 5⟩]⟩ ∧
        tokenizer.classifyAt [0x78, 0x69, 0x73, 0x3F, 0xA2] 1 =
          .ok ⟨.keyword "is", 2, [0x3F, 0xA2]⟩ :=
    ⟨_, rfl, by decide +kernel, by decide +kernel⟩
  rcases lexes with ⟨tokenizer, built, lexed, hidden⟩
  have fits : ([0x78, 0x69, 0x73, 0x3F, 0xA2] : Bytes).length ≤
      maxOffset := by
    decide
  rcases lex_skipped_hides_no_token built fits with
    ⟨result, sameLexed, runs⟩
  cases lexed.symm.trans sameLexed
  refine ⟨tokenizer, built, lexed, hidden, ?_, ?_⟩
  · rcases runs ⟨⟨0, some 0x78⟩, Span.clamp 0 3⟩ (by simp) 1 (by decide)
      (by decide) with ends | ⟨byte, _, failed⟩
    · exact ends
    · rw [hidden] at failed
      cases failed
  · rcases runs ⟨⟨3, some 0x3F⟩, Span.clamp 3 5⟩ (by simp) 4 (by decide)
      (by decide) with ends | ⟨byte, found, failed⟩
    · have word := ends.word 3 0x3F ⟨by decide, by decide⟩ rfl
      exact absurd word (by decide)
    · cases found
      exact failed

end Lexicon
