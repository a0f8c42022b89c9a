import Lexicon.Proofs.SourceTiling
import Mathlib.Data.List.Pairwise

/-!
# Lexing loses nothing

Every source that is short enough can be lexed.  The spans of the lexemes and
of the skipped runs then hold every byte that is not blank, no byte twice, and
each span is backed by what classification says where it starts.

The offsets that the lexer passes through are compared with the ends of the
spans as well: a span never holds a bound in place of an offset.
-/

namespace Lexicon

/-- A place that the lexer comes to when it reads a source. -/
inductive Cursor.Reached (tokenizer : Tokenizer) (source : Bytes) :
    Cursor → Prop
  | start : Reached tokenizer source (Cursor.start source)
  | step {cursor next : Cursor} {item : Item}
      (reached : Reached tokenizer source cursor)
      (stepped : cursor.step? tokenizer = some (item, next)) :
      Reached tokenizer source next

theorem Cursor.Reached.within {tokenizer : Tokenizer} {source : Bytes}
    (fits : source.length ≤ maxOffset) {cursor : Cursor}
    (reached : cursor.Reached tokenizer source) : cursor.Within source := by
  induction reached with
  | start => exact within_start source
  | step _ stepped induction =>
      rcases induction.step? fits stepped with ⟨_, _, _, after⟩
      exact after

/-- The lexemes and skipped runs account for a source without loss. -/
structure Lossless (tokenizer : Tokenizer) (source : Bytes) (lexed : Lexed) :
    Prop where
  nonempty : ∀ span ∈ lexed.spans, span.start < span.stop
  inside : ∀ span ∈ lexed.spans, span.stop ≤ source.length
  disjoint : lexed.spans.Pairwise Span.Disjoint
  lexemes_ascending : lexed.lexemes.Pairwise fun left right =>
    left.span.stop ≤ right.span.start
  skipped_ascending : lexed.skipped.Pairwise fun left right =>
    left.span.stop ≤ right.span.start
  /-- A byte outside all spans is blank. -/
  blank_of_uncovered : ∀ position byte, source[position]? = some byte →
    (∀ span ∈ lexed.spans, ¬ span.Covers position) →
      Byte.isBlank byte = true
  /-- A byte of a skipped run is not blank. -/
  not_blank_of_skipped : ∀ run ∈ lexed.skipped, ∀ position byte,
    run.span.Covers position → source[position]? = some byte →
      Byte.isBlank byte = false
  /-- Classification gives the token of every lexeme, with its length. -/
  lexeme_classified : ∀ lexeme ∈ lexed.lexemes, ∃ recognition,
    tokenizer.classifyAt source lexeme.span.start = .ok recognition ∧
      recognition.token = lexeme.token ∧
      recognition.length = lexeme.span.stop - lexeme.span.start
  /-- Classification fails with the error of every skipped run. -/
  skipped_classified : ∀ run ∈ lexed.skipped,
    run.error.offset = run.span.start ∧
      (∃ byte, source[run.span.start]? = some byte ∧
        run.error.found = some byte) ∧
      tokenizer.classifyAt source run.span.start = .error run.error

/-- No two lexemes or skipped runs have the same span. -/
theorem Lossless.nodup_spans {tokenizer : Tokenizer} {source : Bytes}
    {lexed : Lexed} (lossless : Lossless tokenizer source lexed) :
    lexed.spans.Nodup := by
  apply lossless.disjoint.imp_of_mem
  intro left right leftMember _ apart same
  have nonempty := lossless.nonempty left leftMember
  rw [← same] at apart
  rcases apart with before | before
  · exact nonempty.not_ge before
  · exact nonempty.not_ge before

namespace Tiling

variable {tokenizer : Tokenizer} {source : Bytes} {offset : Nat}
  {items : List Item}

theorem disjoint (tiling : Tiling tokenizer source offset items) :
    (Lexed.ofItems items).spans.Pairwise Span.Disjoint := by
  have separate : items.Pairwise fun left right =>
      left.span.Disjoint right.span :=
    tiling.ascending.imp Or.inl
  have symmetric : Std.Symm fun left right : Item =>
      left.span.Disjoint right.span :=
    ⟨fun _ _ apart => apart.symm⟩
  apply List.pairwise_append.mpr
  refine ⟨?_, ?_, ?_⟩
  · exact List.pairwise_map.mpr
      (Lexed.pairwise_lexemes_ofItems Span.Disjoint separate)
  · exact List.pairwise_map.mpr
      (Lexed.pairwise_skipped_ofItems Span.Disjoint separate)
  · intro lexemeSpan lexemeMember runSpan runMember
    rcases List.mem_map.mp lexemeMember with ⟨lexeme, inLexemes, rfl⟩
    rcases List.mem_map.mp runMember with ⟨run, inSkipped, rfl⟩
    have lexemeItem := Lexed.mem_lexemes_ofItems.mp inLexemes
    have runItem := Lexed.mem_skipped_ofItems.mp inSkipped
    have different : Item.lexeme lexeme ≠ Item.skipped run := by simp
    exact separate.forall lexemeItem runItem different

theorem lossless (tiling : Tiling tokenizer source 0 items) :
    Lossless tokenizer source (Lexed.ofItems items) where
  nonempty := by
    intro span member
    rcases Lexed.mem_spans_ofItems.mp member with ⟨item, listed, rfl⟩
    exact tiling.nonempty_of_mem listed
  inside := by
    intro span member
    rcases Lexed.mem_spans_ofItems.mp member with ⟨item, listed, rfl⟩
    rcases tiling.firstAfter_of_mem listed with ⟨_, _, found⟩
    exact found.inside
  disjoint := tiling.disjoint
  lexemes_ascending :=
    Lexed.pairwise_lexemes_ofItems
      (fun left right => left.stop ≤ right.start) tiling.ascending
  skipped_ascending :=
    Lexed.pairwise_skipped_ofItems
      (fun left right => left.stop ≤ right.start) tiling.ascending
  blank_of_uncovered := by
    intro position byte found uncovered
    apply tiling.isBlank_of_uncovered (Nat.zero_le _) found
    intro item listed
    exact uncovered item.span
      (Lexed.mem_spans_ofItems.mpr ⟨item, listed, rfl⟩)
  not_blank_of_skipped := by
    rintro run member position byte ⟨after, before⟩ found
    have listed := Lexed.mem_skipped_ofItems.mp member
    rcases tiling.firstAfter_of_mem listed with ⟨_, _, first⟩
    rcases first.opens with ⟨opening, present, notBlank⟩
    cases first.faithful with
    | skipped classified stop_eq =>
        have bounded : position - run.span.start <
            unrecognizedLength (source.drop run.span.start) := by
          rw [stop_eq] at before
          exact Nat.sub_lt_left_of_lt_add after before
        apply isBlank_of_lt_unrecognizedLength _ bounded
        · rw [List.getElem?_drop, Nat.add_sub_cancel' after, found]
        · intro head headFound
          rw [List.head?_drop] at headFound
          cases Option.some.inj (headFound.symm.trans present)
          exact notBlank
  lexeme_classified := by
    intro lexeme member
    have listed := Lexed.mem_lexemes_ofItems.mp member
    rcases tiling.firstAfter_of_mem listed with ⟨_, _, first⟩
    cases first.faithful with
    | lexeme classified token_eq stop_eq =>
        refine ⟨_, classified, token_eq, ?_⟩
        rw [stop_eq, Nat.add_sub_cancel_left]
  skipped_classified := by
    intro run member
    have listed := Lexed.mem_skipped_ofItems.mp member
    rcases tiling.firstAfter_of_mem listed with ⟨_, _, first⟩
    rcases first.opens with ⟨byte, present, _⟩
    cases first.faithful with
    | skipped classified stop_eq =>
        rcases Tokenizer.classify_eq_error_iff.mp classified with
          ⟨_, error_eq⟩
        rw [List.head?_drop] at error_eq
        rw [error_eq] at classified ⊢
        exact ⟨rfl, ⟨byte, present, present⟩, classified⟩

end Tiling

theorem checkLength_of_le {length : Nat} (fits : length ≤ maxOffset) :
    ∃ span, checkLength length = .ok span := by
  rw [checkLength, Span.ofRange, dif_pos (Nat.zero_le _), dif_pos fits]
  exact ⟨_, rfl⟩

/-- A source that is short enough is lexed to the items of its scan. -/
theorem lex_of_le (tokenizer : Tokenizer) {source : Bytes}
    (fits : source.length ≤ maxOffset) :
    lex tokenizer source =
      .ok (Lexed.ofItems (scan tokenizer (Cursor.start source))) := by
  rcases checkLength_of_le fits with ⟨span, checked⟩
  rw [lex, checked]

/-- Whatever lexing gives accounts for the source without loss. -/
theorem lossless_of_lex {tokenizer : Tokenizer} {source : Bytes}
    {lexed : Lexed} (lexes : lex tokenizer source = .ok lexed) :
    Lossless tokenizer source lexed := by
  by_cases fits : source.length ≤ maxOffset
  · rw [lex_of_le tokenizer fits] at lexes
    cases lexes
    exact (tiling_scan_start tokenizer fits).lossless
  · rw [lex, checkLength, Span.ofRange, dif_pos (Nat.zero_le _),
      dif_neg fits] at lexes
    cases lexes

/--
Lexing is lossless and sound.  A source that is short enough is lexed; its
spans are not empty, lie in the source, are disjoint and in order, and leave
out blank bytes only; every lexeme and every skipped run is what
classification says at its start.  The ends of the span of every item are the
offsets between which the lexer read it.
-/
theorem lex_lossless (tokenizer : Tokenizer) {source : Bytes}
    (fits : source.length ≤ maxOffset) :
    (∃ lexed, lex tokenizer source = .ok lexed ∧
        Lossless tokenizer source lexed) ∧
      ∀ cursor item next, Cursor.Reached tokenizer source cursor →
        cursor.step? tokenizer = some (item, next) →
          item.span.start = cursor.skipBlanks.offset ∧
            item.span.stop = next.offset := by
  constructor
  · have tiling : Tiling tokenizer source 0
        (scan tokenizer (Cursor.start source)) :=
      (Cursor.within_start source).scan fits
    exact ⟨_, lex_of_le tokenizer fits, tiling.lossless⟩
  · intro cursor item next reached stepped
    rcases (reached.within fits).step? fits stepped with
      ⟨_, startsAt, stopsAt, _⟩
    exact ⟨startsAt, stopsAt⟩

/--
A source with a token, blank bytes and an unknown word loses nothing, and the
span of its first item ends where the next item is looked for.
-/
theorem lex_lossless_mixed :
    ∃ catalog tokenizer lexed item next,
      Catalog.load [⟨.keyword, "is", [0x69, 0x73], none⟩] = .ok catalog ∧
        Tokenizer.build catalog [⟨.keyword, some Boundary.word⟩] =
          .ok tokenizer ∧
        lex tokenizer [0x69, 0x73, 0x20, 0x0A, 0x69, 0x73, 0x78] =
          .ok lexed ∧
        Lossless tokenizer
          [0x69, 0x73, 0x20, 0x0A, 0x69, 0x73, 0x78] lexed ∧
        (Cursor.start
          [0x69, 0x73, 0x20, 0x0A, 0x69, 0x73, 0x78]).step? tokenizer =
            some (item, next) ∧
        item.span.start = 0 ∧ item.span.stop = next.offset := by
  have runs : ∃ catalog tokenizer item next,
      Catalog.load [⟨.keyword, "is", [0x69, 0x73], none⟩] = .ok catalog ∧
        Tokenizer.build catalog [⟨.keyword, some Boundary.word⟩] =
          .ok tokenizer ∧
        (Cursor.start
          [0x69, 0x73, 0x20, 0x0A, 0x69, 0x73, 0x78]).step? tokenizer =
            some (item, next) :=
    ⟨_, _, _, _, rfl, rfl, rfl⟩
  rcases runs with ⟨catalog, tokenizer, item, next, loaded, built, stepped⟩
  rcases lex_lossless tokenizer
      (show [0x69, 0x73, 0x20, 0x0A, 0x69, 0x73, 0x78].length ≤ maxOffset
        by decide) with ⟨⟨lexed, lexes, lossless⟩, exactEnds⟩
  exact ⟨catalog, tokenizer, lexed, item, next, loaded, built, lexes,
    lossless, stepped, exactEnds _ item next .start stepped⟩

end Lexicon
