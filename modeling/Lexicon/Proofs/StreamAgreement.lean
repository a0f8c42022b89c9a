import Lexicon.Proofs.LosslessLexing
import Lexicon.Stream

/-!
# Streams and whole runs

A stream stops where lexing goes on: at the first place without a token it
gives the error and nothing after it, while lexing skips a run and recovers.
Up to that place both read the same items from the same cursors.  A stream
therefore gives the lexemes of a run up to its first skipped run, followed by
the error of that run.

The items of a run are in the order of the source, so these lexemes are told
from the later ones by their spans alone.
-/

namespace Lexicon

/-! ## The two drivers in step -/

/-- What a stream gives of the items of a run. -/
def streamedItems : List Item → List StreamItem
  | [] => []
  | .lexeme found :: items => .ok found :: streamedItems items
  | .skipped run :: _ => [.error run.error]

namespace Stream

variable {tokenizer : Tokenizer} {cursor place : Cursor} {item : Item}

/-- The stream that is at a cursor and has not ended. -/
def running (tokenizer : Tokenizer) (cursor : Cursor) : Stream :=
  ⟨tokenizer, cursor, false⟩

/-- The stream that has ended at a cursor. -/
def ended (tokenizer : Tokenizer) (cursor : Cursor) : Stream :=
  ⟨tokenizer, cursor, true⟩

theorem next_ended : (ended tokenizer cursor).next = (none, ended tokenizer cursor) :=
  rfl

theorem next_running_of_step?_eq_none
    (stepped : cursor.step? tokenizer = none) :
    (running tokenizer cursor).next =
      (none, ended tokenizer cursor.skipBlanks) := by
  have atEnd : cursor.skipBlanks.rest.isEmpty = true := by
    rw [Cursor.rest_skipBlanks, List.isEmpty_iff,
      List.dropWhile_eq_nil_iff]
    exact Cursor.step?_eq_none_iff.mp stepped
  rw [next, running, if_neg Bool.false_ne_true]
  exact if_pos atEnd

/--
A stream takes a step with the lexer.  It gives the lexeme that the lexer
reads, or it gives the error of the run that the lexer skips and ends before
that run.
-/
theorem next_running_of_step?_eq_some
    (stepped : cursor.step? tokenizer = some (item, place)) :
    (running tokenizer cursor).next =
      match item with
      | .lexeme found => (some (.ok found), running tokenizer place)
      | .skipped run =>
          (some (.error run.error), ended tokenizer cursor.skipBlanks) := by
  rcases Cursor.eq_of_step? stepped with ⟨remains, reads⟩
  have goesOn : ¬ cursor.skipBlanks.rest.isEmpty = true := by
    rw [List.isEmpty_iff]
    exact remains
  rw [next, running, if_neg Bool.false_ne_true]
  apply (if_neg goesOn).trans
  cases outcome : tokenizer.classify cursor.skipBlanks.offset
      cursor.skipBlanks.rest with
  | ok recognition =>
      rw [Cursor.read_of_classify_eq_ok outcome] at reads
      cases reads
      rfl
  | error error =>
      rw [Cursor.read_of_classify_eq_error outcome] at reads
      cases reads
      rfl

/-- A stream gives what there is of a run up to its first error. -/
theorem drain_running (tokenizer : Tokenizer) (cursor : Cursor) :
    (running tokenizer cursor).drain.1 =
      streamedItems (scan tokenizer cursor) := by
  fun_induction scan tokenizer cursor with
  | case1 cursor stepped =>
      rw [drain_of_next_eq_none (next_running_of_step?_eq_none stepped)]
      rfl
  | case2 cursor item place stepped induction =>
      have given := next_running_of_step?_eq_some stepped
      cases item with
      | lexeme found =>
          rw [drain_of_next_eq_some given, induction]
          rfl
      | skipped run =>
          rw [drain_of_next_eq_some given,
            drain_of_next_eq_none next_ended]
          rfl

/-- There is a stream of every source that is short enough, and it is at its start. -/
theorem ofSource_of_le (tokenizer : Tokenizer) {source : Bytes}
    (fits : source.length ≤ maxOffset) :
    ofSource tokenizer source =
      .ok (running tokenizer (Cursor.start source)) := by
  rcases checkLength_of_le fits with ⟨span, checked⟩
  rw [ofSource, checked]
  rfl

end Stream

/-! ## The items before the first error -/

theorem streamedItems_of_skipped_eq_nil {items : List Item}
    (clean : (Lexed.ofItems items).skipped = []) :
    streamedItems items = (Lexed.ofItems items).lexemes.map .ok := by
  induction items with
  | nil => rfl
  | cons item items induction =>
      cases item with
      | lexeme found =>
          rw [Lexed.ofItems_lexeme_cons, streamedItems, induction clean]
          rfl
      | skipped run => cases clean

/-- The lexemes before the first error are those that end where it starts or earlier. -/
theorem streamedItems_of_skipped_eq_cons {items : List Item}
    (nonempty : ∀ item ∈ items, item.span.start < item.span.stop)
    (ascending : items.Pairwise fun left right =>
      left.span.stop ≤ right.span.start)
    {first : SkippedRun} {others : List SkippedRun}
    (failed : (Lexed.ofItems items).skipped = first :: others) :
    streamedItems items =
      ((Lexed.ofItems items).lexemes.filter fun lexeme =>
          lexeme.span.stop ≤ first.span.start).map .ok ++
        [.error first.error] := by
  induction items with
  | nil => cases failed
  | cons item items induction =>
      rcases List.pairwise_cons.mp ascending with ⟨behind, laterAscending⟩
      have laterNonempty := fun later member =>
        nonempty later (List.mem_cons_of_mem item member)
      cases item with
      | lexeme found =>
          have firstListed : .skipped first ∈ items := by
            apply Lexed.mem_skipped_ofItems.mp
            rw [Lexed.ofItems_lexeme_cons] at failed
            rw [failed]
            exact List.mem_cons_self
          have kept : found.span.stop ≤ first.span.start :=
            behind _ firstListed
          rw [Lexed.ofItems_lexeme_cons, streamedItems,
            induction laterNonempty laterAscending failed]
          simp [kept]
      | skipped run =>
          cases failed
          have noneKept : (Lexed.ofItems items).lexemes.filter
              (fun lexeme => lexeme.span.stop ≤ first.span.start) = [] := by
            apply List.filter_eq_nil_iff.mpr
            intro lexeme member
            have listed := Lexed.mem_lexemes_ofItems.mp member
            have ordered : first.span.stop ≤ lexeme.span.start :=
              behind _ listed
            have firstNonempty : first.span.start < first.span.stop :=
              nonempty _ List.mem_cons_self
            have endsLater : first.span.start < lexeme.span.stop :=
              firstNonempty.trans_le
                (ordered.trans (laterNonempty _ listed).le)
            simpa using endsLater
          rw [Lexed.ofItems_skipped_cons, noneKept]
          rfl

/-! ## Collecting a stream -/

/-- What is collected of a run: all lexemes, or the first error. -/
theorem mapM_streamedItems (items : List Item) :
    (streamedItems items).mapM id =
      match (Lexed.ofItems items).skipped with
      | [] => .ok (Lexed.ofItems items).lexemes
      | first :: _ => .error first.error := by
  induction items with
  | nil => rfl
  | cons item items induction =>
      cases item with
      | lexeme found =>
          rw [streamedItems, List.mapM_cons, induction,
            Lexed.ofItems_lexeme_cons]
          cases (Lexed.ofItems items).skipped with
          | nil => rfl
          | cons first others => rfl
      | skipped run => rfl

theorem Stream.exists_collect_running_iff (tokenizer : Tokenizer)
    (cursor : Cursor) :
    (∃ lexemes, (running tokenizer cursor).collect.1 = .ok lexemes) ↔
      (Lexed.ofItems (scan tokenizer cursor)).hasErrors = false := by
  have collected : (running tokenizer cursor).collect.1 =
      (streamedItems (scan tokenizer cursor)).mapM id :=
    congrArg (List.mapM id) (drain_running tokenizer cursor)
  rw [collected, mapM_streamedItems, Lexed.hasErrors]
  cases (Lexed.ofItems (scan tokenizer cursor)).skipped with
  | nil => simp
  | cons first others => simp

/--
The stream of a source and its whole lexing agree.  Without errors a stream
gives the lexemes.  Otherwise it gives the lexemes that end no later than the
first skipped run starts, and then the error of that run.  All lexemes can be
collected from the stream exactly if lexing skips nothing.
-/
theorem drain_eq_lexemes_before_error (tokenizer : Tokenizer)
    {source : Bytes} (fits : source.length ≤ maxOffset) :
    ∃ stream lexed, Stream.ofSource tokenizer source = .ok stream ∧
      lex tokenizer source = .ok lexed ∧
        (lexed.skipped = [] →
          stream.drain.1 = lexed.lexemes.map .ok) ∧
        (∀ first others, lexed.skipped = first :: others →
          stream.drain.1 =
            (lexed.lexemes.filter fun lexeme =>
                lexeme.span.stop ≤ first.span.start).map .ok ++
              [.error first.error]) ∧
        ((∃ lexemes, stream.collect.1 = .ok lexemes) ↔
          lexed.hasErrors = false) := by
  have tiling := tiling_scan_start tokenizer fits
  refine ⟨_, _, Stream.ofSource_of_le tokenizer fits,
    lex_of_le tokenizer fits, ?_, ?_, ?_⟩
  · intro clean
    rw [Stream.drain_running, streamedItems_of_skipped_eq_nil clean]
  · intro first others failed
    rw [Stream.drain_running, streamedItems_of_skipped_eq_cons
      (fun _ => tiling.nonempty_of_mem) tiling.ascending failed]
  · exact Stream.exists_collect_running_iff tokenizer _

/-- The second word of a source is unknown, and the stream ends with it. -/
theorem drain_eq_lexemes_before_error_words :
    ∃ catalog tokenizer stream,
      Catalog.load [⟨.keyword, "is", [0x69, 0x73], none⟩] = .ok catalog ∧
        Tokenizer.build catalog [⟨.keyword, none⟩] = .ok tokenizer ∧
        Stream.ofSource tokenizer [0x69, 0x73, 0x0A, 0x78, 0x20, 0x69, 0x73] =
          .ok stream ∧
        stream.drain.1 =
          [.ok ⟨.keyword "is", Span.clamp 0 2⟩, .error ⟨3, some 0x78⟩] := by
  have lexes : ∃ catalog tokenizer,
      Catalog.load [⟨.keyword, "is", [0x69, 0x73], none⟩] = .ok catalog ∧
        Tokenizer.build catalog [⟨.keyword, none⟩] = .ok tokenizer ∧
        lex tokenizer [0x69, 0x73, 0x0A, 0x78, 0x20, 0x69, 0x73] =
          .ok ⟨[⟨.keyword "is", Span.clamp 0 2⟩,
              ⟨.keyword "is", Span.clamp 5 7⟩],
            [⟨⟨3, some 0x78⟩, Span.clamp 3 4⟩]⟩ :=
    ⟨_, _, rfl, rfl, by decide +kernel⟩
  rcases lexes with ⟨catalog, tokenizer, loaded, built, lexed⟩
  have fits : ([0x69, 0x73, 0x0A, 0x78, 0x20, 0x69, 0x73] : Bytes).length ≤
      maxOffset := by
    decide
  rcases drain_eq_lexemes_before_error tokenizer fits with
    ⟨stream, result, streams, sameLexed, _, failed, _⟩
  cases lexed.symm.trans sameLexed
  exact ⟨catalog, tokenizer, stream, loaded, built, streams, failed _ _ rfl⟩

end Lexicon
