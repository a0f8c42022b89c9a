import Lexicon.Proofs.CharacterBoundaries
import Lexicon.Proofs.LinePositions
import Lexicon.Proofs.TextReading
import Lexicon.Report.Listing

/-!
# Messages point at what they report

A listing ends with a message for each run that was skipped.  The line and
the column of a message lead back to the byte of the source at which
classification failed, and no two messages share them: they follow each
other as the runs do.

A message quotes the run.  Bytes that are no text are replaced in it, but
spans do not cut characters, so that of a source which is text the message
quotes the characters themselves.
-/

namespace Lexicon

/-! ## Where messages point -/

/-- The position that the message about a run gives. -/
def SkippedRun.position (run : SkippedRun) (source : Bytes) : Position :=
  Position.ofOffset source run.error.offset

/-- The position is that of a byte on a line of the source. -/
def Position.PointsAt (position : Position) (source : Bytes) (byte : UInt8) :
    Prop :=
  ∃ content, (linesOf source)[position.line - 1]? = some content ∧
    content[position.column - 1]? = some byte

namespace Lossless

variable {tokenizer : Tokenizer} {source : Bytes} {lexed : Lexed}

theorem start_lt_stop_of_mem_skipped
    (lossless : Lossless tokenizer source lexed) {run : SkippedRun}
    (member : run ∈ lexed.skipped) : run.span.start < run.span.stop := by
  apply lossless.nonempty
  exact List.mem_append_right _ (List.mem_map_of_mem member)

theorem start_lt_length (lossless : Lossless tokenizer source lexed)
    {run : SkippedRun} (member : run ∈ lexed.skipped) :
    run.span.start < source.length := by
  rcases lossless.skipped_classified run member with ⟨_, ⟨_, found, _⟩, _⟩
  exact (List.getElem?_eq_some_iff.mp found).1

/-- Messages point at runs in the order of the source. -/
theorem positions_ascending (lossless : Lossless tokenizer source lexed) :
    (lexed.skipped.map (·.position source)).Pairwise Position.Before := by
  apply List.pairwise_map.mpr
  apply lossless.skipped_ascending.imp_of_mem
  intro left right leftMember rightMember ordered
  have nonempty := lossless.start_lt_stop_of_mem_skipped leftMember
  rw [SkippedRun.position, SkippedRun.position,
    (lossless.skipped_classified left leftMember).1,
    (lossless.skipped_classified right rightMember).1]
  exact Position.before_ofOffset (nonempty.trans_le ordered)
    (lossless.start_lt_length rightMember).le

theorem marks_position (lossless : Lossless tokenizer source lexed)
    {run : SkippedRun} (member : run ∈ lexed.skipped) :
    Position.Marks source run.span.start (run.position source) := by
  rw [SkippedRun.position, (lossless.skipped_classified run member).1]
  exact Position.marks_ofOffset (lossless.start_lt_length member).le

/-- A message points at the byte at which classification failed. -/
theorem exists_pointsAt (lossless : Lossless tokenizer source lexed)
    {run : SkippedRun} (member : run ∈ lexed.skipped) :
    ∃ byte, run.error.found = some byte ∧
      (run.position source).PointsAt source byte := by
  rcases lossless.skipped_classified run member with
    ⟨_, ⟨byte, found, reported⟩, _⟩
  have notBlank := lossless.not_blank_of_skipped run member run.span.start
    byte ⟨le_rfl, lossless.start_lt_stop_of_mem_skipped member⟩ found
  refine ⟨byte, reported, ?_⟩
  apply (lossless.marks_position member).exists_line_getElem? found
  -- A line feed is blank, and no byte of a skipped run is.
  rintro rfl
  exact absurd notBlank (by decide)

end Lossless

/-! ## What messages quote -/

/-- The message about a run quotes the characters of its span as they are. -/
def SkippedRun.QuotesSource (run : SkippedRun) (source : Bytes) : Prop :=
  ∃ before quoted after,
    Utf8.encode (before ++ quoted ++ after) = source ∧
      (Utf8.encode before).length = run.span.start ∧
        (Utf8.encode (before ++ quoted)).length = run.span.stop ∧
          Utf8.text (run.bytes source) = String.ofList quoted

/-- Between two places between characters nothing is replaced. -/
theorem SkippedRun.quotesSource_of_isBoundary {run : SkippedRun}
    {source : Bytes} (starts : Utf8.IsBoundary source run.span.start)
    (stops : Utf8.IsBoundary source run.span.stop)
    (ordered : run.span.start ≤ run.span.stop) : run.QuotesSource source := by
  rcases starts.exists_between stops ordered with
    ⟨before, quoted, after, whole, start_eq, stop_eq, extracted⟩
  refine ⟨before, quoted, after, whole, start_eq, stop_eq, ?_⟩
  have bytes_eq : run.bytes source = Utf8.encode quoted := by
    rw [← extracted, List.extract_eq_take_drop, SkippedRun.bytes]
  rw [bytes_eq, Utf8.text, Utf8.decode_encode]

theorem quotesSource_of_mem_scan {tables : List Table} {tokenizer : Tokenizer}
    (built : Tokenizer.ofTables tables = .ok tokenizer) {source : Bytes}
    (valid : Utf8.Valid source) (fits : source.length ≤ maxOffset)
    {run : SkippedRun}
    (listed : .skipped run ∈ scan tokenizer (Cursor.start source)) :
    run.QuotesSource source := by
  have tiling := tiling_scan_start tokenizer fits
  rcases tiling.isBoundary_of_mem built (Utf8.isBoundary_zero valid) listed with
    ⟨starts, stops⟩
  exact SkippedRun.quotesSource_of_isBoundary starts stops
    (tiling.nonempty_of_mem listed).le

/-! ## Listings -/

namespace Listing

/-- The listing says what was lexed, and its messages point at the skipped runs. -/
structure Reports (listing : Listing) (path : String) (source : Bytes)
    (lexed : Lexed) : Prop where
  /-- A line for each lexeme comes before a message for each skipped run. -/
  output_eq : listing.output =
    String.join (lexed.lexemes.map fun lexeme =>
        lexeme.token.text ++ " @ " ++ toString lexeme.span.start ++ ".." ++
          toString lexeme.span.stop ++ "\n") ++
      String.join (lexed.skipped.map fun run =>
        path ++ ":" ++ toString (run.position source).line ++ ":" ++
          toString (run.position source).column ++
            ": unrecognized token `" ++ Utf8.text (run.bytes source) ++ "`\n")
  failed_iff : listing.failed = true ↔ lexed.skipped ≠ []
  lexemes_ascending : lexed.lexemes.Pairwise fun left right =>
    left.span.stop ≤ right.span.start
  positions_ascending :
    (lexed.skipped.map (·.position source)).Pairwise Position.Before
  /-- A position gives the offset of its run: the column counts from the start of the line. -/
  start_eq : ∀ run ∈ lexed.skipped, run.span.start =
    Position.lineStart source (run.position source).line +
      ((run.position source).column - 1)
  /-- A position is that of the byte at which classification failed. -/
  pointsAt : ∀ run ∈ lexed.skipped, ∃ byte, run.error.found = some byte ∧
    (run.position source).PointsAt source byte

theorem reports_ofLexed {tokenizer : Tokenizer} {source : Bytes}
    {lexed : Lexed} (lossless : Lossless tokenizer source lexed)
    (path : String) : (ofLexed path source lexed).Reports path source lexed where
  output_eq := by
    have lines : Lexeme.line = fun lexeme =>
        lexeme.token.text ++ " @ " ++ toString lexeme.span.start ++ ".." ++
          toString lexeme.span.stop ++ "\n" := by
      funext lexeme
      rw [Lexeme.line, Span.text]
      simp only [String.append_assoc]
    rw [ofLexed, lines]
    rfl
  failed_iff := by
    simp [ofLexed, Lexed.hasErrors]
  lexemes_ascending := lossless.lexemes_ascending
  positions_ascending := lossless.positions_ascending
  start_eq := by
    intro run member
    exact ((lossless.marks_position member).toOffset_eq
      (lossless.start_lt_length member).le).symm
  pointsAt := fun _ => lossless.exists_pointsAt

/--
Messages point at the byte that failed.  The listing of a source has a line
for each lexeme and a message for each skipped run, in their order, and it
reports a failure if there is a message.  The positions of messages ascend,
and each leads to the byte at which its run starts.  If the tokenizer is made
of tables and the source is text, a message quotes the characters of its run
and replaces none of them.
-/
theorem ofSource_reports (tokenizer : Tokenizer) (path : String)
    {source : Bytes} (fits : source.length ≤ maxOffset) :
    ∃ lexed, lex tokenizer source = .ok lexed ∧
      (ofSource tokenizer path source).Reports path source lexed ∧
      ∀ tables, Tokenizer.ofTables tables = .ok tokenizer →
        Utf8.Valid source →
          ∀ run ∈ lexed.skipped, run.QuotesSource source := by
  have lexes := lex_of_le tokenizer fits
  refine ⟨_, lexes, ?_, ?_⟩
  · rw [ofSource, lexes]
    exact reports_ofLexed (lossless_of_lex lexes) path
  · intro tables built valid run member
    exact quotesSource_of_mem_scan built valid fits
      (Lexed.mem_skipped_ofItems.mp member)

/-- Two characters of two bytes are skipped, on the first line and on the third. -/
theorem ofSource_reports_accents :
    ∃ tokenizer,
      Tokenizer.ofTables
          [⟨.keyword, "words", "is", .word, .wholeWord⟩] =
        .ok tokenizer ∧
      Utf8.Valid [0xC3, 0xA9, 0x0A, 0x0A, 0x69, 0x73, 0x20, 0xC3, 0xBC] ∧
      (ofSource tokenizer "a"
          [0xC3, 0xA9, 0x0A, 0x0A, 0x69, 0x73, 0x20, 0xC3, 0xBC]).output =
        "Keyword(is) @ 4..6\na:1:1: unrecognized token `é`\n" ++
          "a:3:4: unrecognized token `ü`\n" ∧
      SkippedRun.QuotesSource ⟨⟨7, some 0xC3⟩, Span.clamp 7 9⟩
        [0xC3, 0xA9, 0x0A, 0x0A, 0x69, 0x73, 0x20, 0xC3, 0xBC] := by
  have lexes : ∃ tokenizer,
      Tokenizer.ofTables
          [⟨.keyword, "words", "is", .word, .wholeWord⟩] =
        .ok tokenizer ∧
        lex tokenizer [0xC3, 0xA9, 0x0A, 0x0A, 0x69, 0x73, 0x20, 0xC3, 0xBC] =
          .ok ⟨[⟨.keyword "is", Span.clamp 4 6⟩],
            [⟨⟨0, some 0xC3⟩, Span.clamp 0 2⟩,
              ⟨⟨7, some 0xC3⟩, Span.clamp 7 9⟩]⟩ :=
    ⟨_, rfl, by decide +kernel⟩
  rcases lexes with ⟨tokenizer, built, lexed⟩
  have valid : Utf8.Valid [0xC3, 0xA9, 0x0A, 0x0A, 0x69, 0x73, 0x20, 0xC3, 0xBC] :=
    ⟨"é\n\nis ü".toList, by decide⟩
  have fits : ([0xC3, 0xA9, 0x0A, 0x0A, 0x69, 0x73, 0x20, 0xC3, 0xBC] :
      Bytes).length ≤ maxOffset := by
    decide
  rcases ofSource_reports tokenizer "a" fits with
    ⟨result, sameLexed, reports, quotes⟩
  cases lexed.symm.trans sameLexed
  refine ⟨tokenizer, built, valid, ?_, ?_⟩
  · rw [reports.output_eq]
    decide +kernel
  · apply quotes _ built valid
    simp

end Listing

end Lexicon
