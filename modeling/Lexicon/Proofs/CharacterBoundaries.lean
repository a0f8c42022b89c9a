import Lexicon.Proofs.WordRuns

/-!
# Spans do not cut characters

The lexer works on bytes, and a source need not be text.  If it is, every
span starts and ends between two characters.  Three facts keep the lexer at
such places: blank bytes and word bytes are characters of one byte, literals
of tables are made of whole characters, and a run that is skipped for a byte
of another kind goes on over the bytes that continue its character.

UTF-8 is a prefix code, and the bytes that continue a character differ from
those that open one.  The first gives the places after literals, the second
the places after skipped characters.
-/

namespace Lexicon

/-! ## Characters as bytes -/

theorem Byte.isContinuation_iff {byte : UInt8} :
    isContinuation byte = true ↔ 0x80 ≤ byte.toNat ∧ byte.toNat < 0xC0 := by
  have every : (all.all fun byte => isContinuation byte ==
      (decide (0x80 ≤ byte.toNat) && decide (byte.toNat < 0xC0))) = true := by
    decide +kernel
  have here := of_all_eq_true every byte
  rw [beq_iff_eq.mp here, Bool.and_eq_true, decide_eq_true_eq, decide_eq_true_eq]

namespace Utf8

/-- A byte opens every character, and the other bytes continue it. -/
theorem exists_utf8EncodeChar_eq_cons (char : Char) :
    ∃ first rest, String.utf8EncodeChar char = first :: rest ∧
      Byte.isContinuation first = false ∧
        ∀ byte ∈ rest, Byte.isContinuation byte = true := by
  simp only [← Bool.not_eq_true, Byte.isContinuation_iff]
  fun_cases String.utf8EncodeChar char
  all_goals
    refine ⟨_, _, rfl, ?_⟩
    simp only [List.forall_mem_cons, List.not_mem_nil, false_implies,
      implies_true, and_true, UInt8.toNat_ofNat']
    omega

/-- A character that starts with a byte of ASCII has no other byte. -/
theorem utf8EncodeChar_eq_singleton {char : Char} {first : UInt8}
    {rest : Bytes} (encoded : String.utf8EncodeChar char = first :: rest)
    (ascii : Byte.isAscii first = true) :
    String.utf8EncodeChar char = [first] := by
  by_cases single : char.val.toNat ≤ 0x7F
  · rw [String.utf8EncodeChar, if_pos single] at encoded ⊢
    cases encoded
    rfl
  · have wide := le_toNat_of_mem_utf8EncodeChar single first
      (by rw [encoded]; exact List.mem_cons_self)
    have small : first.toNat < 0x80 := by
      simpa [Byte.isAscii, UInt8.lt_iff_toNat_lt] using ascii
    exact absurd small (Nat.not_lt.mpr wide)

/-- UTF-8 is a prefix code. -/
theorem prefix_of_encode_prefix {left right : List Char}
    (starts : encode left <+: encode right) : left <+: right := by
  rcases starts with ⟨rest, whole⟩
  apply List.isPrefix_of_utf8Encode_append_eq_utf8Encode rest.toByteArray
  rw [List.utf8Encode, List.utf8Encode, ← List.toByteArray_append]
  exact congrArg List.toByteArray whole

theorem takeWhile_isContinuation_encode (text : List Char) :
    (encode text).takeWhile Byte.isContinuation = [] := by
  cases text with
  | nil => rfl
  | cons char text =>
      rcases exists_utf8EncodeChar_eq_cons char with
        ⟨first, rest, encoded, opens, _⟩
      rw [encode_cons, encoded, List.cons_append,
        List.takeWhile_cons_of_neg (ne_true_of_eq_false opens)]

/-- Of a text that starts with no word byte, one character is skipped. -/
theorem unrecognizedLength_encode {char : Char} {text : List Char}
    {first : UInt8}
    (opens : (encode (char :: text)).head? = some first)
    (notWord : Byte.isWord first = false) :
    unrecognizedLength (encode (char :: text)) =
      (String.utf8EncodeChar char).length := by
  rcases exists_utf8EncodeChar_eq_cons char with
    ⟨head, rest, encoded, _, continues⟩
  rw [encode_cons, encoded, List.cons_append] at opens ⊢
  cases opens
  rw [unrecognizedLength_cons, continuesRun, notWord,
    if_neg Bool.false_ne_true, List.takeWhile_append_of_pos continues,
    takeWhile_isContinuation_encode, List.append_nil, List.length_cons,
    Nat.add_comm]

/-! ## Places between characters -/

theorem isBoundary_zero {bytes : Bytes} (valid : Valid bytes) :
    IsBoundary bytes 0 := by
  rcases valid with ⟨text, encoded⟩
  exact ⟨[], text, encoded, rfl⟩

namespace IsBoundary

variable {bytes : Bytes} {offset : Nat}

/-- What follows a place between characters is text. -/
theorem exists_drop_eq (boundary : IsBoundary bytes offset) :
    ∃ after, bytes.drop offset = encode after := by
  rcases boundary with ⟨before, after, rfl, rfl⟩
  exact ⟨after, by rw [encode_append, List.drop_left]⟩

/-- The characters that follow a place lead to another one. -/
theorem add (boundary : IsBoundary bytes offset) {front : List Char}
    (starts : encode front <+: bytes.drop offset) :
    IsBoundary bytes (offset + (encode front).length) := by
  rcases boundary with ⟨before, after, rfl, rfl⟩
  rw [encode_append, List.drop_left] at starts
  rcases prefix_of_encode_prefix starts with ⟨back, rfl⟩
  refine ⟨before ++ front, back, ?_, ?_⟩
  · rw [List.append_assoc]
  · rw [encode_append, List.length_append]

theorem succ_of_isAscii (boundary : IsBoundary bytes offset)
    {byte : UInt8} (found : bytes[offset]? = some byte)
    (ascii : Byte.isAscii byte = true) : IsBoundary bytes (offset + 1) := by
  rcases boundary.exists_drop_eq with ⟨after, encoded⟩
  rw [← List.head?_drop, encoded] at found
  cases after with
  | nil => cases found
  | cons char text =>
      rcases exists_utf8EncodeChar_eq_cons char with
        ⟨first, rest, split, _⟩
      rw [encode_cons, split, List.cons_append] at found
      cases found
      have single : encode [char] = [byte] := by
        rw [encode_cons, encode_nil, List.append_nil,
          utf8EncodeChar_eq_singleton split ascii]
      have starts : encode [char] <+: bytes.drop offset := by
        rw [encoded]
        exact ⟨encode text, by simp⟩
      have next := boundary.add starts
      rwa [single] at next

/-- Bytes of ASCII lead from one place between characters to another. -/
theorem of_isAscii_between {start stop : Nat}
    (boundary : IsBoundary bytes start) (ordered : start ≤ stop)
    (ascii : ∀ position, start ≤ position → position < stop →
      ∃ byte, bytes[position]? = some byte ∧ Byte.isAscii byte = true) :
    IsBoundary bytes stop := by
  induction stop, ordered using Nat.le_induction with
  | base => exact boundary
  | succ stop ordered induction =>
      have here := induction fun position after before =>
        ascii position after (before.trans (Nat.lt_succ_self stop))
      rcases ascii stop ordered (Nat.lt_succ_self stop) with
        ⟨byte, found, isAscii⟩
      exact here.succ_of_isAscii found isAscii

/-- Two places between characters part the text into three. -/
theorem exists_between {start stop : Nat}
    (startBoundary : IsBoundary bytes start)
    (stopBoundary : IsBoundary bytes stop) (ordered : start ≤ stop) :
    ∃ before between after, encode (before ++ between ++ after) = bytes ∧
      (encode before).length = start ∧
        (encode (before ++ between)).length = stop ∧
          bytes.extract start stop = encode between := by
  rcases startBoundary with ⟨before, after, rfl, rfl⟩
  rcases stopBoundary with ⟨front, back, same, rfl⟩
  have beforeStarts : encode before <+: encode (before ++ after) := by
    rw [encode_append]
    exact List.prefix_append _ _
  have frontStarts : encode front <+: encode (before ++ after) := by
    rw [← same, encode_append]
    exact List.prefix_append _ _
  have starts : encode before <+: encode front :=
    List.prefix_of_prefix_length_le beforeStarts frontStarts ordered
  rcases prefix_of_encode_prefix starts with ⟨between, rfl⟩
  refine ⟨before, between, back, same, rfl, rfl, ?_⟩
  rw [List.extract_eq_take_drop, ← same]
  simp

/-- The bytes between two places between characters are text. -/
theorem valid_extract {start stop : Nat}
    (startBoundary : IsBoundary bytes start)
    (stopBoundary : IsBoundary bytes stop) (ordered : start ≤ stop) :
    Valid (bytes.extract start stop) := by
  rcases startBoundary.exists_between stopBoundary ordered with
    ⟨_, between, _, _, _, _, extracted⟩
  exact ⟨between, extracted.symm⟩

end IsBoundary

end Utf8

/-! ## One item -/

section Tables

variable {tables : List Table} {tokenizer : Tokenizer} {source : Bytes}

/-- Where one character is skipped, the span holds that character. -/
theorem extract_eq_of_unrecognized {span : Span} {first : UInt8}
    (boundary : Utf8.IsBoundary source span.start)
    (opens : source[span.start]? = some first)
    (notWord : Byte.isWord first = false)
    (stop_eq : span.stop =
      span.start + unrecognizedLength (source.drop span.start)) :
    ∃ char, source.extract span.start span.stop = Utf8.encode [char] ∧
      span.stop = span.start + (Utf8.encode [char]).length ∧
      Utf8.encode [char] <+: source.drop span.start := by
  rcases boundary.exists_drop_eq with ⟨after, encoded⟩
  rw [← List.head?_drop, encoded] at opens
  cases after with
  | nil => cases opens
  | cons char text =>
      have single :
          Utf8.encode [char] = String.utf8EncodeChar char := by simp
      have starts : Utf8.encode [char] <+: source.drop span.start := by
        rw [encoded]
        exact ⟨Utf8.encode text, by simp⟩
      rw [encoded, Utf8.unrecognizedLength_encode opens notWord, ← single]
        at stop_eq
      refine ⟨char, ?_, stop_eq, starts⟩
      rw [List.extract_eq_take_drop, stop_eq, Nat.add_sub_cancel_left]
      exact (List.prefix_iff_eq_take.mp starts).symm

/-- What is skipped is a word to its end, or one character without word bytes. -/
theorem endsWord_or_character_of_unrecognized {span : Span} {first : UInt8}
    (boundary : Utf8.IsBoundary source span.start)
    (opens : source[span.start]? = some first)
    (stop_eq : span.stop =
      span.start + unrecognizedLength (source.drop span.start)) :
    span.EndsWord source ∨
      span.HoldsNoWord source ∧
        ∃ char, source.extract span.start span.stop = Utf8.encode [char] ∧
          span.stop = span.start + (Utf8.encode [char]).length ∧
          Utf8.encode [char] <+: source.drop span.start := by
  cases word : Byte.isWord first with
  | true => exact Or.inl (Span.endsWord_of_unrecognized opens stop_eq word)
  | false =>
      exact Or.inr ⟨Span.holdsNoWord_of_unrecognized opens stop_eq word,
        extract_eq_of_unrecognized boundary opens word stop_eq⟩

theorem FirstAfter.isBoundary_start {offset : Nat} {item : Item}
    (first : FirstAfter tokenizer source offset item)
    (boundary : Utf8.IsBoundary source offset) :
    Utf8.IsBoundary source item.span.start := by
  apply boundary.of_isAscii_between first.offset_le
  intro position after before
  have inside : position < source.length :=
    before.trans (first.nonempty.trans_le first.inside)
  have found := List.getElem?_eq_getElem inside
  exact ⟨_, found, Byte.isAscii_of_isBlank
    (first.blank position _ after before found)⟩

theorem Faithful.isBoundary_stop {item : Item}
    (built : Tokenizer.ofTables tables = .ok tokenizer)
    (faithful : Faithful tokenizer source item)
    (opens : ∃ first, source[item.span.start]? = some first)
    (ordered : item.span.start ≤ item.span.stop)
    (inside : item.span.stop ≤ source.length)
    (boundary : Utf8.IsBoundary source item.span.start) :
    Utf8.IsBoundary source item.span.stop := by
  cases faithful with
  | @lexeme lexeme recognition classified token_eq stop_eq =>
      rcases Tokenizer.declares_of_classify built classified with
        ⟨_, table, _, entry, _, declares, _, sameLength, whole, _⟩
      rcases declares.isField with ⟨field, _, _, literal⟩
      rw [literal] at sameLength whole
      have next : Utf8.IsBoundary source
          (lexeme.span.start + (Utf8.encode field).length) :=
        boundary.add ⟨_, whole.symm⟩
      rwa [← sameLength, ← stop_eq] at next
  | @skipped run classified stop_eq =>
      rcases opens with ⟨first, present⟩
      rcases endsWord_or_character_of_unrecognized boundary present
        stop_eq with ends | ⟨_, char, _, stopsAt, starts⟩
      · apply boundary.of_isAscii_between ordered
        intro position after before
        have found := List.getElem?_eq_getElem (before.trans_le inside)
        exact ⟨_, found, Byte.isAscii_of_isWord
          (ends.word position _ ⟨after, before⟩ found)⟩
      · have next := boundary.add starts
        rwa [← stopsAt] at next

/-- Every item starts and ends between characters, if the place before it is one. -/
theorem FirstAfter.isBoundary {offset : Nat} {item : Item}
    (built : Tokenizer.ofTables tables = .ok tokenizer)
    (first : FirstAfter tokenizer source offset item)
    (boundary : Utf8.IsBoundary source offset) :
    Utf8.IsBoundary source item.span.start ∧
      Utf8.IsBoundary source item.span.stop := by
  have starts := first.isBoundary_start boundary
  rcases first.opens with ⟨opening, present, _⟩
  exact ⟨starts, first.faithful.isBoundary_stop built ⟨opening, present⟩
    first.nonempty.le first.inside starts⟩

/-- In a tiling that starts between characters, no span cuts one. -/
theorem Tiling.isBoundary_of_mem {offset : Nat} {items : List Item}
    (built : Tokenizer.ofTables tables = .ok tokenizer)
    (tiling : Tiling tokenizer source offset items)
    (boundary : Utf8.IsBoundary source offset) {item : Item}
    (member : item ∈ items) :
    Utf8.IsBoundary source item.span.start ∧
      Utf8.IsBoundary source item.span.stop := by
  have preserved : ∀ offset item, FirstAfter tokenizer source offset item →
      Utf8.IsBoundary source offset →
        Utf8.IsBoundary source item.span.stop :=
    fun _ _ first here => (first.isBoundary built here).2
  rcases tiling.firstAfter_of_invariant boundary preserved member with
    ⟨before, here, first⟩
  exact first.isBoundary built here

end Tables

/-! ## Whole sources -/

/--
Spans do not cut characters.  If a source is text, both ends of the span of
every lexeme and of every skipped run lie between characters, so that the
bytes of the span are text.  A skipped run consists of word bytes and ends
where they end, or it is a single character without word bytes.
-/
theorem lex_isBoundary {tables : List Table} {tokenizer : Tokenizer}
    (built : Tokenizer.ofTables tables = .ok tokenizer) {source : Bytes}
    (valid : Utf8.Valid source) (fits : source.length ≤ maxOffset) :
    ∃ lexed, lex tokenizer source = .ok lexed ∧
      (∀ span ∈ lexed.spans, span.start < span.stop ∧
        Utf8.IsBoundary source span.start ∧
          Utf8.IsBoundary source span.stop ∧
          Utf8.Valid (source.extract span.start span.stop)) ∧
      ∀ run ∈ lexed.skipped,
        run.span.EndsWord source ∨
          run.span.HoldsNoWord source ∧
            ∃ char, source.extract run.span.start run.span.stop =
              Utf8.encode [char] := by
  have tiling := tiling_scan_start tokenizer fits
  -- The invariant of the run: an item is looked for between characters.
  have placed : ∀ item ∈ scan tokenizer (Cursor.start source),
      ∃ before, Utf8.IsBoundary source before ∧
        FirstAfter tokenizer source before item := by
    intro item listed
    apply tiling.firstAfter_of_invariant (Utf8.isBoundary_zero valid) _ listed
    intro offset head first boundary
    exact (first.isBoundary built boundary).2
  refine ⟨_, lex_of_le tokenizer fits, ?_, ?_⟩
  · intro span member
    rcases Lexed.mem_spans_ofItems.mp member with ⟨item, listed, rfl⟩
    rcases placed item listed with ⟨before, boundary, first⟩
    rcases first.isBoundary built boundary with ⟨starts, stops⟩
    exact ⟨first.nonempty, starts, stops,
      starts.valid_extract stops first.nonempty.le⟩
  · intro run member
    rcases placed (.skipped run) (Lexed.mem_skipped_ofItems.mp member) with
      ⟨before, boundary, first⟩
    rcases first.opens with ⟨opening, present, _⟩
    cases first.faithful with
    | skipped classified stop_eq =>
        rcases endsWord_or_character_of_unrecognized
          (first.isBoundary_start boundary) present stop_eq with
          ends | ⟨noWord, char, spelled, _⟩
        · exact Or.inl ends
        · exact Or.inr ⟨noWord, char, spelled⟩

/-- A character of two bytes and a point are skipped, and a word is read between them. -/
theorem lex_isBoundary_accent :
    ∃ tokenizer,
      Tokenizer.ofTables
          [⟨.keyword, "words", "is", .word, .wholeWord⟩] =
        .ok tokenizer ∧
        lex tokenizer [0xC3, 0xA9, 0x69, 0x73, 0x2E] =
          .ok ⟨[⟨.keyword "is", Span.clamp 2 4⟩],
            [⟨⟨0, some 0xC3⟩, Span.clamp 0 2⟩,
              ⟨⟨4, some 0x2E⟩, Span.clamp 4 5⟩]⟩ ∧
        Utf8.IsBoundary [0xC3, 0xA9, 0x69, 0x73, 0x2E] 2 ∧
        Utf8.Valid
          (([0xC3, 0xA9, 0x69, 0x73, 0x2E] : Bytes).extract 0 2) := by
  have lexes : ∃ tokenizer,
      Tokenizer.ofTables
          [⟨.keyword, "words", "is", .word, .wholeWord⟩] =
        .ok tokenizer ∧
        lex tokenizer [0xC3, 0xA9, 0x69, 0x73, 0x2E] =
          .ok ⟨[⟨.keyword "is", Span.clamp 2 4⟩],
            [⟨⟨0, some 0xC3⟩, Span.clamp 0 2⟩,
              ⟨⟨4, some 0x2E⟩, Span.clamp 4 5⟩]⟩ :=
    ⟨_, rfl, by decide +kernel⟩
  rcases lexes with ⟨tokenizer, built, lexed⟩
  have valid : Utf8.Valid [0xC3, 0xA9, 0x69, 0x73, 0x2E] :=
    ⟨['é', 'i', 's', '.'], by decide⟩
  have fits : ([0xC3, 0xA9, 0x69, 0x73, 0x2E] : Bytes).length ≤
      maxOffset := by
    decide
  rcases lex_isBoundary built valid fits with
    ⟨result, sameLexed, spans, _⟩
  cases lexed.symm.trans sameLexed
  have member : Span.clamp 0 2 ∈ Lexed.spans
      ⟨[⟨.keyword "is", Span.clamp 2 4⟩],
        [⟨⟨0, some 0xC3⟩, Span.clamp 0 2⟩,
          ⟨⟨4, some 0x2E⟩, Span.clamp 4 5⟩]⟩ := by
    simp [Lexed.spans]
  rcases spans (Span.clamp 0 2) member with ⟨_, _, stops, text⟩
  exact ⟨tokenizer, built, lexed, stops, text⟩

end Lexicon
