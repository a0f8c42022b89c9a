import Lexicon.Lexing
import Lexicon.Proofs.Classification
import Mathlib.Data.List.TakeWhile

/-!
# Items tile a source

The lexer reads a source from its start to its end.  This module says what
one step does and derives from it what a whole run does.  The items of a run
follow one another in the source, blank bytes alone lie between them, and
each of them records what classification says at its place.

Offsets of a cursor are not bounded, while those of a span are.  As long as a
source is short enough to be lexed, the ends of a span are the offsets at
which the item was read.
-/

namespace Lexicon

/-! ## Runs at the start of a list -/

theorem drop_length_takeWhile {α : Type} (holds : α → Bool)
    (list : List α) :
    list.drop (list.takeWhile holds).length = list.dropWhile holds := by
  calc
    list.drop (list.takeWhile holds).length =
        (list.takeWhile holds ++ list.dropWhile holds).drop
          (list.takeWhile holds).length := by
      rw [List.takeWhile_append_dropWhile]
    _ = list.dropWhile holds := List.drop_left

theorem holds_of_lt_length_takeWhile {α : Type} {holds : α → Bool}
    {list : List α} {index : Nat} {element : α}
    (inside : index < (list.takeWhile holds).length)
    (found : list[index]? = some element) : holds element = true := by
  rw [← List.takeWhile_append_dropWhile (p := holds) (l := list),
    List.getElem?_append_left inside] at found
  exact List.mem_takeWhile_imp (List.mem_of_getElem? found)

/-! ## Skipped runs -/

/-- The bytes that continue a skipped run with a given first byte. -/
def continuesRun (first : UInt8) : UInt8 → Bool :=
  if Byte.isWord first then Byte.isWord else Byte.isContinuation

theorem continuesRun_of_isBlank (first : UInt8) {byte : UInt8}
    (blank : Byte.isBlank byte = true) :
    continuesRun first byte = false := by
  rw [continuesRun]
  split
  case isTrue => exact Byte.isWord_of_isBlank blank
  case isFalse => exact Byte.isContinuation_of_isBlank blank

theorem unrecognizedLength_cons (byte : UInt8) (rest : Bytes) :
    unrecognizedLength (byte :: rest) =
      1 + (rest.takeWhile (continuesRun byte)).length := by
  rw [unrecognizedLength, continuesRun]
  split
  case isTrue => rfl
  case isFalse => rfl

theorem unrecognizedLength_le (input : Bytes) :
    unrecognizedLength input ≤ input.length := by
  cases input with
  | nil => exact Nat.le_refl 0
  | cons byte rest =>
      rw [unrecognizedLength_cons, List.length_cons, Nat.add_comm]
      apply Nat.succ_le_succ
      exact (List.takeWhile_prefix _).length_le

/-- The bytes of a skipped run after the first one are those that continue it. -/
theorem continuesRun_of_lt_unrecognizedLength {input : Bytes}
    {first byte : UInt8} {index : Nat} (opens : input.head? = some first)
    (inside : index + 1 < unrecognizedLength input)
    (found : input[index + 1]? = some byte) :
    continuesRun first byte = true := by
  cases input with
  | nil => cases opens
  | cons head rest =>
      cases opens
      rw [unrecognizedLength_cons, Nat.add_comm] at inside
      rw [List.getElem?_cons_succ] at found
      exact holds_of_lt_length_takeWhile
        (Nat.lt_of_add_lt_add_left inside) found

/-- No byte of a skipped run is blank, unless the first one is. -/
theorem isBlank_of_lt_unrecognizedLength {input : Bytes} {byte : UInt8}
    {index : Nat}
    (first : ∀ head, input.head? = some head → Byte.isBlank head = false)
    (inside : index < unrecognizedLength input)
    (found : input[index]? = some byte) : Byte.isBlank byte = false := by
  cases input with
  | nil => cases found
  | cons head rest =>
      cases index with
      | zero => exact first byte found
      | succ index =>
          have holds := continuesRun_of_lt_unrecognizedLength
            List.head?_cons inside found
          cases blank : Byte.isBlank byte with
          | true =>
              rw [continuesRun_of_isBlank head blank] at holds
              cases holds
          | false => rfl

theorem isWord_of_continuesRun {first byte : UInt8}
    (continues : continuesRun first byte = true) :
    Byte.isWord byte = Byte.isWord first := by
  rw [continuesRun] at continues
  split at continues
  case isTrue word => rw [continues, word]
  case isFalse notWord =>
    rw [Byte.isWord_of_isContinuation continues,
      eq_false_of_ne_true notWord]

/-- A skipped run consists of word bytes, or it holds none. -/
theorem isWord_of_lt_unrecognizedLength {input : Bytes}
    {first byte : UInt8} {index : Nat} (opens : input.head? = some first)
    (inside : index < unrecognizedLength input)
    (found : input[index]? = some byte) :
    Byte.isWord byte = Byte.isWord first := by
  cases index with
  | zero =>
      rw [← List.head?_eq_getElem?, opens] at found
      cases found
      rfl
  | succ index =>
      exact isWord_of_continuesRun
        (continuesRun_of_lt_unrecognizedLength opens inside found)

/-- A skipped run of word bytes goes on as long as there are word bytes. -/
theorem isWord_of_getElem?_unrecognizedLength {input : Bytes}
    {first byte : UInt8} (opens : input.head? = some first)
    (word : Byte.isWord first = true)
    (found : input[unrecognizedLength input]? = some byte) :
    Byte.isWord byte = false := by
  cases input with
  | nil => cases opens
  | cons head rest =>
      cases opens
      have stops := List.head?_dropWhile_not Byte.isWord rest
      rw [unrecognizedLength_cons, Nat.add_comm, List.getElem?_cons_succ,
        continuesRun, if_pos word, ← List.head?_drop,
        drop_length_takeWhile] at found
      rw [found] at stops
      exact stops

/-! ## Places in a source -/

/-- The cursor stands at an offset of the source, with the bytes from there on. -/
structure Cursor.Within (source : Bytes) (cursor : Cursor) : Prop where
  offset_le : cursor.offset ≤ source.length
  rest_eq : cursor.rest = source.drop cursor.offset

/-- Every byte of the source between two offsets is blank. -/
def BlankBetween (source : Bytes) (start stop : Nat) : Prop :=
  ∀ position byte, start ≤ position → position < stop →
    source[position]? = some byte → Byte.isBlank byte = true

namespace Cursor

theorem within_start (source : Bytes) : (start source).Within source :=
  ⟨Nat.zero_le _, rfl⟩

theorem Within.length_rest {source : Bytes} {cursor : Cursor}
    (within : cursor.Within source) :
    cursor.offset + cursor.rest.length = source.length := by
  have bound := within.offset_le
  rw [within.rest_eq, List.length_drop]
  omega

theorem Within.getElem?_rest {source : Bytes} {cursor : Cursor}
    (within : cursor.Within source) (index : Nat) :
    cursor.rest[index]? = source[cursor.offset + index]? := by
  rw [within.rest_eq, List.getElem?_drop]

theorem Within.advance {source : Bytes} {cursor : Cursor}
    (within : cursor.Within source) {count : Nat}
    (inside : count ≤ cursor.rest.length) :
    (cursor.advance count).Within source := by
  have whole := within.length_rest
  constructor
  · show cursor.offset + count ≤ source.length
    omega
  · show cursor.rest.drop count = source.drop (cursor.offset + count)
    rw [within.rest_eq, List.drop_drop]

theorem rest_skipBlanks (cursor : Cursor) :
    cursor.skipBlanks.rest = cursor.rest.dropWhile Byte.isBlank :=
  drop_length_takeWhile Byte.isBlank cursor.rest

theorem Within.skipBlanks {source : Bytes} {cursor : Cursor}
    (within : cursor.Within source) : cursor.skipBlanks.Within source :=
  within.advance (List.takeWhile_prefix _).length_le

theorem Within.blankBetween_skipBlanks {source : Bytes} {cursor : Cursor}
    (within : cursor.Within source) :
    BlankBetween source cursor.offset cursor.skipBlanks.offset := by
  intro position byte after before found
  have shifted : cursor.rest[position - cursor.offset]? = some byte := by
    rw [within.getElem?_rest, Nat.add_sub_cancel' after, found]
  apply holds_of_lt_length_takeWhile _ shifted
  exact Nat.sub_lt_left_of_lt_add after before

/-- The byte after the blank bytes is not blank. -/
theorem isBlank_head?_skipBlanks {cursor : Cursor} {byte : UInt8}
    (found : cursor.skipBlanks.rest.head? = some byte) :
    Byte.isBlank byte = false := by
  have stops := List.head?_dropWhile_not Byte.isBlank cursor.rest
  rw [rest_skipBlanks] at found
  rw [found] at stops
  exact stops

/-- The ends of a span are the offsets themselves in a source that can be lexed. -/
theorem Within.spanOf {source : Bytes} {cursor : Cursor}
    (within : cursor.Within source) (fits : source.length ≤ maxOffset)
    {count : Nat} (inside : count ≤ cursor.rest.length) :
    (cursor.spanOf count).start = cursor.offset ∧
      (cursor.spanOf count).stop = cursor.offset + count := by
  have whole := within.length_rest
  constructor
  · exact Span.clamp_start (by omega)
  · exact Span.clamp_stop (by omega)

theorem Within.classify_eq_classifyAt {source : Bytes} {cursor : Cursor}
    (within : cursor.Within source) (tokenizer : Tokenizer) :
    tokenizer.classify cursor.offset cursor.rest =
      tokenizer.classifyAt source cursor.offset := by
  rw [Tokenizer.classifyAt, within.rest_eq]

end Cursor

/-! ## Literals at a place -/

section Literal

variable {source literal rest : Bytes} {start : Nat}

theorem mem_literal_of_lt (whole : source.drop start = literal ++ rest)
    {position : Nat} {byte : UInt8} (after : start ≤ position)
    (before : position < start + literal.length)
    (found : source[position]? = some byte) : byte ∈ literal := by
  rw [← Nat.add_sub_cancel' after, ← List.getElem?_drop, whole,
    List.getElem?_append_left (Nat.sub_lt_left_of_lt_add after before)]
    at found
  exact List.mem_of_getElem? found

theorem head?_rest_eq (whole : source.drop start = literal ++ rest) :
    rest.head? = source[start + literal.length]? := by
  rw [← List.getElem?_drop, whole, List.getElem?_append_right le_rfl,
    Nat.sub_self, List.head?_eq_getElem?]

/-- An input goes on with a byte of the literal wherever it is cut within one. -/
theorem exists_mem_head?_drop {input : Bytes} (starts : literal <+: input)
    {index : Nat} (inside : index < literal.length) :
    ∃ byte ∈ literal, (input.drop index).head? = some byte := by
  rcases starts with ⟨rest, rfl⟩
  refine ⟨literal[index], List.getElem_mem inside, ?_⟩
  rw [List.head?_drop, List.getElem?_append_left inside,
    List.getElem?_eq_getElem inside]

end Literal

/-! ## One step -/

/-- The bytes that an item takes. -/
def Item.span : Item → Span
  | .lexeme found => found.span
  | .skipped run => run.span

/-- The item records what classification says where it starts. -/
inductive Faithful (tokenizer : Tokenizer) (source : Bytes) : Item → Prop
  | lexeme {lexeme : Lexeme} {recognition : Recognition}
      (classified : tokenizer.classifyAt source lexeme.span.start =
        .ok recognition)
      (token_eq : recognition.token = lexeme.token)
      (stop_eq : lexeme.span.stop =
        lexeme.span.start + recognition.length) :
      Faithful tokenizer source (.lexeme lexeme)
  | skipped {run : SkippedRun}
      (classified : tokenizer.classifyAt source run.span.start =
        .error run.error)
      (stop_eq : run.span.stop = run.span.start +
        unrecognizedLength (source.drop run.span.start)) :
      Faithful tokenizer source (.skipped run)

/-- The item is the first one after an offset, and blank bytes alone precede it. -/
structure FirstAfter (tokenizer : Tokenizer) (source : Bytes) (offset : Nat)
    (item : Item) : Prop where
  offset_le : offset ≤ item.span.start
  blank : BlankBetween source offset item.span.start
  opens : ∃ byte, source[item.span.start]? = some byte ∧
    Byte.isBlank byte = false
  nonempty : item.span.start < item.span.stop
  inside : item.span.stop ≤ source.length
  faithful : Faithful tokenizer source item

namespace Cursor

theorem read_of_classify_eq_ok {tokenizer : Tokenizer} {cursor : Cursor}
    {recognition : Recognition}
    (classified : tokenizer.classify cursor.offset cursor.rest =
      .ok recognition) :
    cursor.read tokenizer =
      (.lexeme ⟨recognition.token, cursor.spanOf recognition.length⟩,
        cursor.advance recognition.length) := by
  rw [Cursor.read, classified]

theorem read_of_classify_eq_error {tokenizer : Tokenizer} {cursor : Cursor}
    {error : Unrecognized}
    (classified : tokenizer.classify cursor.offset cursor.rest =
      .error error) :
    cursor.read tokenizer =
      (.skipped ⟨error, cursor.spanOf (unrecognizedLength cursor.rest)⟩,
        cursor.advance (unrecognizedLength cursor.rest)) := by
  rw [Cursor.read, classified]

/-- Reading an item takes the bytes of its span and moves on to its end. -/
theorem Within.read {tokenizer : Tokenizer} {source : Bytes}
    {cursor next : Cursor} {item : Item} (within : cursor.Within source)
    (fits : source.length ≤ maxOffset) (remains : cursor.rest ≠ [])
    (reads : cursor.read tokenizer = (item, next)) :
    Faithful tokenizer source item ∧ item.span.start = cursor.offset ∧
      item.span.stop = next.offset ∧ cursor.offset < next.offset ∧
      next.Within source := by
  have sameOutcome := within.classify_eq_classifyAt tokenizer
  cases outcome : tokenizer.classify cursor.offset cursor.rest with
  | ok recognition =>
      have positive := Tokenizer.length_pos_of_classify outcome
      have bound := Tokenizer.length_le_of_classify outcome
      rcases within.spanOf fits bound with ⟨startsAt, stopsAt⟩
      rw [read_of_classify_eq_ok outcome] at reads
      cases reads
      have faithful : Faithful tokenizer source (.lexeme
          ⟨recognition.token, cursor.spanOf recognition.length⟩) := by
        apply Faithful.lexeme
        · rw [startsAt, ← sameOutcome, outcome]
        · rfl
        · rw [startsAt, stopsAt]
      exact ⟨faithful, startsAt, stopsAt,
        Nat.lt_add_of_pos_right positive, within.advance bound⟩
  | error error =>
      have positive := unrecognizedLength_pos remains
      have bound := unrecognizedLength_le cursor.rest
      rcases within.spanOf fits bound with ⟨startsAt, stopsAt⟩
      rw [read_of_classify_eq_error outcome] at reads
      cases reads
      have faithful : Faithful tokenizer source (.skipped
          ⟨error, cursor.spanOf (unrecognizedLength cursor.rest)⟩) := by
        apply Faithful.skipped
        · rw [startsAt, ← sameOutcome, outcome]
        · rw [startsAt, stopsAt, within.rest_eq]
      exact ⟨faithful, startsAt, stopsAt,
        Nat.lt_add_of_pos_right positive, within.advance bound⟩

/-- No item is left exactly where all bytes are blank. -/
theorem step?_eq_none_iff {tokenizer : Tokenizer} {cursor : Cursor} :
    cursor.step? tokenizer = none ↔
      ∀ byte ∈ cursor.rest, Byte.isBlank byte = true := by
  rw [step?, rest_skipBlanks, ← List.dropWhile_eq_nil_iff]
  simp

theorem eq_of_step? {tokenizer : Tokenizer} {cursor next : Cursor}
    {item : Item} (stepped : cursor.step? tokenizer = some (item, next)) :
    cursor.skipBlanks.rest ≠ [] ∧
      cursor.skipBlanks.read tokenizer = (item, next) := by
  simpa [step?] using stepped

/-- A step reads the first item after the offset of the cursor. -/
theorem Within.step? {tokenizer : Tokenizer} {source : Bytes}
    {cursor next : Cursor} {item : Item} (within : cursor.Within source)
    (fits : source.length ≤ maxOffset)
    (stepped : cursor.step? tokenizer = some (item, next)) :
    FirstAfter tokenizer source cursor.offset item ∧
      item.span.start = cursor.skipBlanks.offset ∧
      item.span.stop = next.offset ∧ next.Within source := by
  rcases eq_of_step? stepped with ⟨remains, reads⟩
  rcases within.skipBlanks.read fits remains reads with
    ⟨faithful, startsAt, stopsAt, forward, after⟩
  have first : FirstAfter tokenizer source cursor.offset item := by
    constructor
    · rw [startsAt]
      exact Nat.le_add_right _ _
    · rw [startsAt]
      exact within.blankBetween_skipBlanks
    · rcases List.exists_cons_of_ne_nil remains with ⟨byte, rest, split⟩
      have found : cursor.skipBlanks.rest.head? = some byte := by
        rw [split, List.head?_cons]
      refine ⟨byte, ?_, isBlank_head?_skipBlanks found⟩
      rw [startsAt, ← found, List.head?_eq_getElem?,
        within.skipBlanks.getElem?_rest, Nat.add_zero]
    · rw [startsAt, stopsAt]
      exact forward
    · rw [stopsAt]
      exact after.offset_le
    · exact faithful
  exact ⟨first, startsAt, stopsAt, after⟩

end Cursor

/-! ## A whole run -/

/-- The items follow one another from an offset to the end of the source. -/
inductive Tiling (tokenizer : Tokenizer) (source : Bytes) :
    Nat → List Item → Prop
  | done {offset : Nat} (blank : BlankBetween source offset source.length) :
      Tiling tokenizer source offset []
  | item {offset : Nat} {item : Item} {items : List Item}
      (first : FirstAfter tokenizer source offset item)
      (others : Tiling tokenizer source item.span.stop items) :
      Tiling tokenizer source offset (item :: items)

/-- The items that a scan reads tile what remains of the source. -/
theorem Cursor.Within.scan {tokenizer : Tokenizer} {source : Bytes}
    {cursor : Cursor} (within : cursor.Within source)
    (fits : source.length ≤ maxOffset) :
    Tiling tokenizer source cursor.offset (scan tokenizer cursor) := by
  fun_induction Lexicon.scan tokenizer cursor with
  | case1 cursor stepped =>
      apply Tiling.done
      intro position byte after _ found
      apply Cursor.step?_eq_none_iff.mp stepped
      apply List.mem_of_getElem? (i := position - cursor.offset)
      rw [within.getElem?_rest, Nat.add_sub_cancel' after, found]
  | case2 cursor item next stepped induction =>
      rcases within.step? fits stepped with ⟨first, _, stopsAt, after⟩
      apply Tiling.item first
      rw [stopsAt]
      exact induction after

/-- The items of a source that is short enough tile it. -/
theorem tiling_scan_start (tokenizer : Tokenizer) {source : Bytes}
    (fits : source.length ≤ maxOffset) :
    Tiling tokenizer source 0 (scan tokenizer (Cursor.start source)) :=
  (Cursor.within_start source).scan fits

namespace Tiling

variable {tokenizer : Tokenizer} {source : Bytes} {offset : Nat}
  {items : List Item}

/-- What every item preserves holds wherever an item is looked for. -/
theorem firstAfter_of_invariant {holds : Nat → Prop}
    (tiling : Tiling tokenizer source offset items) (initial : holds offset)
    (step : ∀ offset item, FirstAfter tokenizer source offset item →
      holds offset → holds item.span.stop)
    {item : Item} (member : item ∈ items) :
    ∃ before, holds before ∧ FirstAfter tokenizer source before item := by
  induction tiling with
  | done => cases member
  | @item offset head items first others induction =>
      rcases List.mem_cons.mp member with rfl | later
      · exact ⟨offset, initial, first⟩
      · exact induction (step offset head first initial) later

theorem firstAfter_of_mem (tiling : Tiling tokenizer source offset items)
    {item : Item} (member : item ∈ items) :
    ∃ before, offset ≤ before ∧
      FirstAfter tokenizer source before item := by
  apply tiling.firstAfter_of_invariant le_rfl _ member
  intro before head first after
  exact after.trans (first.offset_le.trans first.nonempty.le)

theorem nonempty_of_mem (tiling : Tiling tokenizer source offset items)
    {item : Item} (member : item ∈ items) :
    item.span.start < item.span.stop := by
  rcases tiling.firstAfter_of_mem member with ⟨_, _, first⟩
  exact first.nonempty

theorem ascending (tiling : Tiling tokenizer source offset items) :
    items.Pairwise fun left right => left.span.stop ≤ right.span.start := by
  induction tiling with
  | done => exact List.Pairwise.nil
  | item first others induction =>
      apply List.pairwise_cons.mpr
      constructor
      · intro later member
        rcases others.firstAfter_of_mem member with ⟨before, after, found⟩
        exact after.trans found.offset_le
      · exact induction

/-- A byte that no item takes is blank. -/
theorem isBlank_of_uncovered (tiling : Tiling tokenizer source offset items)
    {position : Nat} {byte : UInt8} (after : offset ≤ position)
    (found : source[position]? = some byte)
    (uncovered : ∀ item ∈ items,
      ¬ (item.span.start ≤ position ∧ position < item.span.stop)) :
    Byte.isBlank byte = true := by
  induction tiling with
  | done blank =>
      rcases List.getElem?_eq_some_iff.mp found with ⟨inside, _⟩
      exact blank position byte after inside found
  | item first others induction =>
      rcases Nat.lt_or_ge position _ with before | notBefore
      · exact first.blank position byte after before found
      · apply induction
        · by_contra short
          exact uncovered _ List.mem_cons_self
            ⟨notBefore, Nat.lt_of_not_le short⟩
        · intro item member
          exact uncovered item (List.mem_cons_of_mem _ member)

theorem exists_covering (tiling : Tiling tokenizer source offset items)
    {position : Nat} {byte : UInt8} (after : offset ≤ position)
    (found : source[position]? = some byte)
    (notBlank : Byte.isBlank byte = false) :
    ∃ item ∈ items,
      item.span.start ≤ position ∧ position < item.span.stop := by
  by_contra uncovered
  have blank : Byte.isBlank byte = true := by
    apply tiling.isBlank_of_uncovered after found
    intro item member covers
    exact uncovered ⟨item, member, covers⟩
  rw [notBlank] at blank
  cases blank

end Tiling

/-! ## Lexemes and skipped runs -/

namespace Span

/-- The position lies in the span. -/
def Covers (span : Span) (position : Nat) : Prop :=
  span.start ≤ position ∧ position < span.stop

/-- One of the spans ends before the other starts. -/
def Disjoint (left right : Span) : Prop :=
  left.stop ≤ right.start ∨ right.stop ≤ left.start

end Span

namespace Lexed

theorem ofItems_lexeme_cons (found : Lexeme) (items : List Item) :
    ofItems (.lexeme found :: items) =
      ⟨found :: (ofItems items).lexemes,
        (ofItems items).skipped⟩ :=
  rfl

theorem ofItems_skipped_cons (run : SkippedRun)
    (items : List Item) :
    ofItems (.skipped run :: items) =
      ⟨(ofItems items).lexemes,
        run :: (ofItems items).skipped⟩ :=
  rfl

/-- The spans of the lexemes, and then those of the skipped runs. -/
def spans (lexed : Lexed) : List Span :=
  lexed.lexemes.map Lexeme.span ++ lexed.skipped.map SkippedRun.span

@[simp]
theorem mem_lexemes_ofItems {items : List Item} {lexeme : Lexeme} :
    lexeme ∈ (ofItems items).lexemes ↔ .lexeme lexeme ∈ items := by
  simp only [ofItems, List.mem_filterMap]
  constructor
  · rintro ⟨item, member, found⟩
    cases item with
    | lexeme other =>
        cases found
        exact member
    | skipped run => cases found
  · intro member
    exact ⟨.lexeme lexeme, member, rfl⟩

@[simp]
theorem mem_skipped_ofItems {items : List Item} {run : SkippedRun} :
    run ∈ (ofItems items).skipped ↔ .skipped run ∈ items := by
  simp only [ofItems, List.mem_filterMap]
  constructor
  · rintro ⟨item, member, found⟩
    cases item with
    | lexeme other => cases found
    | skipped other =>
        cases found
        exact member
  · intro member
    exact ⟨.skipped run, member, rfl⟩

theorem mem_spans_ofItems {items : List Item} {span : Span} :
    span ∈ (ofItems items).spans ↔ ∃ item ∈ items, item.span = span := by
  simp only [spans, List.mem_append, List.mem_map, mem_lexemes_ofItems,
    mem_skipped_ofItems]
  constructor
  · rintro (⟨lexeme, member, rfl⟩ | ⟨run, member, rfl⟩)
    · exact ⟨.lexeme lexeme, member, rfl⟩
    · exact ⟨.skipped run, member, rfl⟩
  · rintro ⟨item, member, rfl⟩
    cases item with
    | lexeme lexeme => exact Or.inl ⟨lexeme, member, rfl⟩
    | skipped run => exact Or.inr ⟨run, member, rfl⟩

/-- What is picked out of items is ordered as the items are. -/
theorem pairwise_filterMap_span {α : Type} {pick : Item → Option α}
    {spanOf : α → Span}
    (keeps : ∀ {item found}, pick item = some found →
      spanOf found = item.span)
    (related : Span → Span → Prop) {items : List Item}
    (pairwise : items.Pairwise fun left right =>
      related left.span right.span) :
    (items.filterMap pick).Pairwise fun left right =>
      related (spanOf left) (spanOf right) := by
  apply List.Pairwise.filterMap _ _ pairwise
  intro left right ordered leftFound leftPicked rightFound rightPicked
  rw [keeps leftPicked, keeps rightPicked]
  exact ordered

theorem pairwise_lexemes_ofItems (related : Span → Span → Prop)
    {items : List Item}
    (pairwise : items.Pairwise fun left right =>
      related left.span right.span) :
    (ofItems items).lexemes.Pairwise fun left right =>
      related left.span right.span := by
  apply pairwise_filterMap_span _ related pairwise
  intro item found picked
  cases item with
  | lexeme =>
      cases picked
      rfl
  | skipped => cases picked

theorem pairwise_skipped_ofItems (related : Span → Span → Prop)
    {items : List Item}
    (pairwise : items.Pairwise fun left right =>
      related left.span right.span) :
    (ofItems items).skipped.Pairwise fun left right =>
      related left.span right.span := by
  apply pairwise_filterMap_span _ related pairwise
  intro item found picked
  cases item with
  | lexeme => cases picked
  | skipped =>
      cases picked
      rfl

end Lexed

end Lexicon
