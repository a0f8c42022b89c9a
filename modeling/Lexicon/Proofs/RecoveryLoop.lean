import Lexicon.Proofs.FusedStream

/-!
# Recovery ends

Lexing a whole source is a loop over a stream.  Where the stream ends with an
error, the loop skips the run of bytes that was not recognised and sets the
stream going again behind it.  Nothing in the shape of this loop says that it
ends: a stream that has ended is started anew, over and over.

It ends because every iteration moves on.  A lexeme takes at least one byte,
since no literal is empty, and so does a skipped run.  What is more, every
iteration uses up a byte that is not blank, so there are no more items than
such bytes.
-/

namespace Lexicon

/-! ## The loop -/

namespace Stream

/-- The stream that goes on behind the run of bytes at which a stream has ended. -/
def recover (stream : Stream) : Stream :=
  running stream.tokenizer
    (stream.cursor.advance (unrecognizedLength stream.cursor.rest))

/-- One iteration of the loop: a lexeme is given, or a run is skipped after an error. -/
inductive Iterates : Stream → Item → Stream → Prop
  | lexeme {stream after : Stream} {found : Lexeme}
      (given : stream.next = (some (.ok found), after)) :
      Iterates stream (.lexeme found) after
  | skipped {stream stopped : Stream} {error : Unrecognized}
      (given : stream.next = (some (.error error), stopped)) :
      Iterates stream
        (.skipped ⟨error, stopped.cursor.spanOf
          (unrecognizedLength stopped.cursor.rest)⟩)
        stopped.recover

/-- The loop gives the items in turn and then ends. -/
inductive Loops : Stream → List Item → Prop
  | done {stream : Stream} (given : stream.next.1 = none) : Loops stream []
  | iterate {stream after : Stream} {item : Item} {items : List Item}
      (first : Iterates stream item after) (others : Loops after items) :
      Loops stream (item :: items)

/-- A state of the loop that starts with a given stream, before an iteration. -/
inductive Visited (first : Stream) : Stream → Prop
  | start : Visited first first
  | iterate {stream after : Stream} {item : Item}
      (visited : Visited first stream)
      (iterates : Iterates stream item after) : Visited first after

end Stream

namespace Stream

variable {stream after : Stream} {item : Item}

theorem Iterates.next_ne_none (iterates : Iterates stream item after) :
    stream.next.1 ≠ none := by
  cases iterates with
  | lexeme given => simp [given]
  | skipped given => simp [given]

theorem Iterates.unique (left : Iterates stream item after)
    {otherItem : Item} {otherAfter : Stream}
    (right : Iterates stream otherItem otherAfter) :
    item = otherItem ∧ after = otherAfter := by
  cases left with
  | lexeme leftGiven =>
      cases right with
      | lexeme rightGiven =>
          cases leftGiven.symm.trans rightGiven
          exact ⟨rfl, rfl⟩
      | skipped rightGiven => cases leftGiven.symm.trans rightGiven
  | skipped leftGiven =>
      cases right with
      | lexeme rightGiven => cases leftGiven.symm.trans rightGiven
      | skipped rightGiven =>
          cases leftGiven.symm.trans rightGiven
          exact ⟨rfl, rfl⟩

theorem Loops.unique {items : List Item} (left : Loops stream items)
    {otherItems : List Item} (right : Loops stream otherItems) :
    items = otherItems := by
  induction left generalizing otherItems with
  | done given =>
      cases right with
      | done => rfl
      | iterate first => exact absurd given first.next_ne_none
  | iterate first _ induction =>
      cases right with
      | done given => exact absurd given first.next_ne_none
      | iterate otherFirst otherRest =>
          rcases first.unique otherFirst with ⟨rfl, rfl⟩
          rw [induction otherRest]

end Stream

/-! ## The loop takes the steps of the lexer -/

theorem Cursor.skipped_of_step? {tokenizer : Tokenizer}
    {cursor place : Cursor} {run : SkippedRun}
    (stepped : cursor.step? tokenizer = some (.skipped run, place)) :
    run.span = cursor.skipBlanks.spanOf
        (unrecognizedLength cursor.skipBlanks.rest) ∧
      place = cursor.skipBlanks.advance
        (unrecognizedLength cursor.skipBlanks.rest) := by
  rcases eq_of_step? stepped with ⟨_, reads⟩
  cases outcome : tokenizer.classify cursor.skipBlanks.offset
      cursor.skipBlanks.rest with
  | ok recognition =>
      rw [read_of_classify_eq_ok outcome] at reads
      cases reads
  | error error =>
      rw [read_of_classify_eq_error outcome] at reads
      cases reads
      exact ⟨rfl, rfl⟩

namespace Stream

variable {tokenizer : Tokenizer} {source : Bytes} {stream after : Stream}
  {cursor place : Cursor} {item : Item}

theorem iterates_of_step?
    (stepped : cursor.step? tokenizer = some (item, place)) :
    Iterates (running tokenizer cursor) item (running tokenizer place) := by
  have given := next_running_of_step?_eq_some stepped
  cases item with
  | lexeme found => exact .lexeme given
  | skipped run =>
      rcases Cursor.skipped_of_step? stepped with ⟨span_eq, rfl⟩
      rcases run with ⟨error, span⟩
      cases span_eq
      exact .skipped given

/-- An iteration at a cursor is a step of the lexer from there. -/
theorem exists_step?_of_iterates
    (iterates : Iterates (running tokenizer cursor) item after) :
    ∃ place, cursor.step? tokenizer = some (item, place) ∧
      after = running tokenizer place := by
  cases stepped : cursor.step? tokenizer with
  | none =>
      have ends : (running tokenizer cursor).next.1 = none := by
        rw [next_running_of_step?_eq_none stepped]
      exact absurd ends iterates.next_ne_none
  | some found =>
      rcases iterates.unique (iterates_of_step? stepped) with ⟨rfl, rfl⟩
      exact ⟨found.2, rfl, rfl⟩

/-- The loop gives the items of a run of the lexer. -/
theorem loops_running (tokenizer : Tokenizer) (cursor : Cursor) :
    Loops (running tokenizer cursor) (scan tokenizer cursor) := by
  fun_induction scan tokenizer cursor with
  | case1 cursor stepped =>
      apply Loops.done
      rw [next_running_of_step?_eq_none stepped]
  | case2 cursor item place stepped induction =>
      exact .iterate (iterates_of_step? stepped) induction

theorem Visited.exists_reached
    (visited : Visited (running tokenizer (Cursor.start source)) stream) :
    ∃ cursor, stream = running tokenizer cursor ∧
      cursor.Reached tokenizer source := by
  induction visited with
  | start => exact ⟨_, rfl, .start⟩
  | iterate _ iterates induction =>
      rcases induction with ⟨cursor, rfl, reached⟩
      rcases exists_step?_of_iterates iterates with ⟨place, stepped, rfl⟩
      exact ⟨place, rfl, .step reached stepped⟩

/-! ## Every iteration moves on -/

section Position

variable
  (visited : Visited (running tokenizer (Cursor.start source)) stream)

include visited

theorem Visited.position_le (fits : source.length ≤ maxOffset) :
    stream.position ≤ source.length := by
  rcases visited.exists_reached with ⟨cursor, rfl, reached⟩
  exact (reached.within fits).offset_le

theorem Visited.position_lt (fits : source.length ≤ maxOffset)
    (iterates : Iterates stream item after) :
    stream.position < after.position := by
  rcases visited.exists_reached with ⟨cursor, rfl, reached⟩
  rcases exists_step?_of_iterates iterates with ⟨place, stepped, rfl⟩
  rcases (reached.within fits).step? fits stepped with
    ⟨first, _, stopsAt, _⟩
  show cursor.offset < place.offset
  rw [← stopsAt]
  exact first.offset_le.trans_lt first.nonempty

/-- A stream that has ended with an error goes on at least one byte behind it. -/
theorem Visited.position_recover {stopped : Stream} {error : Unrecognized}
    (given : stream.next = (some (.error error), stopped)) :
    stream.position ≤ stopped.position ∧
      stopped.position < stopped.recover.position := by
  rcases visited.exists_reached with ⟨cursor, rfl, _⟩
  rcases exists_step?_of_iterates (.skipped given) with
    ⟨place, stepped, _⟩
  rcases Cursor.eq_of_step? stepped with ⟨remains, _⟩
  cases (next_running_of_step?_eq_some stepped).symm.trans given
  constructor
  · exact Nat.le_add_right _ _
  · exact Nat.lt_add_of_pos_right (unrecognizedLength_pos remains)

theorem Visited.position_next_le (fits : source.length ≤ maxOffset) :
    stream.next.2.position ≤ source.length := by
  rcases visited.exists_reached with ⟨cursor, rfl, reached⟩
  have within : (running tokenizer cursor).cursor.Within source :=
    reached.within fits
  exact (call_next within fits).2.offset_le

end Position

end Stream

/-! ## Every iteration uses up a byte that is not blank -/

/-- The number of bytes that are not blank. -/
def nonBlankCount (bytes : Bytes) : Nat :=
  bytes.countP fun byte => !Byte.isBlank byte

theorem nonBlankCount_le_of_suffix {left right : Bytes}
    (suffix : left <:+ right) : nonBlankCount left ≤ nonBlankCount right :=
  suffix.sublist.countP_le

theorem Cursor.suffix_of_read {tokenizer : Tokenizer}
    {cursor next : Cursor} {item : Item}
    (reads : cursor.read tokenizer = (item, next)) :
    next.rest <:+ cursor.rest := by
  cases outcome : tokenizer.classify cursor.offset cursor.rest with
  | ok recognition =>
      rw [read_of_classify_eq_ok outcome] at reads
      cases reads
      exact List.drop_suffix _ _
  | error error =>
      rw [read_of_classify_eq_error outcome] at reads
      cases reads
      exact List.drop_suffix _ _

theorem Cursor.nonBlankCount_lt_of_step? {tokenizer : Tokenizer}
    {cursor next : Cursor} {item : Item}
    (stepped : cursor.step? tokenizer = some (item, next)) :
    nonBlankCount next.rest < nonBlankCount cursor.rest := by
  rcases eq_of_step? stepped with ⟨remains, reads⟩
  have shorter := length_rest_read_lt tokenizer remains
  have suffix := suffix_of_read reads
  have skipped : nonBlankCount cursor.skipBlanks.rest ≤
      nonBlankCount cursor.rest :=
    nonBlankCount_le_of_suffix (List.drop_suffix _ _)
  rcases List.exists_cons_of_ne_nil remains with ⟨byte, rest, split⟩
  have opens : cursor.skipBlanks.rest.head? = some byte := by
    rw [split, List.head?_cons]
  have notBlank := isBlank_head?_skipBlanks opens
  rw [reads, split] at shorter
  rw [split] at suffix skipped
  -- The item takes the byte that stops the blanks, so the rest lies behind it.
  have behind : next.rest <:+ rest := by
    rcases List.suffix_cons_iff.mp suffix with whole | behind
    · rw [whole] at shorter
      exact absurd shorter (Nat.lt_irrefl _)
    · exact behind
  calc
    nonBlankCount next.rest ≤ nonBlankCount rest :=
      nonBlankCount_le_of_suffix behind
    _ < nonBlankCount (byte :: rest) := by
      simp [nonBlankCount, notBlank]
    _ ≤ nonBlankCount cursor.rest := skipped

/-- There are no more items than bytes that are not blank. -/
theorem length_scan_le (tokenizer : Tokenizer) (cursor : Cursor) :
    (scan tokenizer cursor).length ≤ nonBlankCount cursor.rest := by
  fun_induction scan tokenizer cursor with
  | case1 cursor stepped => exact Nat.zero_le _
  | case2 cursor item next stepped induction =>
      have fewer := Cursor.nonBlankCount_lt_of_step? stepped
      rw [List.length_cons]
      exact Nat.succ_le_of_lt (induction.trans_lt fewer)

theorem Lexed.length_ofItems (items : List Item) :
    (ofItems items).lexemes.length + (ofItems items).skipped.length =
      items.length := by
  induction items with
  | nil => rfl
  | cons item items induction =>
      cases item with
      | lexeme found =>
          rw [ofItems_lexeme_cons, List.length_cons, List.length_cons,
            ← induction, Nat.add_right_comm]
      | skipped run =>
          rw [ofItems_skipped_cons, List.length_cons, List.length_cons,
            ← induction, Nat.add_assoc]

theorem nonBlankCount_eq (bytes : Bytes) :
    nonBlankCount bytes =
      bytes.countP fun byte =>
        !([0x20, 0x09, 0x0A, 0x0D, 0x0C].contains byte) := by
  apply List.countP_congr
  intro byte _
  simp [Byte.isBlank, and_assoc]

/-! ## The loop ends -/

/--
The loop that recovers from errors ends, and its output is bounded.  In every
state that it comes to, a lexeme moves the position on by at least one byte,
an error is followed by a skipped run of at least one byte, and the position
never passes the end of the source; what is left of the source thus becomes
less with every iteration.  The loop comes to its end, with the items that
lexing gives, and these are no more than the bytes of the source other than
space, tab, line feed, carriage return and form feed.
-/
theorem lex_recovery_ends (tokenizer : Tokenizer) {source : Bytes}
    (fits : source.length ≤ maxOffset) :
    ∃ first, Stream.ofSource tokenizer source = .ok first ∧
      (∀ stream, Stream.Visited first stream →
        stream.position ≤ source.length ∧
          stream.next.2.position ≤ source.length ∧
          (∀ found after, stream.next = (some (.ok found), after) →
            stream.position + 1 ≤ after.position) ∧
          (∀ error stopped,
            stream.next = (some (.error error), stopped) →
              stream.position ≤ stopped.position ∧
                stopped.position + 1 ≤ stopped.recover.position) ∧
          ∀ item after, Stream.Iterates stream item after →
            source.length - after.position <
              source.length - stream.position) ∧
      (∃ items, Stream.Loops first items) ∧
      ∀ items, Stream.Loops first items →
        ∃ lexed, lex tokenizer source = .ok lexed ∧
          lexed = Lexed.ofItems items ∧
          lexed.lexemes.length + lexed.skipped.length ≤
            source.countP fun byte =>
              !([0x20, 0x09, 0x0A, 0x0D, 0x0C].contains byte) := by
  have loops := Stream.loops_running tokenizer (Cursor.start source)
  refine ⟨_, Stream.ofSource_of_le tokenizer fits, ?_, ⟨_, loops⟩, ?_⟩
  · intro stream visited
    refine ⟨visited.position_le fits, visited.position_next_le fits, ?_,
      fun _ _ => visited.position_recover, ?_⟩
    · intro found after given
      exact visited.position_lt fits (.lexeme given)
    · intro item after iterates
      have moved := visited.position_lt fits iterates
      have inside := (visited.iterate iterates).position_le fits
      exact Nat.sub_lt_sub_left (moved.trans_le inside) moved
  · intro items others
    cases loops.unique others
    refine ⟨_, lex_of_le tokenizer fits, rfl, ?_⟩
    rw [Lexed.length_ofItems, ← nonBlankCount_eq]
    exact length_scan_le tokenizer (Cursor.start source)

/--
The stream ends at the unknown word before the first blank byte and is set
going again behind it.  Three bytes are not blank, so there are at most three
items.
-/
theorem lex_recovery_ends_words :
    ∃ catalog tokenizer first lexed,
      Catalog.load [⟨.keyword, "is", [0x69, 0x73], none⟩] = .ok catalog ∧
        Tokenizer.build catalog [⟨.keyword, none⟩] = .ok tokenizer ∧
        Stream.ofSource tokenizer [0x78, 0x20, 0x69, 0x73, 0x0A] =
          .ok first ∧
        first.next.1 = some (.error ⟨0, some 0x78⟩) ∧
        first.next.2.position + 1 ≤ first.next.2.recover.position ∧
        lex tokenizer [0x78, 0x20, 0x69, 0x73, 0x0A] = .ok lexed ∧
        lexed.lexemes.length + lexed.skipped.length ≤ 3 := by
  have runs : ∃ catalog tokenizer first,
      Catalog.load [⟨.keyword, "is", [0x69, 0x73], none⟩] = .ok catalog ∧
        Tokenizer.build catalog [⟨.keyword, none⟩] = .ok tokenizer ∧
        Stream.ofSource tokenizer [0x78, 0x20, 0x69, 0x73, 0x0A] =
          .ok first ∧
        first.next.1 = some (.error ⟨0, some 0x78⟩) :=
    ⟨_, _, _, rfl, rfl, rfl, by decide +kernel⟩
  rcases runs with
    ⟨catalog, tokenizer, first, loaded, built, streams, given⟩
  have fits : ([0x78, 0x20, 0x69, 0x73, 0x0A] : Bytes).length ≤
      maxOffset := by
    decide
  rcases lex_recovery_ends tokenizer fits with
    ⟨same, sameStreams, states, ⟨items, loops⟩, ends⟩
  cases streams.symm.trans sameStreams
  rcases states first .start with ⟨_, _, _, recovers, _⟩
  rcases ends items loops with ⟨lexed, lexes, _, bounded⟩
  exact ⟨catalog, tokenizer, first, lexed, loaded, built, streams, given,
    (recovers _ _ (Prod.ext given rfl)).2, lexes, bounded⟩

end Lexicon
