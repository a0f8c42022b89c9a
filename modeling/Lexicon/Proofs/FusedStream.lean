import Lexicon.Proofs.StreamAgreement
import Mathlib.Order.Monotone.Basic

/-!
# Streams call by call

A stream is a machine with an offset and a flag.  A call moves the offset over
blank bytes, also if it gives nothing, and then over a token if there is one.
The flag is set by the first call that gives no lexeme, and from then on calls
change nothing.

This module says what a single call can do and derives what any number of
calls on a new stream does.  The offset never goes back and never leaves the
source.  Lexemes lie between the offsets before and after their calls, with
blank bytes alone in front of them, and an error stands at the offset where
the stream stops.  At most one error is given, after all the lexemes.
-/

namespace Lexicon

namespace Stream

/-! ## One call -/

/-- What a call on a stream over a source gives, and the stream after it. -/
inductive Call (source : Bytes) (stream : Stream) :
    Option StreamItem → Stream → Prop
  /-- A stream that has ended stays as it is. -/
  | idle {after : Stream} (finished : stream.finished = true)
      (stays : after = stream) : Call source stream none after
  /-- Blank bytes alone are left, and the stream ends behind them. -/
  | exhausted {after : Stream} (unfinished : stream.finished = false)
      (offset_le : stream.position ≤ after.position)
      (blank : BlankBetween source stream.position after.position)
      (atEnd : after.position = source.length)
      (finished : after.finished = true) : Call source stream none after
  /-- The first token is given, and the stream goes on behind it. -/
  | lexeme {found : Lexeme} {after : Stream}
      (unfinished : stream.finished = false)
      (first : FirstAfter stream.tokenizer source stream.position
        (.lexeme found))
      (stop_eq : found.span.stop = after.position)
      (goesOn : after.finished = false) :
      Call source stream (some (.ok found)) after
  /-- There is no token behind the blank bytes, and the stream ends there. -/
  | failed {run : SkippedRun} {after : Stream}
      (unfinished : stream.finished = false)
      (first : FirstAfter stream.tokenizer source stream.position
        (.skipped run))
      (start_eq : run.span.start = after.position)
      (finished : after.finished = true) :
      Call source stream (some (.error run.error)) after

section Calls

variable {source : Bytes} {stream : Stream}

/-- A call on a stream within a source does one of these things and stays within it. -/
theorem call_next (within : stream.cursor.Within source)
    (fits : source.length ≤ maxOffset) :
    Call source stream stream.next.1 stream.next.2 ∧
      stream.next.2.cursor.Within source := by
  rcases stream with ⟨tokenizer, cursor, finished⟩
  cases finished with
  | true => exact ⟨.idle rfl rfl, within⟩
  | false =>
      have blank := within.blankBetween_skipBlanks
      have forward : cursor.offset ≤ cursor.skipBlanks.offset :=
        Nat.le_add_right _ _
      cases stepped : cursor.step? tokenizer with
      | none =>
          have given := next_running_of_step?_eq_none stepped
          have nothing : cursor.skipBlanks.rest = [] := by
            rw [Cursor.rest_skipBlanks, List.dropWhile_eq_nil_iff]
            exact Cursor.step?_eq_none_iff.mp stepped
          have atEnd : cursor.skipBlanks.offset = source.length := by
            have whole := within.skipBlanks.length_rest
            rw [nothing] at whole
            exact whole
          rw [running] at given
          rw [given]
          exact ⟨.exhausted rfl forward blank atEnd rfl, within.skipBlanks⟩
      | some step =>
          rcases step with ⟨item, place⟩
          have given := next_running_of_step?_eq_some stepped
          rcases within.step? fits stepped with
            ⟨first, startsAt, stopsAt, placeWithin⟩
          rw [running] at given
          rw [given]
          cases item with
          | lexeme found =>
              exact ⟨.lexeme rfl first stopsAt rfl, placeWithin⟩
          | skipped run =>
              exact ⟨.failed rfl first startsAt rfl, within.skipBlanks⟩

variable {after : Stream} {reply : Option StreamItem}

theorem Call.position_le (call : Call source stream reply after) :
    stream.position ≤ after.position := by
  cases call with
  | idle _ stays => exact Nat.le_of_eq (congrArg position stays.symm)
  | exhausted _ offset_le => exact offset_le
  | lexeme _ first stop_eq =>
      rw [← stop_eq]
      exact first.offset_le.trans first.nonempty.le
  | failed _ first start_eq =>
      rw [← start_eq]
      exact first.offset_le

/-- A stream has ended as soon as a call gives no lexeme. -/
theorem Call.finished_of_not_lexeme (call : Call source stream reply after)
    (noLexeme : ∀ found, reply ≠ some (.ok found)) :
    after.finished = true := by
  cases call with
  | idle finished stays => exact stays ▸ finished
  | exhausted _ _ _ _ finished => exact finished
  | lexeme => exact absurd rfl (noLexeme _)
  | failed _ _ _ finished => exact finished

/-- An error names the place where the stream has ended and the byte there. -/
theorem Call.error_eq {error : Unrecognized}
    (call : Call source stream (some (.error error)) after) :
    error.offset = after.position ∧ after.position < source.length ∧
      ∃ byte, source[after.position]? = some byte ∧
        error.found = some byte := by
  cases call with
  | @failed run _ _ first start_eq _ =>
      rcases first.faithful with _ | ⟨classified, _⟩
      rcases Tokenizer.classify_eq_error_iff.mp classified with
        ⟨_, sameError⟩
      rcases first.opens with ⟨byte, opens, _⟩
      rw [← start_eq, sameError]
      exact ⟨rfl, first.nonempty.trans_le first.inside, byte, opens,
        List.head?_drop.trans opens⟩

end Calls

/-! ## Any number of calls -/

/-- The stream after a number of calls. -/
def afterCalls (stream : Stream) : Nat → Stream
  | 0 => stream
  | calls + 1 => (stream.afterCalls calls).next.2

/-- What the call with a number gives.  The first call has the number zero. -/
def reply (stream : Stream) (call : Nat) : Option StreamItem :=
  (stream.afterCalls call).next.1

/-- The items that a number of calls give. -/
def firstItems (stream : Stream) (calls : Nat) : List StreamItem :=
  (List.range calls).filterMap stream.reply

theorem firstItems_succ (stream : Stream) (calls : Nat) :
    stream.firstItems (calls + 1) =
      stream.firstItems calls ++ (stream.reply calls).toList := by
  rw [firstItems, List.range_succ, List.filterMap_append, firstItems]
  cases found : stream.reply calls with
  | none => simp [found]
  | some item => simp [found]

/-- Calls do not change a stream that has ended. -/
theorem afterCalls_of_finished {stream : Stream} {calls : Nat}
    (finished : (stream.afterCalls calls).finished = true) {later : Nat}
    (notBefore : calls ≤ later) :
    stream.afterCalls later = stream.afterCalls calls := by
  induction later, notBefore using Nat.le_induction with
  | base => rfl
  | succ later _ induction =>
      rw [afterCalls, induction, next, if_pos finished]

theorem reply_of_finished {stream : Stream} {calls : Nat}
    (finished : (stream.afterCalls calls).finished = true) {later : Nat}
    (notBefore : calls ≤ later) : stream.reply later = none := by
  rw [reply, afterCalls_of_finished finished notBefore, next,
    if_pos finished]

section Run

variable {source : Bytes} {stream : Stream}
  (within : stream.cursor.Within source) (fits : source.length ≤ maxOffset)

include within fits

theorem within_afterCalls (calls : Nat) :
    (stream.afterCalls calls).cursor.Within source := by
  induction calls with
  | zero => exact within
  | succ calls induction => exact (call_next induction fits).2

/-- Every call in a run is a call as described above. -/
theorem call_reply (call : Nat) :
    Call source (stream.afterCalls call) (stream.reply call)
      (stream.afterCalls (call + 1)) :=
  (call_next (within_afterCalls within fits call) fits).1

/-- Unless an error was given, a stream that has ended is at the end of the source. -/
theorem position_of_finished (unfinished : stream.finished = false)
    (noError : ∀ call error, stream.reply call ≠ some (.error error))
    {calls : Nat} (finished : (stream.afterCalls calls).finished = true) :
    (stream.afterCalls calls).position = source.length := by
  induction calls with
  | zero =>
      rw [afterCalls, unfinished] at finished
      cases finished
  | succ calls induction =>
      have call := call_reply within fits calls
      cases replied : stream.reply calls with
      | none =>
          rw [replied] at call
          cases call with
          | idle already stays =>
              rw [stays]
              exact induction already
          | exhausted _ _ _ atEnd => exact atEnd
      | some item =>
          rw [replied] at call
          cases call with
          | lexeme _ _ _ goesOn =>
              rw [goesOn] at finished
              cases finished
          | failed => exact absurd replied (noError calls _)

/-- While a stream has not ended, it has given lexemes alone. -/
theorem exists_firstItems_eq (calls : Nat) :
    ∃ (lexemes : List Lexeme) (errors : List Unrecognized),
      stream.firstItems calls = lexemes.map .ok ++ errors.map .error ∧
        errors.length ≤ 1 ∧
        ((stream.afterCalls calls).finished = false → errors = []) := by
  induction calls with
  | zero => exact ⟨[], [], rfl, Nat.zero_le 1, fun _ => rfl⟩
  | succ calls induction =>
      rcases induction with ⟨lexemes, errors, given, atMostOne, onlyLexemes⟩
      have call := call_reply within fits calls
      rw [firstItems_succ, given]
      cases replied : stream.reply calls with
      | none =>
          rw [replied] at call
          have finished := call.finished_of_not_lexeme (by simp)
          refine ⟨lexemes, errors, List.append_nil _, atMostOne, ?_⟩
          intro unfinished
          rw [finished] at unfinished
          cases unfinished
      | some item =>
          rw [replied] at call
          cases call with
          | @lexeme found _ unfinished _ _ _ =>
              rw [onlyLexemes unfinished]
              exact ⟨lexemes ++ [found], [], by simp, Nat.zero_le 1,
                fun _ => rfl⟩
          | @failed run _ unfinished _ _ finished =>
              rw [onlyLexemes unfinished]
              refine ⟨lexemes, [run.error], by simp, Nat.le_refl 1, ?_⟩
              intro goesOn
              rw [finished] at goesOn
              cases goesOn

end Run

/-! ## Streams of sources -/

/-- What any number of calls on the stream of a source gives, and where they leave it. -/
structure Fused (source : Bytes) (stream : Stream) : Prop where
  position_mono : ∀ earlier later, earlier ≤ later →
    (stream.afterCalls earlier).position ≤ (stream.afterCalls later).position
  position_le : ∀ calls, (stream.afterCalls calls).position ≤ source.length
  lexeme : ∀ call found, stream.reply call = some (.ok found) →
    found.span.stop = (stream.afterCalls (call + 1)).position ∧
      (stream.afterCalls call).position ≤ found.span.start ∧
      found.span.start < found.span.stop ∧
      BlankBetween source (stream.afterCalls call).position found.span.start
  error : ∀ call error, stream.reply call = some (.error error) →
    error.offset = (stream.afterCalls (call + 1)).position ∧
      (stream.afterCalls (call + 1)).position < source.length ∧
      ∃ byte, source[(stream.afterCalls (call + 1)).position]? = some byte ∧
        error.found = some byte
  /-- Without an error the source is read to its end. -/
  exhausted : ∀ call, stream.reply call = none →
    (∀ other error, stream.reply other ≠ some (.error error)) →
      (stream.afterCalls (call + 1)).position = source.length
  /-- Lexemes come first, and then at most one error. -/
  items : ∀ calls, ∃ (lexemes : List Lexeme) (errors : List Unrecognized),
    stream.firstItems calls = lexemes.map .ok ++ errors.map .error ∧
      errors.length ≤ 1
  /-- Nothing is given and nothing moves after the end or an error. -/
  fused : ∀ call,
    (stream.reply call = none ∨
      ∃ error, stream.reply call = some (.error error)) →
    ∀ later, call < later → stream.reply later = none ∧
      (stream.afterCalls (later + 1)).position =
        (stream.afterCalls (call + 1)).position

/-- A stream within a source that has not ended yet is a fused machine. -/
theorem fused_of_within {source : Bytes} {stream : Stream}
    (within : stream.cursor.Within source)
    (unfinished : stream.finished = false)
    (fits : source.length ≤ maxOffset) : stream.Fused source where
  position_mono := by
    intro earlier later ordered
    apply monotone_nat_of_le_succ (f := fun calls =>
      (stream.afterCalls calls).position) _ ordered
    intro calls
    exact (call_reply within fits calls).position_le
  position_le := by
    intro calls
    exact (within_afterCalls within fits calls).offset_le
  lexeme := by
    intro call found replied
    have called := call_reply within fits call
    rw [replied] at called
    cases called with
    | lexeme _ first stop_eq _ =>
        exact ⟨stop_eq, first.offset_le, first.nonempty, first.blank⟩
  error := by
    intro call error replied
    have called := call_reply within fits call
    rw [replied] at called
    exact called.error_eq
  exhausted := by
    intro call replied noError
    have called := call_reply within fits call
    have finished := called.finished_of_not_lexeme (by simp [replied])
    exact position_of_finished within fits unfinished noError finished
  items := by
    intro calls
    rcases exists_firstItems_eq within fits calls with
      ⟨lexemes, errors, given, atMostOne, _⟩
    exact ⟨lexemes, errors, given, atMostOne⟩
  fused := by
    intro call stopped later afterwards
    have noLexeme : ∀ found, stream.reply call ≠ some (.ok found) := by
      intro found replied
      rcases stopped with nothing | ⟨error, failed⟩
      · cases nothing.symm.trans replied
      · cases failed.symm.trans replied
    have finished :=
      (call_reply within fits call).finished_of_not_lexeme noLexeme
    refine ⟨reply_of_finished finished afterwards, ?_⟩
    rw [afterCalls_of_finished finished (Nat.le_succ_of_le afterwards)]

end Stream

/--
There is a stream of every source that is short enough, and it is a fused
machine.  Over any number of calls its offset never goes back and never
leaves the source.  A lexeme ends at the offset after its call and starts at
the offset before it or behind blank bytes; an error carries the offset after
its call, which is not the end of the source, and the byte there.  The items
are lexemes followed by at most one error.  After the first call that gives
nothing or an error, calls give nothing and the offset stays.
-/
theorem ofSource_fused (tokenizer : Tokenizer) {source : Bytes}
    (fits : source.length ≤ maxOffset) :
    ∃ stream, Stream.ofSource tokenizer source = .ok stream ∧
      stream.Fused source :=
  ⟨_, Stream.ofSource_of_le tokenizer fits,
    Stream.fused_of_within (Cursor.within_start source) rfl fits⟩

/--
The second call skips a line feed and fails at the unknown word behind it.
The stream stays there, and the word after it is never read.
-/
theorem ofSource_fused_words :
    ∃ catalog tokenizer stream,
      Catalog.load [⟨.keyword, "is", [0x69, 0x73], none⟩] = .ok catalog ∧
        Tokenizer.build catalog [⟨.keyword, none⟩] = .ok tokenizer ∧
        Stream.ofSource tokenizer [0x69, 0x73, 0x0A, 0x78, 0x20, 0x69, 0x73] =
          .ok stream ∧
        stream.reply 0 = some (.ok ⟨.keyword "is", Span.clamp 0 2⟩) ∧
        (stream.afterCalls 1).position = 2 ∧
        stream.reply 1 = some (.error ⟨3, some 0x78⟩) ∧
        (stream.afterCalls 2).position = 3 ∧
        ∀ later, 1 < later → stream.reply later = none ∧
          (stream.afterCalls (later + 1)).position = 3 := by
  have runs : ∃ catalog tokenizer stream,
      Catalog.load [⟨.keyword, "is", [0x69, 0x73], none⟩] = .ok catalog ∧
        Tokenizer.build catalog [⟨.keyword, none⟩] = .ok tokenizer ∧
        Stream.ofSource tokenizer [0x69, 0x73, 0x0A, 0x78, 0x20, 0x69, 0x73] =
          .ok stream ∧
        stream.reply 0 = some (.ok ⟨.keyword "is", Span.clamp 0 2⟩) ∧
        stream.reply 1 = some (.error ⟨3, some 0x78⟩) :=
    ⟨_, _, _, rfl, rfl, rfl, by decide +kernel, by decide +kernel⟩
  rcases runs with
    ⟨catalog, tokenizer, stream, loaded, built, streams, first, second⟩
  have fits : ([0x69, 0x73, 0x0A, 0x78, 0x20, 0x69, 0x73] : Bytes).length ≤
      maxOffset := by
    decide
  rcases ofSource_fused tokenizer fits with ⟨same, sameStreams, machine⟩
  cases streams.symm.trans sameStreams
  have stops := (machine.error 1 _ second).1
  refine ⟨catalog, tokenizer, stream, loaded, built, streams, first,
    (machine.lexeme 0 _ first).1.symm, second, stops.symm, ?_⟩
  intro later afterwards
  rcases machine.fused 1 (.inr ⟨_, second⟩) later afterwards with
    ⟨nothing, stays⟩
  exact ⟨nothing, stays.trans stops.symm⟩

end Lexicon
