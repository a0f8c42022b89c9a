import Lexicon.Lexing

/-!
# Token streams

A stream gives the lexemes of a source one by one and stops for good at the
first place where no token is recognised.
-/

namespace Lexicon

/-- What a stream gives: a lexeme, or the error that ends it. -/
abbrev StreamItem := Except Unrecognized Lexeme

/-- A place in a source, with the tokenizer that reads it. -/
structure Stream where
  tokenizer : Tokenizer
  cursor : Cursor
  /-- The end of the source or an error has been met. -/
  finished : Bool

namespace Stream

/-- The stream of a source.  There is none if the source is too long for spans. -/
def ofSource (tokenizer : Tokenizer) (source : Bytes) : Except SpanError Stream :=
  match checkLength source.length with
  | .error error => .error error
  | .ok _ => .ok ⟨tokenizer, Cursor.start source, false⟩

/-- The offset that has been reached. -/
def position (stream : Stream) : Nat :=
  stream.cursor.offset

/-- The next item, and the stream after it. -/
def next (stream : Stream) : Option StreamItem × Stream :=
  if stream.finished then (none, stream)
  else
    let place := stream.cursor.skipBlanks
    if place.rest.isEmpty then
      (none, { stream with cursor := place, finished := true })
    else
      match stream.tokenizer.classify place.offset place.rest with
      | .ok recognition =>
          (some (.ok ⟨recognition.token, place.spanOf recognition.length⟩),
            { stream with cursor := place.advance recognition.length })
      | .error error =>
          (some (.error error), { stream with cursor := place, finished := true })

/-- How much a stream may still give: nothing once it is finished. -/
def remaining (stream : Stream) : Nat :=
  if stream.finished then 0 else stream.cursor.rest.length + 1

/-- Every item uses up some of what remains. -/
theorem remaining_lt_of_next {stream after : Stream} {item : StreamItem}
    (given : stream.next = (some item, after)) : after.remaining < stream.remaining := by
  unfold next at given
  split at given
  case isTrue => simp at given
  case isFalse unfinished =>
    have bound := Cursor.length_rest_skipBlanks_le stream.cursor
    dsimp only at given
    split at given
    case isTrue => simp at given
    case isFalse remains =>
      have nonempty : stream.cursor.skipBlanks.rest ≠ [] := by simpa using remains
      split at given
      case h_1 recognition classified =>
        have positive := Tokenizer.length_pos_of_recognize?
          (Tokenizer.recognize?_of_classify classified)
        have length := List.length_pos_iff.mpr nonempty
        simp only [Prod.mk.injEq] at given
        rw [← given.2]
        simp only [remaining, unfinished, Bool.false_eq_true, if_false,
          Cursor.length_rest_advance]
        omega
      case h_2 =>
        simp only [Prod.mk.injEq] at given
        rw [← given.2]
        simp [remaining, unfinished]

/-- All items up to the end or the error, and the stream after them. -/
def drain (stream : Stream) : List StreamItem × Stream :=
  match _given : stream.next with
  | (none, after) => ([], after)
  | (some item, after) =>
      let (items, last) := after.drain
      (item :: items, last)
termination_by stream.remaining
decreasing_by exact remaining_lt_of_next _given

/-- Nothing is left to give. -/
theorem drain_of_next_eq_none {stream after : Stream} (given : stream.next = (none, after)) :
    stream.drain = ([], after) := by
  rw [drain]
  split <;> simp_all

/-- The first item is given, and then the others. -/
theorem drain_of_next_eq_some {stream after : Stream} {item : StreamItem}
    (given : stream.next = (some item, after)) :
    stream.drain = (item :: after.drain.1, after.drain.2) := by
  rw [drain]
  split <;> simp_all

/-- All lexemes of the stream, or the error that ends it. -/
def collect (stream : Stream) : Except Unrecognized (List Lexeme) × Stream :=
  let (items, last) := stream.drain
  (items.mapM id, last)

end Stream

end Lexicon
