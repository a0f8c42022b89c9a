import Lexicon.Text.Hex

/-!
# Spans

A span is a range of byte offsets in a source.  Offsets fit in 32 bits.  A
span need not be ordered: its end may lie before its start.
-/

namespace Lexicon

/-- The greatest offset. -/
def maxOffset : Nat := 0xFFFFFFFF

/-- A range of byte offsets: from `start`, up to and without `stop`. -/
@[ext]
structure Span where
  start : Nat
  stop : Nat
  start_le : start ≤ maxOffset
  stop_le : stop ≤ maxOffset
deriving DecidableEq

/-- An end of a range that no span can have. -/
inductive SpanError
  | startTooLarge (offset : Nat)
  | stopTooLarge (offset : Nat)
deriving DecidableEq, Repr

namespace SpanError

/-- The offset that is too large. -/
def offset : SpanError → Nat
  | .startTooLarge offset => offset
  | .stopTooLarge offset => offset

/-- The word for the end of the range that is too large. -/
def side : SpanError → String
  | .startTooLarge _ => "start"
  | .stopTooLarge _ => "end"

/-- The message for a reader. -/
def message (error : SpanError) : String :=
  s!"span {error.side} {error.offset} (0x{Hex.upper error.offset}) exceeds u32::MAX"

end SpanError

namespace Span

/-- The span of a range, if its ends fit.  The start is looked at first. -/
def ofRange (start stop : Nat) : Except SpanError Span :=
  if startFits : start ≤ maxOffset then
    if stopFits : stop ≤ maxOffset then .ok ⟨start, stop, startFits, stopFits⟩
    else .error (.stopTooLarge stop)
  else .error (.startTooLarge start)

/-- The span of a range, with ends that do not fit moved to the greatest offset. -/
def clamp (start stop : Nat) : Span where
  start := min start maxOffset
  stop := min stop maxOffset
  start_le := Nat.min_le_right start maxOffset
  stop_le := Nat.min_le_right stop maxOffset

/-- The span at the start of a source that holds no byte. -/
def empty : Span := clamp 0 0

/-- The span holds no byte because its ends are equal. -/
def isEmpty (span : Span) : Bool :=
  span.start == span.stop

/-- The number of bytes, if the end does not lie before the start. -/
def length? (span : Span) : Option Nat :=
  if span.start ≤ span.stop then some (span.stop - span.start) else none

/-- The two ends with two points between them. -/
def text (span : Span) : String :=
  toString span.start ++ ".." ++ toString span.stop

theorem clamp_start {start stop : Nat} (fits : start ≤ maxOffset) :
    (clamp start stop).start = start :=
  Nat.min_eq_left fits

theorem clamp_stop {start stop : Nat} (fits : stop ≤ maxOffset) :
    (clamp start stop).stop = stop :=
  Nat.min_eq_left fits

end Span

end Lexicon
