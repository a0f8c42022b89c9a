import Lexicon.Text.Byte

/-!
# Lines and columns

A place in a source is shown as a line and a column, both counted from one.
Columns count bytes.
-/

namespace Lexicon

/-- A line and a column, both counted from one. -/
structure Position where
  line : Nat
  column : Nat
deriving DecidableEq, Repr

namespace Position

/-- The position of the first byte of a source. -/
def start : Position :=
  ⟨1, 1⟩

/-- The position after a byte.  A line feed is the last byte of its line. -/
def advance (position : Position) (byte : UInt8) : Position :=
  if byte == Byte.lineFeed then ⟨position.line + 1, 1⟩
  else ⟨position.line, position.column + 1⟩

/-- The position after a number of bytes, or after all of them if there are fewer. -/
def skip (position : Position) : Bytes → Nat → Position
  | byte :: rest, count + 1 => (position.advance byte).skip rest count
  | _, _ => position

/-- The position of an offset.  An offset past the end has the position of the end. -/
def ofOffset (source : Bytes) (offset : Nat) : Position :=
  start.skip source offset

/-- Skipping bytes goes through them one by one. -/
theorem skip_eq_foldl (position : Position) (source : Bytes) (count : Nat) :
    position.skip source count = (source.take count).foldl advance position := by
  induction source generalizing position count with
  | nil => simp [skip]
  | cons byte rest ih =>
      cases count with
      | zero => simp [skip]
      | succ count => simp [skip, ih]

end Position

end Lexicon
