/-!
# Columns of a report

A cell is filled up with spaces to the width of its column.  Widths count
characters, and a cell that is too wide is kept whole.
-/

namespace Lexicon.Column

/-- The spaces that a cell lacks to the width of its column. -/
def filler (width : Nat) (cell : String) : String :=
  String.ofList (List.replicate (width - cell.length) ' ')

/-- The cell at the left end of its column. -/
def left (width : Nat) (cell : String) : String :=
  cell ++ filler width cell

/-- The cell at the right end of its column. -/
def right (width : Nat) (cell : String) : String :=
  filler width cell ++ cell

end Lexicon.Column
