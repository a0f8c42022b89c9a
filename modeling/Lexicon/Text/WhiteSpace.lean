/-!
# White space in text

Two classes of characters separate things in a text.  Lines are trimmed of
every character with the Unicode property White_Space, and fields of a line
are divided at the blank characters of ASCII alone, so a no-break space may
stand inside a field but never at the end of a line.

A line ends with a line feed or with a carriage return and a line feed.  The
last line need not be ended, and a text that is empty has no line.
-/

namespace Lexicon.WhiteSpace

/-- The characters with the property White_Space. -/
def characters : List Char :=
  ['\x09', '\x0a', '\x0b', '\x0c', '\x0d', '\x20', '\x85',
    '\xa0', '\u1680', '\u2000', '\u2001', '\u2002', '\u2003', '\u2004',
    '\u2005', '\u2006', '\u2007', '\u2008', '\u2009', '\u200a', '\u2028',
    '\u2029', '\u202f', '\u205f', '\u3000']

/-- The character has the property White_Space. -/
def isSpace (char : Char) : Bool :=
  characters.contains char

/-- A blank character of ASCII: space, tab, line feed, carriage return or form feed. -/
def isBlank (char : Char) : Bool :=
  char == ' ' || char == '\t' || char == '\n' || char == '\r' || char == '\x0C'

/-- Every blank character of ASCII is white space. -/
theorem isSpace_of_isBlank {char : Char} (blank : isBlank char = true) :
    isSpace char = true := by
  simp only [isBlank, Bool.or_eq_true, beq_iff_eq] at blank
  rcases blank with (((rfl | rfl) | rfl) | rfl) | rfl <;> decide

/-- Drop white space at both ends. -/
def trim (text : List Char) : List Char :=
  ((text.dropWhile isSpace).reverse.dropWhile isSpace).reverse

/-- The non-empty runs of characters between blank characters of ASCII. -/
def fields (text : List Char) : List (List Char) :=
  (text.splitOnP isBlank).filter fun field => !field.isEmpty

/--
The pieces of a text, each of which goes on to the end of a line feed or of
the text.  The characters of the first piece that were seen before the text
are given, the latest one first.
-/
def piecesAfter (seen : List Char) : List Char → List (List Char)
  | [] => if seen.isEmpty then [] else [seen.reverse]
  | char :: rest =>
      if char == '\n' then (char :: seen).reverse :: piecesAfter [] rest
      else piecesAfter (char :: seen) rest

/-- The text without its last character, if that is the given one. -/
def stripLast? (last : Char) (text : List Char) : Option (List Char) :=
  if text.getLast? = some last then some text.dropLast else none

/--
A piece without its line feed and the carriage return before that.  A carriage
return that no line feed follows is kept.
-/
def stripEnd (piece : List Char) : List Char :=
  match stripLast? '\n' piece with
  | none => piece
  | some line => (stripLast? '\r' line).getD line

/-- The lines of a text without their ends. -/
def lines (text : List Char) : List (List Char) :=
  (piecesAfter [] text).map stripEnd

/-- A piece of a list that is split holds nothing that separates pieces. -/
theorem eq_false_of_mem_splitOnP {α : Type} {separates : α → Bool}
    {list piece : List α} {element : α}
    (member : piece ∈ list.splitOnP separates) (inside : element ∈ piece) :
    separates element = false := by
  induction list generalizing piece with
  | nil =>
      rw [List.splitOnP_nil, List.mem_singleton] at member
      subst member
      cases inside
  | cons first rest induction =>
      rw [List.splitOnP_cons_eq_if_modifyHead] at member
      split at member
      case isTrue =>
        rcases List.mem_cons.mp member with rfl | later
        · cases inside
        · exact induction later inside
      case isFalse noSeparator =>
        cases pieces : rest.splitOnP separates with
        | nil => exact absurd pieces (List.splitOnP_ne_nil separates rest)
        | cons head others =>
            rw [pieces] at member induction
            rcases List.mem_cons.mp member with rfl | later
            · rcases List.mem_cons.mp inside with rfl | deeper
              · exact eq_false_of_ne_true noSeparator
              · exact induction List.mem_cons_self deeper
            · exact induction (List.mem_cons_of_mem head later) inside

end Lexicon.WhiteSpace
