import Lexicon.Catalog.Overlap
import Lexicon.Text.Column
import Lexicon.Tokenizer

/-!
# The overview of a tokenizer

A table of the categories in priority order, followed by the literals that
several categories declare.
-/

namespace Lexicon.Overview

/-- A row of the table of categories. -/
def row (rank category entries boundary matcher : String) : String :=
  Column.left 4 rank ++ Column.left 24 category ++ Column.right 8 entries ++ "  " ++
    Column.left 10 boundary ++ matcher ++ "\n"

/-- The boundary of a category in words. -/
def boundaryText : Option Boundary → String
  | none => "none"
  | some boundary =>
      if boundary = Boundary.word then "word"
      else toString boundary.allowed.size ++ " bytes"

/-- The row of a category. -/
def classifierRow (rank : Nat) (classifier : Classifier) : String :=
  row (toString rank) classifier.category.name (toString classifier.matcher.size)
    (boundaryText classifier.boundary)
    (if classifier.matcher.usesTrie then "trie" else "linear")

/-- The line of a literal that several categories declare. -/
def overlapLine (overlap : Overlap) : String :=
  "  " ++ Column.left 12 (Utf8.text overlap.literal) ++
    String.intercalate ", " (overlap.categories.map Category.name) ++ "\n"

/-- The part on overlaps, empty if there are none. -/
def overlapPart (overlaps : List Overlap) : String :=
  if overlaps.isEmpty then ""
  else "\noverlapping literals:\n" ++ String.join (overlaps.map overlapLine)

end Lexicon.Overview

namespace Lexicon

/-- The overview of a tokenizer. -/
def Tokenizer.overview (tokenizer : Tokenizer) : String :=
  Overview.row "#" "category" "entries" "boundary" "matcher" ++
    String.join ((tokenizer.classifiers.zipIdx 1).map fun (classifier, rank) =>
      Overview.classifierRow rank classifier) ++
    Overview.overlapPart tokenizer.catalog.overlaps

end Lexicon
