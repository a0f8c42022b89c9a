import Lexicon.Catalog

/-!
# Overlaps

A literal overlaps when more than one category declares it.  The priority
order of the categories then decides which token it stands for.
-/

namespace Lexicon

/-- The first byte string comes before the second in lexicographic order, or equals it. -/
def Bytes.le : Bytes → Bytes → Bool
  | [], _ => true
  | _ :: _, [] => false
  | left :: leftRest, right :: rightRest =>
      left < right || (left == right && Bytes.le leftRest rightRest)

/-- A literal and the categories that declare it, in their order. -/
structure Overlap where
  literal : Bytes
  categories : List Category
deriving DecidableEq

namespace Catalog

/-- The categories that declare a literal, in their order. -/
def declaring (catalog : Catalog) (literal : Bytes) : List Category :=
  Category.all.filter fun category =>
    (catalog.table category).any fun entry => entry.literal == literal

/-- The declared literals in ascending order, each once. -/
def literals (catalog : Catalog) : List Bytes :=
  ((catalog.entries.map Entry.literal).mergeSort Bytes.le).eraseReps

/-- The literals that at least two categories declare, in ascending order. -/
def overlaps (catalog : Catalog) : List Overlap :=
  (catalog.literals.map fun literal => ⟨literal, catalog.declaring literal⟩).filter
    fun overlap => 2 ≤ overlap.categories.length

end Catalog

end Lexicon
