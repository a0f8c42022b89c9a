import Lexicon.Matcher.Candidate
import Lexicon.Text.Byte

/-!
# Ranked literals

The plain way to match: the literals are held longest first, and each of them
is compared with the start of the input.  Of equally long literals the one
that is listed first comes first.
-/

namespace Lexicon

/-- Literals with their places, in the order in which they are tried. -/
structure Ranked where
  items : List (Bytes × Nat)

namespace Ranked

/-- The first literal is longer, or as long and listed no later. -/
def precedes (left right : Bytes × Nat) : Bool :=
  right.1.length < left.1.length ||
    (left.1.length == right.1.length && left.2 ≤ right.2)

/-- Rank a list of literals. -/
def ofLiterals (literals : List Bytes) : Ranked :=
  ⟨literals.zipIdx.mergeSort precedes⟩

/-- The literals that start the input, longest first. -/
def candidates (ranked : Ranked) (input : Bytes) : List Candidate :=
  (ranked.items.filter fun item => item.1.isPrefixOf input).map fun item =>
    ⟨item.2, item.1.length⟩

theorem mem_candidates_ofLiterals {literals : List Bytes} {input : Bytes}
    {candidate : Candidate} :
    candidate ∈ (ofLiterals literals).candidates input ↔
      ∃ literal, literals[candidate.index]? = some literal ∧
        candidate.length = literal.length ∧ literal <+: input := by
  simp only [candidates, ofLiterals, List.mem_map, List.mem_filter, List.mem_mergeSort,
    List.mem_zipIdx_iff_getElem?, List.isPrefixOf_iff_prefix, Prod.exists]
  constructor
  · rintro ⟨literal, index, ⟨place, starts⟩, rfl⟩
    exact ⟨literal, place, rfl, starts⟩
  · rintro ⟨literal, place, length, starts⟩
    refine ⟨literal, candidate.index, ⟨place, starts⟩, ?_⟩
    cases candidate
    simp_all

end Ranked

end Lexicon
