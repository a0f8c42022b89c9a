import Lexicon.Matcher.Ranked
import Lexicon.Matcher.Trie

/-!
# Matchers

A matcher finds the literals of a list that start an input.  Short lists are
tried literal by literal and long ones are held as a trie.
-/

namespace Lexicon

/-- How the literals are held. -/
inductive LiteralIndex
  | ranked (literals : Ranked)
  | trie (tree : Trie)

/-- A list of literals made ready for matching. -/
structure Matcher where
  /-- The number of literals. -/
  size : Nat
  /-- The length of the longest literal, zero if there is none. -/
  longestLiteral : Nat
  index : LiteralIndex

namespace Matcher

/-- The greatest number of literals that are tried one by one. -/
def trieThreshold : Nat := 32

/-- The length of the longest literal, zero if there is none. -/
def greatestLength (literals : List Bytes) : Nat :=
  literals.foldl (fun greatest literal => max greatest literal.length) 0

/-- Try the literals one by one. -/
def linear (literals : List Bytes) : Matcher :=
  ⟨literals.length, greatestLength literals, .ranked (Ranked.ofLiterals literals)⟩

/-- Hold the literals as a trie. -/
def trie (literals : List Bytes) : Matcher :=
  ⟨literals.length, greatestLength literals, .trie (Trie.ofLiterals literals)⟩

/-- Choose by the number of literals. -/
def build (literals : List Bytes) : Matcher :=
  if literals.length ≤ trieThreshold then linear literals else trie literals

/-- There are no literals. -/
def isEmpty (matcher : Matcher) : Bool :=
  matcher.size == 0

/-- The literals are held as a trie. -/
def usesTrie (matcher : Matcher) : Bool :=
  match matcher.index with
  | .ranked _ => false
  | .trie _ => true

/-- The literals that start the input, longest first. -/
def candidates (matcher : Matcher) (input : Bytes) : List Candidate :=
  match matcher.index with
  | .ranked literals => literals.candidates input
  | .trie tree => tree.candidates input

/-- The longest literal that starts the input. -/
def longest? (matcher : Matcher) (input : Bytes) : Option Candidate :=
  (matcher.candidates input).head?

/-- If no literal is empty, no candidate is. -/
theorem length_pos_of_mem_candidates {literals : List Bytes} {input : Bytes}
    {candidate : Candidate} (nonempty : ∀ literal ∈ literals, literal ≠ [])
    (member : candidate ∈ (build literals).candidates input) : 0 < candidate.length := by
  unfold build at member
  split at member
  case isTrue =>
    obtain ⟨literal, place, length, _⟩ := Ranked.mem_candidates_ofLiterals.mp member
    rw [length]
    exact List.length_pos_iff.mpr (nonempty literal (List.mem_of_getElem? place))
  case isFalse => exact Trie.length_pos_of_mem_candidates member

end Matcher

end Lexicon
