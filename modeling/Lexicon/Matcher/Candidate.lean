/-!
# Candidates
-/

namespace Lexicon

/-- A literal that starts an input: its place in the list of literals, and its length. -/
structure Candidate where
  index : Nat
  length : Nat
deriving DecidableEq, Repr

end Lexicon
