import Lexicon.ByteSet

/-!
# Boundaries

A boundary says what may follow a literal for it to count as a token: the end
of the input, or a byte of a given set.
-/

namespace Lexicon

/-- A condition on what follows a literal. -/
structure Boundary where
  /-- The bytes that may follow. -/
  allowed : ByteSet
deriving DecidableEq

namespace Boundary

/-- The bytes after a literal may follow it. -/
def accepts (boundary : Boundary) : Bytes → Bool
  | [] => true
  | byte :: _ => boundary.allowed.contains byte

/-- Nothing that identifiers are made of may follow, and no byte outside ASCII. -/
def word : Boundary :=
  ⟨ByteSet.wordBoundary⟩

@[simp]
theorem accepts_nil (boundary : Boundary) : boundary.accepts [] = true := rfl

@[simp]
theorem accepts_cons (boundary : Boundary) (byte : UInt8) (rest : Bytes) :
    boundary.accepts (byte :: rest) = boundary.allowed.contains byte := rfl

end Boundary

end Lexicon
