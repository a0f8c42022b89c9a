/-!
# Characters that may be ignored

The Unicode property Default_Ignorable_Code_Point: characters that leave no
trace on a display which does not know them, such as fillers, joiners and
variation selectors.
-/

namespace Lexicon.DefaultIgnorable

/-- The ranges of characters with the property, in ascending order with both ends included. -/
def ranges : List (Nat × Nat) :=
  [(0xad, 0xad), (0x34f, 0x34f), (0x61c, 0x61c), (0x115f, 0x1160), (0x17b4, 0x17b5),
    (0x180b, 0x180f), (0x200b, 0x200f), (0x202a, 0x202e), (0x2060, 0x206f), (0x3164, 0x3164),
    (0xfe00, 0xfe0f), (0xfeff, 0xfeff), (0xffa0, 0xffa0), (0xfff0, 0xfff8), (0x1bca0, 0x1bca3),
    (0x1d173, 0x1d17a), (0xe0000, 0xe0fff)]

end Lexicon.DefaultIgnorable

namespace Lexicon

/-- The character may leave no trace. -/
def isDefaultIgnorable (char : Char) : Bool :=
  DefaultIgnorable.ranges.any fun range => range.1 ≤ char.toNat && char.toNat ≤ range.2

end Lexicon
