import Lexicon.Numeral
import Lexicon.Text.WhiteSpace
import Mathlib.Data.Nat.Digits.Defs

/-!
# Numerals as they are written

A numeral is written with a mark for its base, perhaps a plus sign, and one or
more digits from the most significant one on.  Letters that serve as digits
may have either case, and zeros may lead.  Reading a numeral gives the value
that its digits have in the base.
-/

namespace Lexicon.Numeral

/-! ## Digits -/

/-- A digit of a base, and the case of the letter that writes it. -/
structure Digit (base : Nat) where
  value : Nat
  upper : Bool
  value_lt : value < base
deriving DecidableEq

namespace Digit

variable {base : Nat}

/-- The character of a digit.  The case matters for letters only. -/
def char (digit : Digit base) : Char :=
  if digit.upper then (Nat.digitChar digit.value).toUpper
  else Nat.digitChar digit.value

/-- The characters that write the digits of the bases up to sixteen. -/
def characters : List Char :=
  ['0', '1', '2', '3', '4', '5', '6', '7', '8', '9', 'a', 'b', 'c', 'd', 'e',
    'f', 'A', 'B', 'C', 'D', 'E', 'F']

theorem char_mem_characters (small : base ≤ 16) (digit : Digit base) :
    digit.char ∈ characters := by
  have every : ∀ value : Fin 16, ∀ upper,
      (Digit.mk value.val upper value.isLt).char ∈ characters := by decide
  exact every ⟨digit.value, digit.value_lt.trans_le small⟩ digit.upper

theorem digitValue?_char (small : base ≤ 16) (digit : Digit base) :
    digitValue? digit.char = some digit.value := by
  have every : ∀ value : Fin 16, ∀ upper,
      digitValue? (Digit.mk value.val upper value.isLt).char =
        some value.val := by decide
  exact every ⟨digit.value, digit.value_lt.trans_le small⟩ digit.upper

theorem digit?_char (small : base ≤ 16) (digit : Digit base) :
    digit? base digit.char = some digit.value := by
  rw [digit?, digitValue?_char small, Option.filter_some,
    if_pos (decide_eq_true digit.value_lt)]

/-- The value of digits in their base, of which the most significant one comes first. -/
def valueOf (digits : List (Digit base)) : Nat :=
  Nat.ofDigits base (digits.map Digit.value).reverse

theorem valueOf_cons (digit : Digit base) (rest : List (Digit base)) :
    valueOf (digit :: rest) =
      valueOf rest + base ^ rest.length * digit.value := by
  rw [valueOf, List.map_cons, List.reverse_cons, Nat.ofDigits_append,
    Nat.ofDigits_singleton, List.length_reverse, List.length_map, valueOf]

end Digit

/-! ## Whole numerals -/

/-- How a numeral shows its base. -/
inductive Mark
  | decimal
  /-- The digits are hexadecimal and follow `0x`. -/
  | hexLower
  /-- The digits are hexadecimal and follow `0X`. -/
  | hexUpper
deriving DecidableEq

namespace Mark

/-- The base of the digits. -/
def base : Mark → Nat
  | .decimal => 10
  | .hexLower => 16
  | .hexUpper => 16

/-- The characters before the digits. -/
def text : Mark → List Char
  | .decimal => []
  | .hexLower => ['0', 'x']
  | .hexUpper => ['0', 'X']

theorem base_le (mark : Mark) : mark.base ≤ 16 := by
  cases mark <;> decide

theorem eq_of_mem_text {mark : Mark} {char : Char}
    (member : char ∈ mark.text) : char = '0' ∨ char = 'x' ∨ char = 'X' := by
  cases mark with
  | decimal => cases member
  | hexLower =>
      rcases List.mem_cons.mp member with rfl | later
      · exact Or.inl rfl
      · exact Or.inr (Or.inl (List.mem_singleton.mp later))
  | hexUpper =>
      rcases List.mem_cons.mp member with rfl | later
      · exact Or.inl rfl
      · exact Or.inr (Or.inr (List.mem_singleton.mp later))

end Mark

/-- A written numeral, whose value fits in 32 bits. -/
structure Spelling where
  mark : Mark
  /-- A plus sign stands before the digits. -/
  signed : Bool
  /-- The digits, of which the most significant one is the first. -/
  digits : List (Digit mark.base)
  nonempty : digits ≠ []
  fits : Digit.valueOf digits ≤ maxValue

namespace Spelling

/-- The value of the digits in the base. -/
def value (spelling : Spelling) : Nat :=
  Digit.valueOf spelling.digits

/-- The plus sign, if there is one. -/
def sign (spelling : Spelling) : List Char :=
  if spelling.signed then ['+'] else []

/-- The characters of a numeral. -/
def text (spelling : Spelling) : List Char :=
  spelling.mark.text ++ (spelling.sign ++ spelling.digits.map Digit.char)

end Spelling

/-! ## Reading -/

/-- The mark shows the base, and without a mark nothing is taken for one. -/
theorem splitBase_mark_append (mark : Mark) {rest : List Char}
    (unmarked : ∀ char, char = 'x' ∨ char = 'X' → char ∉ rest) :
    splitBase (mark.text ++ rest) = (mark.base, rest) := by
  cases mark with
  | hexLower => rfl
  | hexUpper => rfl
  | decimal =>
      rw [Mark.text, List.nil_append, splitBase]
      · rfl
      · intro others starts
        exact unmarked 'x' (Or.inl rfl) (by simp [starts])
      · intro others starts
        exact unmarked 'X' (Or.inr rfl) (by simp [starts])

/-- Digits that follow a value multiply it by a power of the base. -/
theorem readFrom?_map_char {base : Nat} (small : base ≤ 16) (value : Nat)
    (digits : List (Digit base)) :
    readFrom? base value (digits.map Digit.char) =
      some (value * base ^ digits.length + Digit.valueOf digits) := by
  induction digits generalizing value with
  | nil => simp [readFrom?, Digit.valueOf]
  | cons digit rest induction =>
      simp only [List.map_cons, readFrom?, digit.digit?_char small, induction,
        Digit.valueOf_cons, List.length_cons, Nat.pow_succ]
      congr 1
      ring

theorem natural?_map_char {base : Nat} (small : base ≤ 16)
    {digits : List (Digit base)} (nonempty : digits ≠ []) :
    natural? base (digits.map Digit.char) = some (Digit.valueOf digits) := by
  rcases List.exists_cons_of_ne_nil nonempty with ⟨first, rest, rfl⟩
  have read := readFrom?_map_char small 0 (first :: rest)
  rw [Nat.zero_mul, Nat.zero_add] at read
  exact read

namespace Spelling

theorem mem_characters_of_mem_digits (spelling : Spelling) {char : Char}
    (member : char ∈ spelling.digits.map Digit.char) :
    char ∈ Digit.characters := by
  rcases List.mem_map.mp member with ⟨digit, _, rfl⟩
  exact digit.char_mem_characters spelling.mark.base_le

theorem dropSign_sign_append (spelling : Spelling) :
    dropSign (spelling.sign ++ spelling.digits.map Digit.char) =
      spelling.digits.map Digit.char := by
  rw [sign]
  split
  case isTrue => rfl
  case isFalse =>
    rw [List.nil_append, dropSign]
    intro rest starts
    have member : '+' ∈ spelling.digits.map Digit.char := by
      rw [starts]
      exact List.mem_cons_self
    exact absurd (spelling.mem_characters_of_mem_digits member) (by decide)

theorem eq_plus_of_mem_sign {spelling : Spelling} {char : Char}
    (member : char ∈ spelling.sign) : char = '+' := by
  rw [sign] at member
  split at member
  case isTrue => exact List.mem_singleton.mp member
  case isFalse => cases member

/-- The letter of a mark is neither a sign nor a digit. -/
theorem not_mem_sign_append (spelling : Spelling) (char : Char)
    (isMark : char = 'x' ∨ char = 'X') :
    char ∉ spelling.sign ++ spelling.digits.map Digit.char := by
  intro member
  rcases List.mem_append.mp member with inSign | inDigits
  · have plus := eq_plus_of_mem_sign inSign
    rcases isMark with rfl | rfl
    · cases plus
    · cases plus
  · have digit := spelling.mem_characters_of_mem_digits inDigits
    rcases isMark with rfl | rfl
    · exact absurd digit (by decide)
    · exact absurd digit (by decide)

/-- A numeral is read back to the value of its digits. -/
theorem read?_text (spelling : Spelling) :
    read? spelling.text = some spelling.value := by
  have split := splitBase_mark_append spelling.mark
    spelling.not_mem_sign_append
  rw [read?, text, split]
  dsimp only
  rw [dropSign_sign_append,
    natural?_map_char spelling.mark.base_le spelling.nonempty,
    Option.filter_some, if_pos (decide_eq_true spelling.fits)]
  rfl

/-! ## Characters -/

theorem text_ne_nil (spelling : Spelling) : spelling.text ≠ [] := by
  rw [text]
  simp [spelling.nonempty]

theorem isSpace_of_mem_text (spelling : Spelling) {char : Char}
    (member : char ∈ spelling.text) : WhiteSpace.isSpace char = false := by
  rcases List.mem_append.mp member with inMark | others
  · rcases Mark.eq_of_mem_text inMark with rfl | rfl | rfl
    · decide
    · decide
    · decide
  · rcases List.mem_append.mp others with inSign | inDigits
    · rw [eq_plus_of_mem_sign inSign]
      decide
    · have visible : (Digit.characters.all fun char =>
          !WhiteSpace.isSpace char) = true := by decide
      have listed := spelling.mem_characters_of_mem_digits inDigits
      simpa using List.all_eq_true.mp visible char listed

end Spelling

end Lexicon.Numeral
