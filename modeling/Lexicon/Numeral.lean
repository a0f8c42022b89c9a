/-!
# Numerals

A numeral is decimal, or hexadecimal after `0x` or `0X`.  The digits may
follow one plus sign and any number of zeros.  Values fit in 32 bits.
-/

namespace Lexicon.Numeral

/-- The greatest value of a numeral. -/
def maxValue : Nat := 0xFFFFFFFF

/-- The value of a digit, with letters of either case from ten on. -/
def digitValue? (char : Char) : Option Nat :=
  if '0' ≤ char ∧ char ≤ '9' then some (char.toNat - '0'.toNat)
  else if 'a' ≤ char ∧ char ≤ 'f' then some (char.toNat - 'a'.toNat + 10)
  else if 'A' ≤ char ∧ char ≤ 'F' then some (char.toNat - 'A'.toNat + 10)
  else none

/-- The value of a digit of a base. -/
def digit? (base : Nat) (char : Char) : Option Nat :=
  (digitValue? char).filter fun digit => digit < base

/-- Read digits after those that make up a value. -/
def readFrom? (base value : Nat) : List Char → Option Nat
  | [] => some value
  | char :: rest =>
      match digit? base char with
      | some digit => readFrom? base (value * base + digit) rest
      | none => none

/-- The value of a text of one or more digits. -/
def natural? (base : Nat) : List Char → Option Nat
  | [] => none
  | text => readFrom? base 0 text

/-- Drop one plus sign at the start. -/
def dropSign : List Char → List Char
  | '+' :: rest => rest
  | text => text

/-- The digits of a numeral and their base. -/
def splitBase : List Char → Nat × List Char
  | '0' :: 'x' :: rest => (16, rest)
  | '0' :: 'X' :: rest => (16, rest)
  | text => (10, text)

/-- The value of a numeral. -/
def read? (text : List Char) : Option Nat :=
  let (base, digits) := splitBase text
  (natural? base (dropSign digits)).filter fun value => value ≤ maxValue

/-- The value of a numeral that is given as a string. -/
def ofString? (text : String) : Option Nat :=
  read? text.toList

end Lexicon.Numeral
