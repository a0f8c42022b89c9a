/-!
# Hexadecimal text
-/

namespace Lexicon.Hex

/-- The hexadecimal digits of a number, in lower case and without leading zeros. -/
def lower (number : Nat) : String :=
  String.ofList (Nat.toDigits 16 number)

/-- The hexadecimal digits of a number, in upper case and without leading zeros. -/
def upper (number : Nat) : String :=
  String.ofList ((Nat.toDigits 16 number).map Char.toUpper)

/-- The two digits of a byte, in lower case. -/
def pair (byte : UInt8) : List Char :=
  [Nat.digitChar (byte.toNat / 16), Nat.digitChar (byte.toNat % 16)]

/-- A byte as `0x` and its two digits. -/
def byte (byte : UInt8) : String :=
  "0x" ++ String.ofList (pair byte)

end Lexicon.Hex
