/-!
# Bytes

Sources and literals are byte strings.  They need not be valid text: every
rule of the lexer looks at single bytes.  This module names the classes of
bytes that those rules speak of.
-/

namespace Lexicon

/-- A byte string. -/
abbrev Bytes := List UInt8

namespace Byte

/-- The byte that ends a line. -/
def lineFeed : UInt8 := 0x0A

/-- A letter of ASCII, of either case. -/
def isLetter (byte : UInt8) : Bool :=
  (0x41 ≤ byte && byte ≤ 0x5A) || (0x61 ≤ byte && byte ≤ 0x7A)

/-- A decimal digit of ASCII. -/
def isDigit (byte : UInt8) : Bool :=
  0x30 ≤ byte && byte ≤ 0x39

/-- A byte that identifiers are made of: a letter, a digit, `_` or `$`. -/
def isWord (byte : UInt8) : Bool :=
  isLetter byte || isDigit byte || byte == 0x5F || byte == 0x24

/-- A byte that separates tokens: space, tab, line feed, carriage return or form feed. -/
def isBlank (byte : UInt8) : Bool :=
  byte == 0x20 || byte == 0x09 || byte == 0x0A || byte == 0x0D || byte == 0x0C

/-- A byte that continues a character of more than one byte. -/
def isContinuation (byte : UInt8) : Bool :=
  byte &&& 0xC0 == 0x80

/-- A visible character of ASCII. -/
def isGraphic (byte : UInt8) : Bool :=
  0x21 ≤ byte && byte ≤ 0x7E

/-- A byte of ASCII. -/
def isAscii (byte : UInt8) : Bool :=
  byte < 0x80

/-- All bytes in ascending order. -/
def all : List UInt8 :=
  (List.range UInt8.size).map UInt8.ofNat

@[simp]
theorem mem_all (byte : UInt8) : byte ∈ all := by
  refine List.mem_map.mpr ⟨byte.toNat, ?_, UInt8.ofNat_toNat⟩
  exact List.mem_range.mpr byte.toNat_lt

/-- A test that all bytes pass one by one holds of every byte. -/
theorem of_all_eq_true {test : UInt8 → Bool} (every : all.all test = true)
    (byte : UInt8) : test byte = true :=
  List.all_eq_true.mp every byte (mem_all byte)

theorem isBlank_iff {byte : UInt8} :
    isBlank byte = true ↔
      byte = 0x20 ∨ byte = 0x09 ∨ byte = 0x0A ∨ byte = 0x0D ∨ byte = 0x0C := by
  simp [isBlank, or_assoc]

theorem isAscii_of_isBlank {byte : UInt8} (blank : isBlank byte = true) :
    isAscii byte = true := by
  rcases isBlank_iff.mp blank with rfl | rfl | rfl | rfl | rfl <;> decide

theorem isWord_of_isBlank {byte : UInt8} (blank : isBlank byte = true) :
    isWord byte = false := by
  rcases isBlank_iff.mp blank with rfl | rfl | rfl | rfl | rfl <;> decide

theorem isContinuation_of_isBlank {byte : UInt8} (blank : isBlank byte = true) :
    isContinuation byte = false := by
  rcases isBlank_iff.mp blank with rfl | rfl | rfl | rfl | rfl <;> decide

theorem isAscii_of_isWord {byte : UInt8} (word : isWord byte = true) :
    isAscii byte = true := by
  have every : (all.all fun byte => !isWord byte || isAscii byte) = true := by
    decide +kernel
  have here := of_all_eq_true every byte
  simpa [word] using here

theorem isWord_of_isContinuation {byte : UInt8} (continues : isContinuation byte = true) :
    isWord byte = false := by
  have every : (all.all fun byte => !isContinuation byte || !isWord byte) = true := by
    decide +kernel
  have here := of_all_eq_true every byte
  simpa [continues] using here

end Byte

end Lexicon
