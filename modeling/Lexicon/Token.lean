import Lexicon.Entry
import Lexicon.Text.Hex

/-!
# Tokens

A token is what an entry stands for.  Most tokens are known by their name, an
unsigned integer type by its width in bits and an opcode by its name and code.
-/

namespace Lexicon

/-- What a recognised literal stands for. -/
inductive Token
  | keyword (name : String)
  | reserved (name : String)
  | delimiter (name : String)
  | storageLocation (name : String)
  | elementaryType (name : String)
  | uint (bits : UInt16)
  | assignment (name : String)
  | numberUnit (name : String)
  | opcode (name : String) (code : UInt8)
deriving DecidableEq, Repr

namespace Token

/-- The width of an unsigned integer type.  It is zero if the value does not fit. -/
def bitsOf (value : Option Nat) : UInt16 :=
  match value with
  | some value => if value < UInt16.size then UInt16.ofNat value else 0
  | none => 0

/-- The code of an opcode.  It is zero if the value does not fit. -/
def codeOf (value : Option Nat) : UInt8 :=
  match value with
  | some value => if value < UInt8.size then UInt8.ofNat value else 0
  | none => 0

/-- The token that an entry stands for. -/
def ofEntry (entry : Entry) : Token :=
  match entry.category with
  | .keyword => .keyword entry.name
  | .reserved => .reserved entry.name
  | .delimiter => .delimiter entry.name
  | .storageLocation => .storageLocation entry.name
  | .elementaryType => .elementaryType entry.name
  | .uint => .uint (bitsOf entry.value)
  | .assignment => .assignment entry.name
  | .numberUnit => .numberUnit entry.name
  | .opcode => .opcode entry.name (codeOf entry.value)

/-- The category of a token. -/
def category : Token → Category
  | .keyword _ => .keyword
  | .reserved _ => .reserved
  | .delimiter _ => .delimiter
  | .storageLocation _ => .storageLocation
  | .elementaryType _ => .elementaryType
  | .uint _ => .uint
  | .assignment _ => .assignment
  | .numberUnit _ => .numberUnit
  | .opcode _ _ => .opcode

/-- What tells a token from the others of its category. -/
def detail : Token → String
  | .keyword name => name
  | .reserved name => name
  | .delimiter name => name
  | .storageLocation name => name
  | .elementaryType name => name
  | .uint bits => toString bits.toNat
  | .assignment name => name
  | .numberUnit name => name
  | .opcode name code => name ++ " = " ++ Hex.byte code

/-- The label of the category, followed by the detail in parentheses. -/
def text (token : Token) : String :=
  token.category.label ++ "(" ++ token.detail ++ ")"

@[simp]
theorem category_ofEntry (entry : Entry) : (ofEntry entry).category = entry.category := by
  unfold ofEntry
  split <;> simp_all [category]

end Token

end Lexicon
