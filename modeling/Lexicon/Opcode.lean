import Lexicon.Catalog
import Lexicon.Numeral
import Lexicon.Text.Hex

/-!
# Opcodes

The opcodes of a catalog as a table from names to codes and back.  Several
names may share a code.  The name of a code is then the first one declared.
-/

namespace Lexicon

/-- The names and codes of opcodes, in the order in which they are declared. -/
structure OpcodeTable where
  pairs : List (String × UInt8)

namespace OpcodeTable

/-- The name and code of an entry, if its value is a byte. -/
def pair? (entry : Entry) : Option (String × UInt8) :=
  entry.value.bind fun value =>
    if value < UInt8.size then some (entry.name, UInt8.ofNat value) else none

/-- The opcodes of a catalog. -/
def ofCatalog (catalog : Catalog) : OpcodeTable :=
  ⟨(catalog.table .opcode).filterMap pair?⟩

/-- The number of opcodes. -/
def size (table : OpcodeTable) : Nat :=
  table.pairs.length

/-- There are no opcodes. -/
def isEmpty (table : OpcodeTable) : Bool :=
  table.pairs.isEmpty

/-- The code that was last declared for a name. -/
def code? (table : OpcodeTable) (name : String) : Option UInt8 :=
  (table.pairs.reverse.find? fun pair => pair.1 == name).map Prod.snd

/-- The name that was first declared for a code. -/
def name? (table : OpcodeTable) (code : UInt8) : Option String :=
  (table.pairs.find? fun pair => pair.2 == code).map Prod.fst

end OpcodeTable

/-- Why a query for an opcode has no answer. -/
inductive OpcodeError
  | outOfRange (code : Nat)
  | unusedCode (code : UInt8)
  | unknownName (query : String)
deriving DecidableEq, Repr

/-- The message for a reader. -/
def OpcodeError.message : OpcodeError → String
  | .outOfRange code => s!"opcode code {code} is out of range"
  | .unusedCode code => s!"no opcode has code {Hex.byte code}"
  | .unknownName query => s!"unknown opcode `{query}`"

namespace OpcodeTable

/-- A text with the letters of ASCII in lower case. -/
def lowercase (text : String) : String :=
  String.ofList (text.toList.map Char.toLower)

/-- Find an opcode by a numeral for its code, or else by its name in any case. -/
def find (table : OpcodeTable) (query : String) : Except OpcodeError (String × UInt8) :=
  match Numeral.ofString? query with
  | some value =>
      if value < UInt8.size then
        let code := UInt8.ofNat value
        match table.name? code with
        | some name => .ok (name, code)
        | none => .error (.unusedCode code)
      else .error (.outOfRange value)
  | none =>
      let name := lowercase query
      match table.code? name with
      | some code => .ok (name, code)
      | none => .error (.unknownName query)

end OpcodeTable

end Lexicon
