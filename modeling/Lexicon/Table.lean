import Lexicon.Numeral
import Lexicon.Text.WhiteSpace
import Lexicon.Tokenizer

/-!
# Tables

The entries of a category are written in a table, one entry a line.  Blank
lines and lines that start with `#` are noise.  The other lines are rows,
whose fields are given by the table's format.  Tables are read in their
order, which is also the priority order of their categories.
-/

namespace Lexicon

/-- What the fields of a row are. -/
inductive LineFormat
  /-- A literal, which is also the name. -/
  | word
  /-- A name and a literal. -/
  | namedLiteral
  /-- A literal, which is also the name, and a value. -/
  | wordValue
deriving DecidableEq, Repr

/-- The fields of a row, for messages. -/
def LineFormat.expected : LineFormat → String
  | .word => "`literal`"
  | .namedLiteral => "`name literal`"
  | .wordValue => "`literal value`"

/-- What may follow the literals of a table. -/
inductive Adjacency
  /-- Anything may follow. -/
  | free
  /-- The literals are whole words. -/
  | wholeWord
deriving DecidableEq, Repr

/-- The boundary of the literals of a table. -/
def Adjacency.boundary? : Adjacency → Option Boundary
  | .free => none
  | .wholeWord => some Boundary.word

/-- The written entries of one category. -/
structure Table where
  category : Category
  /-- The file name, for messages. -/
  file : String
  text : String
  format : LineFormat
  adjacency : Adjacency
deriving DecidableEq

/-- What is wrong with a row. -/
inductive RowFault
  /-- The row has not as many fields as its format. -/
  | malformed (format : LineFormat) (text : String)
  /-- The value is no numeral. -/
  | invalidValue (text : String)
deriving DecidableEq

/-- The first faulty row of a table. -/
structure TableError where
  file : String
  /-- The number of the line, from one. -/
  line : Nat
  fault : RowFault
deriving DecidableEq

/-- The message for a reader. -/
def TableError.message (error : TableError) : String :=
  match error.fault with
  | .malformed format text =>
      s!"{error.file}:{error.line}: expected {format.expected}, found `{text}`"
  | .invalidValue text =>
      s!"{error.file}:{error.line}: invalid numeric value `{text}`"

namespace Table

/-- The line is blank or a comment. -/
def isNoise : List Char → Bool
  | [] => true
  | first :: _ => first == '#'

/-- The entry of a row with the given fields.  The text of the row is for messages. -/
def entryOfFields (category : Category) (format : LineFormat) (row : List Char)
    (fields : List (List Char)) : Except RowFault Entry :=
  match format, fields with
  | .word, [literal] => .ok (Entry.ofText category literal literal)
  | .namedLiteral, [name, literal] => .ok (Entry.ofText category name literal)
  | .wordValue, [literal, numeral] =>
      match Numeral.read? numeral with
      | some value => .ok ((Entry.ofText category literal literal).withValue value)
      | none => .error (.invalidValue (String.ofList numeral))
  | _, _ => .error (.malformed format (String.ofList row))

/-- The entry of a row. -/
def entryOfRow (category : Category) (format : LineFormat) (row : List Char) :
    Except RowFault Entry :=
  entryOfFields category format row (WhiteSpace.fields row)

/-- The entry of a line, if it is not noise. -/
def entryOfLine (category : Category) (format : LineFormat) (line : List Char) :
    Except RowFault (Option Entry) :=
  let row := WhiteSpace.trim line
  if isNoise row then .ok none
  else (entryOfRow category format row).map some

/-- The entries of lines, the first of which has the given number. -/
def entriesOfLines (file : String) (category : Category) (format : LineFormat) :
    Nat → List (List Char) → Except TableError (List Entry)
  | _, [] => .ok []
  | number, line :: rest =>
      match entryOfLine category format line with
      | .error fault => .error ⟨file, number, fault⟩
      | .ok found =>
          match entriesOfLines file category format (number + 1) rest with
          | .error error => .error error
          | .ok entries => .ok (found.toList ++ entries)

/-- The entries of a table. -/
def entries (table : Table) : Except TableError (List Entry) :=
  entriesOfLines table.file table.category table.format 1 (WhiteSpace.lines table.text.toList)

/-- The entries of several tables in their order. -/
def entriesOfAll : List Table → Except TableError (List Entry)
  | [] => .ok []
  | table :: rest =>
      match table.entries with
      | .error error => .error error
      | .ok first =>
          match entriesOfAll rest with
          | .error error => .error error
          | .ok others => .ok (first ++ others)

/-- The place of a table's category in the priority order. -/
def rule (table : Table) : Rule :=
  ⟨table.category, table.adjacency.boundary?⟩

end Table

/-- Why no tokenizer can be built from tables. -/
inductive SetupError
  | table (error : TableError)
  | catalog (error : CatalogError)
deriving DecidableEq

/-- The message for a reader. -/
def SetupError.message : SetupError → String
  | .table error => error.message
  | .catalog error => error.message

/-- The catalog of the entries of tables. -/
def Catalog.ofTables (tables : List Table) : Except SetupError Catalog :=
  match Table.entriesOfAll tables with
  | .error error => .error (.table error)
  | .ok entries => (Catalog.load entries).mapError .catalog

/-- The tokenizer that tries the categories in the order of their tables. -/
def Tokenizer.ofTables (tables : List Table) : Except SetupError Tokenizer :=
  match Catalog.ofTables tables with
  | .error error => .error error
  | .ok catalog => (Tokenizer.build catalog (tables.map Table.rule)).mapError .catalog

end Lexicon
