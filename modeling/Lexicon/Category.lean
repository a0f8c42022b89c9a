/-!
# Categories of tokens

Every token belongs to one of nine categories, which have a fixed order.  Two
of them stand for numbers: an unsigned integer type carries its width in bits
and an opcode its code, so their entries need a value within a range.
-/

namespace Lexicon

/-- The kinds of token, in their fixed order. -/
inductive Category
  | keyword
  | reserved
  | delimiter
  | storageLocation
  | elementaryType
  | uint
  | assignment
  | numberUnit
  | opcode
deriving DecidableEq, Repr

/-- A range of values with both ends included. -/
structure ValueRange where
  least : Nat
  greatest : Nat
deriving DecidableEq, Repr

/-- The value lies in the range. -/
def ValueRange.contains (range : ValueRange) (value : Nat) : Bool :=
  range.least ≤ value && value ≤ range.greatest

namespace Category

/-- All categories in their order. -/
def all : List Category :=
  [.keyword, .reserved, .delimiter, .storageLocation, .elementaryType, .uint,
    .assignment, .numberUnit, .opcode]

/-- The place of a category in the order, from zero. -/
def index : Category → Nat
  | .keyword => 0
  | .reserved => 1
  | .delimiter => 2
  | .storageLocation => 3
  | .elementaryType => 4
  | .uint => 5
  | .assignment => 6
  | .numberUnit => 7
  | .opcode => 8

/-- The number of categories. -/
def count : Nat := all.length

/-- The words by which messages and reports call a category. -/
def name : Category → String
  | .keyword => "keyword"
  | .reserved => "reserved word"
  | .delimiter => "delimiter"
  | .storageLocation => "storage location"
  | .elementaryType => "elementary type name"
  | .uint => "unsigned integer type"
  | .assignment => "assignment operator"
  | .numberUnit => "number unit"
  | .opcode => "opcode"

/-- The short label of a category, without blanks. -/
def label : Category → String
  | .keyword => "Keyword"
  | .reserved => "Reserved"
  | .delimiter => "Delimiter"
  | .storageLocation => "StorageLocation"
  | .elementaryType => "ElementaryType"
  | .uint => "UInt"
  | .assignment => "Assignment"
  | .numberUnit => "NumberUnit"
  | .opcode => "OpCode"

/-- The category with a given label. -/
def ofLabel? (text : String) : Option Category :=
  all.find? fun category => category.label == text

/-- Entries of the category need a value: the width of a type or the code of an opcode. -/
def requiresValue : Category → Bool
  | .uint | .opcode => true
  | _ => false

/-- The values that entries of a category may have, if any are looked at. -/
def valueRange? : Category → Option ValueRange
  | .uint => some ⟨1, 256⟩
  | .opcode => some ⟨0, 255⟩
  | _ => none

/-- The categories in their order, repetitions kept. -/
def sort (categories : List Category) : List Category :=
  categories.mergeSort fun left right => left.index ≤ right.index

@[simp]
theorem mem_all (category : Category) : category ∈ all := by
  cases category <;> simp [all]

theorem index_lt_count (category : Category) : category.index < count := by
  cases category <;> decide

/-- Values are looked at exactly where they are needed. -/
theorem requiresValue_eq_isSome (category : Category) :
    category.requiresValue = category.valueRange?.isSome := by
  cases category <;> rfl

theorem all_get_index (category : Category) : all[category.index]? = some category := by
  cases category <;> rfl

theorem index_getElem_all {place : Nat} (inside : place < all.length) :
    all[place].index = place := by
  have stands : ∀ place : Fin count, (all.get place).index = place := by decide
  exact stands ⟨place, inside⟩

theorem index_injective {left right : Category} (equal : left.index = right.index) :
    left = right := by
  have found := all_get_index left
  rw [equal, all_get_index right] at found
  exact (Option.some.inj found).symm

end Category

end Lexicon
