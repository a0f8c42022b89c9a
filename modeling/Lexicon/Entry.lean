import Lexicon.Category
import Lexicon.Text.Quoted
import Lexicon.Text.Utf8

/-!
# Entries

An entry declares one token: its category, its name, the bytes by which it is
written and, in the categories that stand for numbers, its value.
-/

namespace Lexicon

/-- The declaration of one token. -/
structure Entry where
  category : Category
  name : String
  /-- The bytes by which the token is written. -/
  literal : Bytes
  value : Option Nat := none
deriving DecidableEq

namespace Entry

/-- The entry with a name and a literal that are given as text. -/
def ofText (category : Category) (name literal : List Char) : Entry :=
  ⟨category, String.ofList name, Utf8.encode literal, none⟩

/-- The entry of a word, which is named by how it is written. -/
def word (category : Category) (text : String) : Entry :=
  ofText category text.toList text.toList

/-- The entry with a value. -/
def withValue (entry : Entry) (value : Nat) : Entry :=
  { entry with value := some value }

/--
The literal is not empty and, where the category needs a value, there is one
within its range.
-/
structure WellFormed (entry : Entry) : Prop where
  literal_ne_nil : entry.literal ≠ []
  value_in_range : ∀ range, entry.category.valueRange? = some range →
    ∃ value, entry.value = some value ∧ range.contains value = true

/-- The parts of the entry by name, for inspection. -/
def text (entry : Entry) : String :=
  let value := match entry.value with
    | some value => ", value: " ++ toString value
    | none => ""
  "CatalogEntry \x7b category: " ++ entry.category.label ++
    ", name: " ++ Quoted.quote entry.name ++
    ", literal: " ++ Quoted.quote (Utf8.text entry.literal) ++ value ++ " \x7d"

end Entry

/-- What is wrong with a list of entries or with a priority order. -/
inductive CatalogError
  | duplicateLiteral (category : Category) (literal first second : String)
  | emptyLiteral (category : Category) (name : String)
  | missingValue (category : Category) (name : String)
  | valueOutOfRange (category : Category) (name : String) (value : Nat) (range : ValueRange)
  | duplicatePriority (category : Category)
deriving DecidableEq, Repr

/-- The message for a reader. -/
def CatalogError.message : CatalogError → String
  | .duplicateLiteral category literal first second =>
      s!"duplicate {category.name} literal `{literal}` declared by `{first}` and `{second}`"
  | .emptyLiteral category name =>
      s!"{category.name} `{name}` has an empty literal"
  | .missingValue category name =>
      s!"{category.name} `{name}` requires a numeric value"
  | .valueOutOfRange category name value range =>
      s!"{category.name} `{name}` has value {value}, expected {range.least}..={range.greatest}"
  | .duplicatePriority category =>
      s!"{category.name} category appears more than once in the priority order"

namespace Entry

/-- What is wrong with the value of an entry. -/
def valueFault? (entry : Entry) : Option CatalogError :=
  match entry.category.valueRange?, entry.value with
  | none, _ => none
  | some _, none =>
      if entry.category.requiresValue then some (.missingValue entry.category entry.name)
      else none
  | some range, some value =>
      if range.contains value then none
      else some (.valueOutOfRange entry.category entry.name value range)

/-- What is wrong with an entry taken by itself.  An empty literal is reported first. -/
def fault? (entry : Entry) : Option CatalogError :=
  if entry.literal.isEmpty then some (.emptyLiteral entry.category entry.name)
  else entry.valueFault?

theorem fault?_eq_none_iff (entry : Entry) : entry.fault? = none ↔ entry.WellFormed := by
  have value : entry.valueFault? = none ↔
      ∀ range, entry.category.valueRange? = some range →
        ∃ value, entry.value = some value ∧ range.contains value = true := by
    rw [valueFault?, Category.requiresValue_eq_isSome]
    cases entry.category.valueRange? <;> cases entry.value <;> simp
  unfold fault?
  split
  case isTrue isEmpty =>
    simp only [reduceCtorEq, false_iff]
    intro wellFormed
    exact wellFormed.literal_ne_nil (List.isEmpty_iff.mp isEmpty)
  case isFalse notEmpty =>
    rw [value]
    exact ⟨fun inRange => ⟨fun empty => notEmpty (List.isEmpty_iff.mpr empty), inRange⟩,
      fun wellFormed => wellFormed.value_in_range⟩

end Entry

end Lexicon
