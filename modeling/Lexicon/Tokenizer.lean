import Lexicon.Catalog
import Lexicon.Classifier
import Lexicon.Token

/-!
# Tokenizers

A tokenizer tries the categories of a catalog in a priority order.  The first
category that recognises an entry decides the token, also when a later one
would recognise a longer literal.
-/

namespace Lexicon

/-- A category in the priority order, and what may follow its literals. -/
structure Rule where
  category : Category
  boundary : Option Boundary := none
deriving DecidableEq

/-- A classifier of the entries that a catalog has for a rule. -/
def Catalog.classifier (catalog : Catalog) (rule : Rule) : Classifier :=
  Classifier.build rule.category (catalog.table rule.category) rule.boundary

/-- A catalog with a priority order of distinct categories. -/
structure Tokenizer where
  catalog : Catalog
  rules : List Rule
  distinct : (rules.map Rule.category).Nodup
  /-- The classifiers of the rules, built once. -/
  classifiers : List Classifier
  classifiers_eq : classifiers = rules.map catalog.classifier

/-- A token recognised at the start of an input. -/
structure Recognition where
  token : Token
  /-- The number of bytes that the token takes. -/
  length : Nat
  /-- The bytes after the token. -/
  rest : Bytes
deriving DecidableEq

/-- A place where no token is recognised. -/
structure Unrecognized where
  offset : Nat
  /-- The byte at the offset, if the input does not end there. -/
  found : Option UInt8
deriving DecidableEq, Repr

namespace Unrecognized

/-- What stands at the offset, in words. -/
def description (error : Unrecognized) : String :=
  match error.found with
  | none => "end of input"
  | some byte =>
      if Byte.isGraphic byte then "found `" ++ (Char.ofNat byte.toNat).toString ++ "`"
      else "found byte " ++ Hex.byte byte

/-- The message for a reader. -/
def message (error : Unrecognized) : String :=
  s!"unrecognized token at byte {error.offset} ({error.description})"

end Unrecognized

namespace Tokenizer

/-- The first category of a priority order that occurred before. -/
def repeated? (rules : List Rule) : Option Category :=
  (firstClash? Rule.category rules).map fun (_, second) => second.category

theorem repeated?_eq_none_iff (rules : List Rule) :
    repeated? rules = none ↔ (rules.map Rule.category).Nodup := by
  simp [repeated?, firstClash?_eq_none_iff]

/-- A tokenizer over a catalog.  No category may occur twice in the order. -/
def build (catalog : Catalog) (rules : List Rule) : Except CatalogError Tokenizer :=
  match distinct : repeated? rules with
  | some category => .error (.duplicatePriority category)
  | none => .ok
      ⟨catalog, rules, (repeated?_eq_none_iff rules).mp distinct,
        rules.map catalog.classifier, rfl⟩

/-- The categories in the order in which they are tried. -/
def priority (tokenizer : Tokenizer) : List Category :=
  tokenizer.rules.map Rule.category

/-- The entry recognised by the first classifier that recognises one, and its length. -/
def recognizeEntry? (tokenizer : Tokenizer) (input : Bytes) : Option (Entry × Nat) :=
  tokenizer.classifiers.findSome? fun classifier => classifier.recognize? input

/-- The token at the start of an input. -/
def recognize? (tokenizer : Tokenizer) (input : Bytes) : Option Recognition :=
  (tokenizer.recognizeEntry? input).map fun (entry, length) =>
    ⟨Token.ofEntry entry, length, input.drop length⟩

/-- The token at the start of an input that begins at an offset of a source. -/
def classify (tokenizer : Tokenizer) (offset : Nat) (input : Bytes) :
    Except Unrecognized Recognition :=
  match tokenizer.recognize? input with
  | some recognition => .ok recognition
  | none => .error ⟨offset, input.head?⟩

/-- The token at an offset of a source, which may lie past its end. -/
def classifyAt (tokenizer : Tokenizer) (source : Bytes) (offset : Nat) :
    Except Unrecognized Recognition :=
  tokenizer.classify offset (source.drop offset)

/-- The token at the start of an input. -/
def classifyAny (tokenizer : Tokenizer) (input : Bytes) : Except Unrecognized Recognition :=
  tokenizer.classifyAt input 0

/-- A recognised token takes at least one byte. -/
theorem length_pos_of_recognize? {tokenizer : Tokenizer} {input : Bytes}
    {recognition : Recognition} (recognized : tokenizer.recognize? input = some recognition) :
    0 < recognition.length := by
  simp only [recognize?, Option.map_eq_some_iff] at recognized
  obtain ⟨⟨entry, length⟩, found, rfl⟩ := recognized
  obtain ⟨classifier, member, recognizes⟩ := List.exists_of_findSome?_eq_some found
  rw [tokenizer.classifiers_eq] at member
  obtain ⟨rule, _, rfl⟩ := List.mem_map.mp member
  refine Classifier.length_pos_of_recognize? ?_ recognizes
  intro declared place
  exact (tokenizer.catalog.wellFormed declared (Catalog.mem_table.mp place).1).literal_ne_nil

/-- What follows a recognised token is what remains of the input without its bytes. -/
theorem rest_of_recognize? {tokenizer : Tokenizer} {input : Bytes}
    {recognition : Recognition} (recognized : tokenizer.recognize? input = some recognition) :
    recognition.rest = input.drop recognition.length := by
  simp only [recognize?, Option.map_eq_some_iff] at recognized
  obtain ⟨_, _, rfl⟩ := recognized
  rfl

theorem recognize?_of_classify {tokenizer : Tokenizer} {offset : Nat} {input : Bytes}
    {recognition : Recognition} (classified : tokenizer.classify offset input = .ok recognition) :
    tokenizer.recognize? input = some recognition := by
  unfold classify at classified
  split at classified
  case h_1 found => rw [found, Except.ok.inj classified]
  case h_2 => simp at classified

end Tokenizer

end Lexicon
