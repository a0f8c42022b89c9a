import Lexicon.Boundary
import Lexicon.Entry
import Lexicon.Matcher

/-!
# Classifiers

A classifier recognises the entries of one category at the start of an input.
Without a boundary the longest literal wins.  With one, it is the longest
literal that the rest of the input may follow, so a literal that is refused
gives way to a shorter one.
-/

namespace Lexicon

/-- The entries of a category made ready for matching. -/
structure Classifier where
  category : Category
  entries : Array Entry
  matcher : Matcher
  boundary : Option Boundary

namespace Classifier

/-- A classifier of the given entries. -/
def build (category : Category) (entries : List Entry) (boundary : Option Boundary) :
    Classifier where
  category := category
  entries := entries.toArray
  matcher := Matcher.build (entries.map Entry.literal)
  boundary := boundary

/-- The candidate may be followed by what comes after it. -/
def admits (classifier : Classifier) (input : Bytes) (candidate : Candidate) : Bool :=
  match classifier.boundary with
  | none => true
  | some boundary => boundary.accepts (input.drop candidate.length)

/-- The longest literal at the start of the input that may be followed by the rest. -/
def select? (classifier : Classifier) (input : Bytes) : Option Candidate :=
  (classifier.matcher.candidates input).find? (classifier.admits input)

/-- The entry recognised at the start of the input, and its length there. -/
def recognize? (classifier : Classifier) (input : Bytes) : Option (Entry × Nat) :=
  (classifier.select? input).bind fun candidate =>
    classifier.entries[candidate.index]?.map fun entry => (entry, candidate.length)

/-- Without a boundary the longest literal is selected. -/
theorem select?_eq_longest? {classifier : Classifier} (free : classifier.boundary = none)
    (input : Bytes) : classifier.select? input = classifier.matcher.longest? input := by
  have all : classifier.admits input = fun _ => true := by
    funext candidate
    simp [admits, free]
  rw [select?, all, Matcher.longest?]
  cases classifier.matcher.candidates input <;> rfl

/-- If no literal is empty, nothing empty is recognised. -/
theorem length_pos_of_recognize? {category : Category} {entries : List Entry}
    {boundary : Option Boundary} {input : Bytes} {entry : Entry} {length : Nat}
    (nonempty : ∀ entry ∈ entries, entry.literal ≠ [])
    (recognized : (build category entries boundary).recognize? input = some (entry, length)) :
    0 < length := by
  simp only [recognize?, Option.bind_eq_some_iff, Option.map_eq_some_iff, Prod.mk.injEq]
    at recognized
  obtain ⟨candidate, selected, _, _, _, rfl⟩ := recognized
  refine Matcher.length_pos_of_mem_candidates ?_ (List.mem_of_find?_eq_some selected)
  intro literal member
  obtain ⟨declared, place, rfl⟩ := List.mem_map.mp member
  exact nonempty declared place

end Classifier

end Lexicon
