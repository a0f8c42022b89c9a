import Lexicon.Span
import Lexicon.Tokenizer

/-!
# Lexing a source

The lexer goes through a source from its start.  Blank bytes between tokens
are skipped.  Where no token is recognised, a run of bytes is skipped and
recorded: a whole run of word bytes, or else a single character.  Lexing goes
on after the run, so every source is read to its end.
-/

namespace Lexicon

/-- A token and its place in the source. -/
structure Lexeme where
  token : Token
  span : Span
deriving DecidableEq

/-- A run of bytes at which no token is recognised. -/
structure SkippedRun where
  error : Unrecognized
  span : Span
deriving DecidableEq

/-- A step of the lexer that takes bytes which are not blank. -/
inductive Item
  | lexeme (lexeme : Lexeme)
  | skipped (run : SkippedRun)
deriving DecidableEq

/-- A place in a source: the offset reached and the bytes from there on. -/
structure Cursor where
  offset : Nat
  rest : Bytes
deriving DecidableEq

/-- The length of the run to skip where no token is recognised. -/
def unrecognizedLength : Bytes → Nat
  | [] => 0
  | byte :: rest =>
      if Byte.isWord byte then 1 + (rest.takeWhile Byte.isWord).length
      else 1 + (rest.takeWhile Byte.isContinuation).length

theorem unrecognizedLength_pos {input : Bytes} (remains : input ≠ []) :
    0 < unrecognizedLength input := by
  cases input with
  | nil => exact absurd rfl remains
  | cons byte rest =>
      simp only [unrecognizedLength]
      split <;> omega

namespace Cursor

/-- The start of a source. -/
def start (source : Bytes) : Cursor :=
  ⟨0, source⟩

/-- Move on by a number of bytes. -/
def advance (cursor : Cursor) (count : Nat) : Cursor :=
  ⟨cursor.offset + count, cursor.rest.drop count⟩

/-- Move on to the next byte that is not blank. -/
def skipBlanks (cursor : Cursor) : Cursor :=
  cursor.advance (cursor.rest.takeWhile Byte.isBlank).length

/-- The span of a number of bytes from here. -/
def spanOf (cursor : Cursor) (count : Nat) : Span :=
  Span.clamp cursor.offset (cursor.offset + count)

/-- The item that starts here, and the place after it. -/
def read (tokenizer : Tokenizer) (cursor : Cursor) : Item × Cursor :=
  match tokenizer.classify cursor.offset cursor.rest with
  | .ok recognition =>
      (.lexeme ⟨recognition.token, cursor.spanOf recognition.length⟩,
        cursor.advance recognition.length)
  | .error error =>
      let length := unrecognizedLength cursor.rest
      (.skipped ⟨error, cursor.spanOf length⟩, cursor.advance length)

/-- The next item and the place after it.  There is none if only blank bytes remain. -/
def step? (tokenizer : Tokenizer) (cursor : Cursor) : Option (Item × Cursor) :=
  let next := cursor.skipBlanks
  if next.rest.isEmpty then none else some (next.read tokenizer)

theorem length_rest_advance (cursor : Cursor) (count : Nat) :
    (cursor.advance count).rest.length = cursor.rest.length - count := by
  simp [advance]

theorem length_rest_skipBlanks_le (cursor : Cursor) :
    cursor.skipBlanks.rest.length ≤ cursor.rest.length := by
  simp only [skipBlanks, length_rest_advance]
  omega

/-- Every item takes at least one byte. -/
theorem length_rest_read_lt (tokenizer : Tokenizer) {cursor : Cursor}
    (remains : cursor.rest ≠ []) :
    (cursor.read tokenizer).2.rest.length < cursor.rest.length := by
  have length := List.length_pos_iff.mpr remains
  unfold read
  split
  case h_1 classified =>
    have positive := Tokenizer.length_pos_of_recognize?
      (Tokenizer.recognize?_of_classify classified)
    simp only [length_rest_advance]
    omega
  case h_2 =>
    have positive := unrecognizedLength_pos remains
    simp only [length_rest_advance]
    omega

/-- A step leaves less of the source. -/
theorem length_rest_lt_of_step? {tokenizer : Tokenizer} {cursor next : Cursor} {item : Item}
    (stepped : cursor.step? tokenizer = some (item, next)) :
    next.rest.length < cursor.rest.length := by
  simp only [step?, Option.ite_none_left_eq_some, List.isEmpty_iff, Option.some.injEq] at stepped
  have shorter := length_rest_read_lt tokenizer stepped.1
  rw [stepped.2] at shorter
  exact Nat.lt_of_lt_of_le shorter (length_rest_skipBlanks_le cursor)

end Cursor

/-- All items from a place on, in the order of the source. -/
def scan (tokenizer : Tokenizer) (cursor : Cursor) : List Item :=
  match _stepped : cursor.step? tokenizer with
  | none => []
  | some (item, next) => item :: scan tokenizer next
termination_by cursor.rest.length
decreasing_by exact Cursor.length_rest_lt_of_step? _stepped

/-- Nothing is left to read. -/
theorem scan_of_step?_eq_none {tokenizer : Tokenizer} {cursor : Cursor}
    (stepped : cursor.step? tokenizer = none) : scan tokenizer cursor = [] := by
  rw [scan]
  split <;> simp_all

/-- The first item is read, and then the others. -/
theorem scan_of_step?_eq_some {tokenizer : Tokenizer} {cursor next : Cursor} {item : Item}
    (stepped : cursor.step? tokenizer = some (item, next)) :
    scan tokenizer cursor = item :: scan tokenizer next := by
  rw [scan]
  split <;> simp_all

/-- The lexemes of a source and the runs that were skipped, both in its order. -/
structure Lexed where
  lexemes : List Lexeme
  skipped : List SkippedRun
deriving DecidableEq

namespace Lexed

/-- Tell lexemes and skipped runs apart. -/
def ofItems (items : List Item) : Lexed where
  lexemes := items.filterMap fun item =>
    match item with
    | .lexeme lexeme => some lexeme
    | .skipped _ => none
  skipped := items.filterMap fun item =>
    match item with
    | .lexeme _ => none
    | .skipped run => some run

/-- Some run was skipped. -/
def hasErrors (lexed : Lexed) : Bool :=
  !lexed.skipped.isEmpty

end Lexed

/-- Offsets of a source of this length fit in spans. -/
def checkLength (length : Nat) : Except SpanError Span :=
  Span.ofRange 0 length

/-- Lex a whole source.  This fails only if the source is too long for spans. -/
def lex (tokenizer : Tokenizer) (source : Bytes) : Except SpanError Lexed :=
  match checkLength source.length with
  | .error error => .error error
  | .ok _ => .ok (Lexed.ofItems (scan tokenizer (Cursor.start source)))

end Lexicon
