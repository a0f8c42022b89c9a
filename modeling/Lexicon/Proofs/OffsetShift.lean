import Lexicon.Proofs.SourceTiling

/-!
# Lexing at another offset

What is read from a cursor depends on the bytes from there on and not on
those before.  The offset of the cursor appears in the spans and errors of
the items and nowhere else, so moving a cursor moves its items.

A bound on offsets does no harm here: an end of a span that does not fit
stays at the bound, however far it is moved.
-/

namespace Lexicon

/-- Move both ends of a span, as far as offsets go. -/
def Span.shift (count : Nat) (span : Span) : Span :=
  Span.clamp (span.start + count) (span.stop + count)

def Unrecognized.shift (count : Nat) (error : Unrecognized) :
    Unrecognized :=
  ⟨error.offset + count, error.found⟩

def Lexeme.shift (count : Nat) (lexeme : Lexeme) : Lexeme :=
  ⟨lexeme.token, lexeme.span.shift count⟩

def SkippedRun.shift (count : Nat) (run : SkippedRun) : SkippedRun :=
  ⟨run.error.shift count, run.span.shift count⟩

def Item.shift (count : Nat) : Item → Item
  | .lexeme found => .lexeme (found.shift count)
  | .skipped run => .skipped (run.shift count)

/-- Move a cursor without its bytes. -/
def Cursor.shift (count : Nat) (cursor : Cursor) : Cursor :=
  ⟨cursor.offset + count, cursor.rest⟩

theorem Span.shift_clamp (start stop count : Nat) :
    (Span.clamp start stop).shift count =
      Span.clamp (start + count) (stop + count) := by
  have bounded : ∀ offset : Nat,
      min (min offset maxOffset + count) maxOffset =
        min (offset + count) maxOffset := by
    intro offset
    omega
  apply Span.ext
  · exact bounded start
  · exact bounded stop

theorem Span.shift_exact {span : Span} {count : Nat}
    (nonempty : span.start < span.stop)
    (fits : span.stop + count ≤ maxOffset) :
    (span.shift count).start = span.start + count ∧
      (span.shift count).stop = span.stop + count := by
  constructor
  · apply Span.clamp_start
    exact Nat.le_trans
      (Nat.add_le_add_right (Nat.le_of_lt nonempty) count) fits
  · exact Span.clamp_stop fits

theorem Tokenizer.classify_shift (tokenizer : Tokenizer)
    (offset count : Nat) (input : Bytes) :
    tokenizer.classify (offset + count) input =
      (tokenizer.classify offset input).mapError
        (Unrecognized.shift count) := by
  rw [Tokenizer.classify, Tokenizer.classify]
  cases tokenizer.recognize? input with
  | none => rfl
  | some recognition => rfl

namespace Cursor

theorem spanOf_shift (cursor : Cursor) (count length : Nat) :
    (cursor.shift count).spanOf length =
      (cursor.spanOf length).shift count := by
  rw [spanOf, spanOf, Span.shift_clamp, Nat.add_right_comm]
  rfl

theorem advance_shift (cursor : Cursor) (count length : Nat) :
    (cursor.shift count).advance length =
      (cursor.advance length).shift count := by
  rw [advance, advance, shift, shift, Nat.add_right_comm]

theorem skipBlanks_shift (cursor : Cursor) (count : Nat) :
    (cursor.shift count).skipBlanks = cursor.skipBlanks.shift count :=
  advance_shift cursor count _

theorem read_shift (tokenizer : Tokenizer) (cursor : Cursor)
    (count : Nat) :
    (cursor.shift count).read tokenizer =
      (cursor.read tokenizer).map (Item.shift count) (shift count) := by
  have moved := tokenizer.classify_shift cursor.offset count cursor.rest
  cases outcome : tokenizer.classify cursor.offset cursor.rest with
  | ok recognition =>
      rw [outcome] at moved
      rw [read_of_classify_eq_ok outcome, read_of_classify_eq_ok moved,
        spanOf_shift, advance_shift]
      rfl
  | error error =>
      rw [outcome] at moved
      rw [read_of_classify_eq_error outcome,
        read_of_classify_eq_error moved, spanOf_shift, advance_shift]
      rfl

theorem step?_shift (tokenizer : Tokenizer) (cursor : Cursor)
    (count : Nat) :
    (cursor.shift count).step? tokenizer =
      (cursor.step? tokenizer).map
        (Prod.map (Item.shift count) (shift count)) := by
  have apart :=
    apply_ite (Option.map (Prod.map (Item.shift count) (shift count)))
  simp only [step?, skipBlanks_shift, read_shift, apart]
  rfl

end Cursor

/-- Lexing from a place that was moved gives the same items, moved. -/
theorem scan_shift (tokenizer : Tokenizer) (cursor : Cursor)
    (count : Nat) :
    scan tokenizer (cursor.shift count) =
      (scan tokenizer cursor).map (Item.shift count) := by
  fun_induction scan tokenizer cursor with
  | case1 cursor stepped =>
      have moved := cursor.step?_shift tokenizer count
      rw [stepped] at moved
      exact scan_of_step?_eq_none moved
  | case2 cursor item next stepped induction =>
      have moved := cursor.step?_shift tokenizer count
      rw [stepped] at moved
      rw [scan_of_step?_eq_some moved, induction]
      rfl

/-! ## The result for a source -/

def Lexed.append (left right : Lexed) : Lexed :=
  ⟨left.lexemes ++ right.lexemes, left.skipped ++ right.skipped⟩

def Lexed.shift (count : Nat) (lexed : Lexed) : Lexed where
  lexemes := lexed.lexemes.map (Lexeme.shift count)
  skipped := lexed.skipped.map (SkippedRun.shift count)

theorem Lexed.ofItems_append (left right : List Item) :
    Lexed.ofItems (left ++ right) =
      (Lexed.ofItems left).append (Lexed.ofItems right) := by
  rw [ofItems, List.filterMap_append, List.filterMap_append]
  rfl

theorem Lexed.ofItems_shift (items : List Item) (count : Nat) :
    Lexed.ofItems (items.map (Item.shift count)) =
      (Lexed.ofItems items).shift count := by
  induction items with
  | nil => rfl
  | cons item items induction =>
      cases item with
      | lexeme found =>
          rw [List.map_cons, Item.shift, ofItems_lexeme_cons, induction,
            ofItems_lexeme_cons]
          rfl
      | skipped run =>
          rw [List.map_cons, Item.shift, ofItems_skipped_cons, induction,
            ofItems_skipped_cons]
          rfl

end Lexicon
