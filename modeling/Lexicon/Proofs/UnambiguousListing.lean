import Lexicon.Proofs.LosslessLexing
import Lexicon.Proofs.TableLiterals
import Lexicon.Report.Listing

/-!
# Listings can be read back

A listing without messages is a text of lines, one for each lexeme.  It tells
the lexemes: no two lists of lexemes have the same listing.

A line ends at its line feed, which no name of a table holds.  The last space
of a line stands before the span, because a span is written with digits and
points alone, and what stands before it is the token.  The first parenthesis
of a token ends the label of its category, and the rest tells which token of
the category it is.
-/

namespace Lexicon

/-! ## Taking texts apart -/

/-- A text is cut at the first separator in one way only. -/
theorem append_cons_inj_at_first {α : Type} [DecidableEq α] {separator : α}
    {left right leftRest rightRest : List α}
    (leftFree : separator ∉ left) (rightFree : separator ∉ right)
    (same : left ++ separator :: leftRest = right ++ separator :: rightRest) :
    left = right ∧ leftRest = rightRest := by
  have cut : ∀ {front : List α} (rest : List α), separator ∉ front →
      (front ++ separator :: rest).splitOnP (· == separator) =
        front :: rest.splitOnP (· == separator) := by
    intro front rest free
    have noCut : ∀ element ∈ front, (element == separator) = false := by
      intro element inside
      apply beq_false_of_ne
      rintro rfl
      exact free inside
    exact List.splitOnP_append_cons_of_forall_mem noCut separator
      (beq_self_eq_true separator) rest
  have pieces := cut leftRest leftFree
  rw [same, cut rightRest rightFree] at pieces
  have fronts : right = left := (List.cons.inj pieces).1
  subst fronts
  exact ⟨rfl, (List.cons.inj (List.append_cancel_left same)).2⟩

/-- A text is cut at the last separator in one way only. -/
theorem append_cons_inj_at_last {α : Type} [DecidableEq α] {separator : α}
    {left right leftRest rightRest : List α}
    (leftFree : separator ∉ leftRest) (rightFree : separator ∉ rightRest)
    (same : left ++ separator :: leftRest = right ++ separator :: rightRest) :
    left = right ∧ leftRest = rightRest := by
  have backwards := congrArg List.reverse same
  simp only [List.reverse_append, List.reverse_cons, List.append_assoc,
    List.singleton_append] at backwards
  rcases append_cons_inj_at_first (by simpa using leftFree)
    (by simpa using rightFree) backwards with ⟨rests, fronts⟩
  exact ⟨List.reverse_inj.mp fronts, List.reverse_inj.mp rests⟩

/-! ## Numbers and spans -/

theorem not_mem_toDigits {char : Char} (noDigit : char.isDigit = false)
    (number : Nat) : char ∉ Nat.toDigits 10 number := by
  intro member
  have isDigit := Nat.isDigit_of_mem_toDigits (by decide) (by decide) member
  rw [isDigit] at noDigit
  cases noDigit

theorem eq_of_toDigits_eq {left right : Nat}
    (same : Nat.toDigits 10 left = Nat.toDigits 10 right) : left = right := by
  have read := congrArg (fun digits => Nat.ofDigitChars 10 digits 0) same
  simpa using read

namespace Span

theorem toList_text (span : Span) :
    span.text.toList = Nat.toDigits 10 span.start ++
      '.' :: '.' :: Nat.toDigits 10 span.stop := by
  simp [text]

/-- A span is written with digits and points. -/
theorem not_mem_text {char : Char} (noDigit : char.isDigit = false)
    (noPoint : char ≠ '.') (span : Span) : char ∉ span.text.toList := by
  simp [toList_text, not_mem_toDigits noDigit, noPoint]

theorem text_injective : Function.Injective text := by
  intro left right same
  have texts := congrArg String.toList same
  rw [toList_text, toList_text] at texts
  have noPoint : ∀ number, '.' ∉ Nat.toDigits 10 number :=
    not_mem_toDigits (by decide)
  rcases append_cons_inj_at_first (noPoint _) (noPoint _) texts with
    ⟨starts, rests⟩
  have stops := (List.cons.inj rests).2
  exact Span.ext (eq_of_toDigits_eq starts) (eq_of_toDigits_eq stops)

end Span

/-! ## Tokens -/

theorem Hex.byte_injective : Function.Injective Hex.byte := by
  have digits : ∀ left right : Fin 16,
      Nat.digitChar left.val = Nat.digitChar right.val → left = right := by
    decide
  have digit_eq : ∀ {left right : Nat}, left < 16 → right < 16 →
      Nat.digitChar left = Nat.digitChar right → left = right := by
    intro left right leftSmall rightSmall same
    exact Fin.val_eq_of_eq (digits ⟨left, leftSmall⟩ ⟨right, rightSmall⟩ same)
  intro left right same
  have pairs : Hex.pair left = Hex.pair right := by
    simpa [Hex.byte] using congrArg String.toList same
  rcases List.cons.inj pairs with ⟨upperSame, rest⟩
  have leftBound : left.toNat < 256 := left.toNat_lt
  have rightBound : right.toNat < 256 := right.toNat_lt
  have upper := digit_eq (by omega) (by omega) upperSame
  have lower := digit_eq (by omega) (by omega) (List.cons.inj rest).1
  apply UInt8.toNat_inj.mp
  omega

theorem Hex.length_byte (byte : UInt8) : (Hex.byte byte).toList.length = 4 := by
  simp [Hex.byte, Hex.pair]

namespace Category

theorem ofLabel?_label (category : Category) :
    ofLabel? category.label = some category := by
  cases category <;> decide

theorem label_injective : Function.Injective label := by
  intro left right same
  have found := ofLabel?_label left
  rw [same, ofLabel?_label right] at found
  exact (Option.some.inj found).symm

/-- A label is made of letters. -/
theorem not_mem_label {char : Char} (noLetter : char.isAlpha = false)
    (category : Category) : char ∉ category.label.toList := by
  have every : category.label.toList.all Char.isAlpha = true := by
    cases category <;> decide
  intro member
  rw [List.all_eq_true.mp every char member] at noLetter
  cases noLetter

end Category

namespace Token

theorem toList_text (token : Token) :
    token.text.toList = token.category.label.toList ++
      '(' :: (token.detail.toList ++ [')']) := by
  simp [text]

theorem opcode_eq_of_detail_eq {name otherName : String} {code otherCode : UInt8}
    (same : (opcode name code).detail = (opcode otherName otherCode).detail) :
    opcode name code = opcode otherName otherCode := by
  have texts := congrArg String.toList same
  simp only [detail, String.toList_append, List.append_assoc] at texts
  -- What follows the name has the same length for every code.
  rcases List.append_inj' texts (by simp [Hex.length_byte]) with ⟨names, codes⟩
  have digits := List.append_cancel_left codes
  rw [String.toList_inj.mp names, Hex.byte_injective (String.toList_inj.mp digits)]

/-- The detail tells the tokens of a category apart. -/
theorem eq_of_detail_eq {left right : Token}
    (sameCategory : left.category = right.category)
    (sameDetail : left.detail = right.detail) : left = right := by
  cases left <;> cases right <;> cases sameCategory
  case uint.uint bits otherBits =>
    have texts := congrArg String.toList sameDetail
    have widths : bits.toNat = otherBits.toNat := by
      apply eq_of_toDigits_eq
      simpa [detail] using texts
    rw [UInt16.toNat_inj.mp widths]
  case opcode.opcode => exact opcode_eq_of_detail_eq sameDetail
  all_goals
    cases sameDetail
    rfl

/-- A token is known by its text. -/
theorem text_injective : Function.Injective text := by
  intro left right same
  have texts := congrArg String.toList same
  rw [toList_text, toList_text] at texts
  have noParenthesis : ∀ category : Category, '(' ∉ category.label.toList :=
    Category.not_mem_label (by decide)
  rcases append_cons_inj_at_first (noParenthesis _) (noParenthesis _) texts with
    ⟨labels, rests⟩
  have details := List.append_cancel_right rests
  exact eq_of_detail_eq (Category.label_injective (String.toList_inj.mp labels))
    (String.toList_inj.mp details)

end Token

/-! ## Lines -/

namespace Lexeme

/-- The line of a lexeme without its end. -/
def content (lexeme : Lexeme) : List Char :=
  lexeme.token.text.toList ++ [' ', '@'] ++ ' ' :: lexeme.span.text.toList

theorem toList_line (lexeme : Lexeme) :
    lexeme.line.toList = lexeme.content ++ ['\n'] := by
  simp [line, content]

/-- A lexeme is known by its line. -/
theorem content_injective : Function.Injective content := by
  intro left right same
  have noSpace : ∀ span : Span, ' ' ∉ span.text.toList :=
    Span.not_mem_text (by decide) (by decide)
  rcases append_cons_inj_at_last (noSpace _) (noSpace _) same with
    ⟨fronts, spans⟩
  have tokens := String.toList_inj.mp (List.append_cancel_right fronts)
  cases left
  cases right
  cases Token.text_injective tokens
  cases Span.text_injective (String.toList_inj.mp spans)
  rfl

/-- The lexeme takes one line, since its token does. -/
theorem lineFeed_not_mem_content {lexeme : Lexeme}
    (unbroken : '\n' ∉ lexeme.token.text.toList) : '\n' ∉ lexeme.content := by
  have inSpan : '\n' ∉ lexeme.span.text.toList :=
    Span.not_mem_text (by decide) (by decide) lexeme.span
  simp [content, unbroken, inSpan]

theorem toList_join_lines_cons (lexeme : Lexeme) (rest : List Lexeme) :
    (String.join ((lexeme :: rest).map line)).toList =
      lexeme.content ++ '\n' :: (String.join (rest.map line)).toList := by
  rw [List.map_cons, String.join_cons, String.toList_append, toList_line,
    List.append_assoc, List.singleton_append]

/-- Lexemes that take one line each are known by their lines. -/
theorem eq_of_join_lines_eq {left right : List Lexeme}
    (leftUnbroken : ∀ lexeme ∈ left, '\n' ∉ lexeme.token.text.toList)
    (rightUnbroken : ∀ lexeme ∈ right, '\n' ∉ lexeme.token.text.toList)
    (same : String.join (left.map line) = String.join (right.map line)) :
    left = right := by
  have texts := congrArg String.toList same
  clear same
  induction left generalizing right with
  | nil =>
      cases right with
      | nil => rfl
      | cons lexeme rest =>
          rw [toList_join_lines_cons] at texts
          simp at texts
  | cons lexeme rest induction =>
      cases right with
      | nil =>
          rw [toList_join_lines_cons] at texts
          simp at texts
      | cons other others =>
          rw [toList_join_lines_cons, toList_join_lines_cons] at texts
          rw [List.forall_mem_cons] at leftUnbroken rightUnbroken
          rcases append_cons_inj_at_first
              (lineFeed_not_mem_content leftUnbroken.1)
              (lineFeed_not_mem_content rightUnbroken.1) texts with
            ⟨contents, later⟩
          rw [content_injective contents,
            induction leftUnbroken.2 rightUnbroken.2 later]

end Lexeme

/-! ## Names of tables -/

/-- The name of an entry of a table is a field, which holds no blank character. -/
theorem Table.Declares.isBlank_of_mem_name {table : Table} {entry : Entry}
    (declares : table.Declares entry) {char : Char}
    (inside : char ∈ entry.name.toList) : WhiteSpace.isBlank char = false := by
  rcases declares.exists_row with ⟨row, found⟩
  have inRow : entry.name.toList ∈ WhiteSpace.fields row := by
    rcases Table.entryOfRow_eq_ok_iff.mp found with
      ⟨_, literal, row_eq, rfl⟩ | ⟨_, name, literal, row_eq, rfl⟩ |
        ⟨_, literal, numeral, value, row_eq, _, rfl⟩
    · simp [row_eq, Entry.ofText]
    · simp [row_eq, Entry.ofText]
    · simp [row_eq, Entry.ofText, Entry.withValue]
  exact (WhiteSpace.unbroken_of_mem_fields inRow).2 char inside

/-- A token takes one line if the name of its entry does. -/
theorem Token.lineFeed_not_mem_text_ofEntry {entry : Entry}
    (unbroken : '\n' ∉ entry.name.toList) :
    '\n' ∉ (Token.ofEntry entry).text.toList := by
  have inLabel : ∀ category : Category, '\n' ∉ category.label.toList :=
    Category.not_mem_label (by decide)
  have inDetail : '\n' ∉ (Token.ofEntry entry).detail.toList := by
    unfold Token.ofEntry
    split
    case h_6 => simp [Token.detail, not_mem_toDigits]
    case h_9 => simp [Token.detail, Hex.byte, Hex.pair, unbroken]
    all_goals exact unbroken
  simp [Token.toList_text, inLabel, inDetail]

section Tables

variable {tables : List Table} {tokenizer : Tokenizer}

theorem Tokenizer.not_mem_name
    (built : Tokenizer.ofTables tables = .ok tokenizer) {entry : Entry}
    (declared : entry ∈ tokenizer.catalog.entries) {char : Char}
    (blank : WhiteSpace.isBlank char = true) : char ∉ entry.name.toList := by
  intro inside
  rcases (Tokenizer.mem_entries_iff built).mp declared with
    ⟨table, _, declares⟩
  rw [declares.isBlank_of_mem_name inside] at blank
  cases blank

/-- The tokens of a source take one line each. -/
theorem Lossless.lineFeed_not_mem_text
    (built : Tokenizer.ofTables tables = .ok tokenizer) {source : Bytes}
    {lexed : Lexed} (lossless : Lossless tokenizer source lexed)
    {lexeme : Lexeme} (member : lexeme ∈ lexed.lexemes) :
    '\n' ∉ lexeme.token.text.toList := by
  rcases lossless.lexeme_classified lexeme member with
    ⟨recognition, classified, sameToken, _⟩
  rcases Tokenizer.exists_chosen_of_classifyAt classified with
    ⟨entry, chosen, fromEntry, _⟩
  rw [← sameToken, fromEntry]
  apply Token.lineFeed_not_mem_text_ofEntry
  exact Tokenizer.not_mem_name built chosen.mem_declared (by decide)

end Tables

/-! ## Listings -/

namespace Listing

/-- A listing that reports no failure consists of the lines of the lexemes. -/
theorem exists_lexed_of_not_failed {tokenizer : Tokenizer} {path : String}
    {source : Bytes} (clean : (ofSource tokenizer path source).failed = false) :
    ∃ lexed, lex tokenizer source = .ok lexed ∧
      (ofSource tokenizer path source).output =
        String.join (lexed.lexemes.map Lexeme.line) := by
  cases lexes : lex tokenizer source with
  | error fault =>
      rw [ofSource, lexes] at clean
      cases clean
  | ok lexed =>
      rw [ofSource, lexes] at clean ⊢
      have nothing : lexed.skipped = [] := by
        simpa [ofLexed, Lexed.hasErrors] using clean
      refine ⟨lexed, rfl, ?_⟩
      simp [ofLexed, nothing]

/--
A listing without messages tells the lexemes.  The text of a token tells the
token, whatever its name is, and names of tables hold neither space nor line
feed.  Hence, if two sources are listed without failure by a tokenizer that is
made of tables, their listings are equal exactly if their lexemes are: the
same tokens with the same spans, in the same order.
-/
theorem ofSource_unambiguous :
    Function.Injective Token.text ∧
    ∀ (tables : List Table) (tokenizer : Tokenizer),
      Tokenizer.ofTables tables = .ok tokenizer →
        (∀ entry ∈ tokenizer.catalog.entries,
          ' ' ∉ entry.name.toList ∧ '\n' ∉ entry.name.toList) ∧
        ∀ (path : String) (left right : Bytes),
          (ofSource tokenizer path left).failed = false →
          (ofSource tokenizer path right).failed = false →
            ∃ leftLexed rightLexed,
              lex tokenizer left = .ok leftLexed ∧
              lex tokenizer right = .ok rightLexed ∧
              ((ofSource tokenizer path left).output =
                  (ofSource tokenizer path right).output ↔
                leftLexed.lexemes = rightLexed.lexemes) := by
  refine ⟨Token.text_injective, ?_⟩
  intro tables tokenizer built
  constructor
  · intro entry declared
    exact ⟨Tokenizer.not_mem_name built declared (by decide),
      Tokenizer.not_mem_name built declared (by decide)⟩
  · intro path left right leftClean rightClean
    rcases exists_lexed_of_not_failed leftClean with
      ⟨leftLexed, leftLexes, leftOutput⟩
    rcases exists_lexed_of_not_failed rightClean with
      ⟨rightLexed, rightLexes, rightOutput⟩
    refine ⟨leftLexed, rightLexed, leftLexes, rightLexes, ?_⟩
    rw [leftOutput, rightOutput]
    constructor
    · apply Lexeme.eq_of_join_lines_eq
      · intro lexeme member
        exact (lossless_of_lex leftLexes).lineFeed_not_mem_text built member
      · intro lexeme member
        exact (lossless_of_lex rightLexes).lineFeed_not_mem_text built member
    · intro same
      rw [same]

/-- Two sources differ in their blanks, and a name looks like the end of a line. -/
theorem ofSource_unambiguous_blanks :
    ∃ tokenizer,
      Tokenizer.ofTables
          [⟨.keyword, "words", ")@0..2 is", .namedLiteral, .wholeWord⟩,
            ⟨.opcode, "codes", "add 1", .wordValue, .wholeWord⟩] =
        .ok tokenizer ∧
      (ofSource tokenizer "a" [0x69, 0x73, 0x20, 0x61, 0x64, 0x64]).output =
        "Keyword()@0..2) @ 0..2\nOpCode(add = 0x01) @ 3..6\n" ∧
      (ofSource tokenizer "a" [0x69, 0x73, 0x20, 0x61, 0x64, 0x64]).output =
        (ofSource tokenizer "a" [0x69, 0x73, 0x0A, 0x61, 0x64, 0x64, 0x20]).output ∧
      ∃ leftLexed rightLexed,
        lex tokenizer [0x69, 0x73, 0x20, 0x61, 0x64, 0x64] = .ok leftLexed ∧
        lex tokenizer [0x69, 0x73, 0x0A, 0x61, 0x64, 0x64, 0x20] = .ok rightLexed ∧
        leftLexed.lexemes = rightLexed.lexemes := by
  have lists : ∃ tokenizer,
      Tokenizer.ofTables
          [⟨.keyword, "words", ")@0..2 is", .namedLiteral, .wholeWord⟩,
            ⟨.opcode, "codes", "add 1", .wordValue, .wholeWord⟩] =
        .ok tokenizer ∧
      ofSource tokenizer "a" [0x69, 0x73, 0x20, 0x61, 0x64, 0x64] =
        ⟨"Keyword()@0..2) @ 0..2\nOpCode(add = 0x01) @ 3..6\n", false⟩ ∧
      ofSource tokenizer "a" [0x69, 0x73, 0x0A, 0x61, 0x64, 0x64, 0x20] =
        ⟨"Keyword()@0..2) @ 0..2\nOpCode(add = 0x01) @ 3..6\n", false⟩ :=
    ⟨_, rfl, by decide +kernel, by decide +kernel⟩
  rcases lists with ⟨tokenizer, built, left, right⟩
  have same := left.trans right.symm
  rcases ofSource_unambiguous.2 _ tokenizer built with ⟨_, unambiguous⟩
  rcases unambiguous "a" _ _ (by rw [left]) (by rw [right]) with
    ⟨leftLexed, rightLexed, leftLexes, rightLexes, outputs⟩
  refine ⟨tokenizer, built, by rw [left], by rw [same], leftLexed, rightLexed,
    leftLexes, rightLexes, ?_⟩
  exact outputs.mp (by rw [same])

end Listing

end Lexicon
