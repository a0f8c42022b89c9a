import Lexicon.Proofs.LosslessLexing
import Lexicon.Proofs.OffsetShift
import Lexicon.Proofs.TableLiterals

/-!
# Sources joined at a blank byte

Two sources joined by a blank byte are lexed as each of them is lexed alone.
Three facts about blank bytes make the right source invisible to the left
one: no literal of a table holds one, every boundary of a table allows one,
and a skipped run stops at one.  The items of the left source are therefore
read as if it ended there.  The items of the right source follow, moved by
the length of the left source and the blank byte.
-/

namespace Lexicon

/-! ## Lists cut at a separator -/

theorem prefix_append_separator_iff {word left right : Bytes}
    {separator : UInt8} (absent : separator ∉ word) :
    word <+: left ++ separator :: right ↔ word <+: left := by
  constructor
  · intro starts
    by_cases short : word.length ≤ left.length
    · exact List.prefix_of_prefix_length_le starts
        (List.prefix_append left _) short
    · have reaches : left ++ [separator] <+: left ++ separator :: right :=
        ⟨right, by simp⟩
      have inside : left ++ [separator] <+: word := by
        apply List.prefix_of_prefix_length_le reaches starts
        rw [List.length_append]
        exact Nat.lt_of_not_le short
      exact absurd (inside.subset (by simp)) absent
  · intro starts
    exact starts.trans (List.prefix_append left _)

theorem takeWhile_append_separator {holds : UInt8 → Bool}
    {separator : UInt8} (stops : holds separator = false)
    (left right : Bytes) :
    (left ++ separator :: right).takeWhile holds =
      left.takeWhile holds := by
  induction left with
  | nil =>
      rw [List.nil_append, List.takeWhile_cons, stops]
      rfl
  | cons byte left induction =>
      rw [List.cons_append, List.takeWhile_cons, List.takeWhile_cons,
        induction]

theorem unrecognizedLength_append_blank {left : Bytes}
    (remains : left ≠ []) {blank : UInt8}
    (isBlank : Byte.isBlank blank = true) (right : Bytes) :
    unrecognizedLength (left ++ blank :: right) =
      unrecognizedLength left := by
  cases left with
  | nil => exact absurd rfl remains
  | cons byte left =>
      have stops := continuesRun_of_isBlank byte isBlank
      rw [List.cons_append, unrecognizedLength_cons,
        unrecognizedLength_cons, takeWhile_append_separator stops]

/-! ## Recognition up to a blank byte -/

theorem Rule.admits_append_iff {rule : Rule} {separator : UInt8}
    (allowed : ∀ boundary, rule.boundary = some boundary →
      boundary.allowed.contains separator = true)
    (rest right : Bytes) :
    rule.Admits (rest ++ separator :: right) ↔ rule.Admits rest := by
  cases rest with
  | nil =>
      constructor
      · intro _
        exact Or.inr (Or.inl rfl)
      · intro _
        cases found : rule.boundary with
        | none => exact Or.inl found
        | some boundary =>
            exact Or.inr (Or.inr
              ⟨boundary, separator, found, rfl, allowed boundary found⟩)
  | cons byte rest => exact admits_append_of_ne_nil (by simp) _

namespace Tokenizer

section Blank

variable {tokenizer : Tokenizer} {blank : UInt8}

theorem BlankFree.admissible_append_iff (free : tokenizer.BlankFree)
    (isBlank : Byte.isBlank blank = true) (left right : Bytes)
    {rule : Rule} (listed : rule ∈ tokenizer.rules) (entry : Entry) :
    Admissible tokenizer.catalog.entries rule (left ++ blank :: right)
        entry ↔
      Admissible tokenizer.catalog.entries rule left entry := by
  have allowed : ∀ boundary, rule.boundary = some boundary →
      boundary.allowed.contains blank = true := by
    intro boundary found
    exact free.boundaries rule listed boundary found blank isBlank
  have absent : entry ∈ tokenizer.catalog.entries →
      blank ∉ entry.literal := by
    intro declared inside
    have notBlank := free.literals entry declared blank inside
    rw [isBlank] at notBlank
    cases notBlank
  apply Lexicon.admissible_append_iff
  · intro declared _ starts
    exact (prefix_append_separator_iff (absent declared)).mp starts
  · intro _ _
    exact Rule.admits_append_iff allowed _ right

theorem BlankFree.classify_append_of_eq_ok (free : tokenizer.BlankFree)
    (isBlank : Byte.isBlank blank = true) {offset : Nat} {left : Bytes}
    {recognition : Recognition}
    (classified : tokenizer.classify offset left = .ok recognition)
    (right : Bytes) :
    tokenizer.classify offset (left ++ blank :: right) =
      .ok ⟨recognition.token, recognition.length,
        recognition.rest ++ blank :: right⟩ := by
  apply Tokenizer.classify_append_of_eq_ok _ classified
  intro rule listed entry
  exact free.admissible_append_iff isBlank left right listed entry

theorem BlankFree.classify_append_of_eq_error (free : tokenizer.BlankFree)
    (isBlank : Byte.isBlank blank = true) {offset : Nat} {left : Bytes}
    (remains : left ≠ []) {error : Unrecognized}
    (classified : tokenizer.classify offset left = .error error)
    (right : Bytes) :
    tokenizer.classify offset (left ++ blank :: right) = .error error := by
  apply Tokenizer.classify_append_of_eq_error _ remains classified
  intro rule listed entry
  exact free.admissible_append_iff isBlank left right listed entry

end Blank

end Tokenizer

/-! ## Two runs in step -/

namespace Cursor

/-- The same place in a source that goes on. -/
def followedBy (cursor : Cursor) (suffix : Bytes) : Cursor :=
  ⟨cursor.offset, cursor.rest ++ suffix⟩

theorem advance_followedBy {cursor : Cursor} {count : Nat}
    (bound : count ≤ cursor.rest.length) (suffix : Bytes) :
    (cursor.followedBy suffix).advance count =
      (cursor.advance count).followedBy suffix := by
  rw [advance, followedBy, List.drop_append_of_le_length bound]
  rfl

theorem skipBlanks_followedBy {cursor : Cursor}
    (remains : cursor.skipBlanks.rest ≠ []) (suffix : Bytes) :
    (cursor.followedBy suffix).skipBlanks =
      cursor.skipBlanks.followedBy suffix := by
  have stops : (cursor.rest.takeWhile Byte.isBlank).length ≠
      cursor.rest.length := by
    intro reaches
    apply remains
    rw [skipBlanks, reaches]
    exact List.drop_length
  have sameRun : (cursor.rest ++ suffix).takeWhile Byte.isBlank =
      cursor.rest.takeWhile Byte.isBlank := by
    rw [List.takeWhile_append, if_neg stops]
  rw [skipBlanks, followedBy, sameRun]
  exact advance_followedBy (List.takeWhile_prefix _).length_le suffix

/-- Blank bytes up to the end of the left source lead into the right one. -/
theorem skipBlanks_followedBy_of_blank {cursor : Cursor}
    (blanks : ∀ byte ∈ cursor.rest, Byte.isBlank byte = true)
    {blank : UInt8} (isBlank : Byte.isBlank blank = true)
    (right : Bytes) :
    (cursor.followedBy (blank :: right)).skipBlanks =
      ((start right).shift
        (cursor.offset + cursor.rest.length + 1)).skipBlanks := by
  have run : (cursor.rest ++ blank :: right).takeWhile Byte.isBlank =
      cursor.rest ++ blank :: right.takeWhile Byte.isBlank := by
    rw [List.takeWhile_append_of_pos blanks,
      List.takeWhile_cons_of_pos isBlank]
  rw [skipBlanks, followedBy, run, skipBlanks_shift, skipBlanks, advance,
    advance, shift, Cursor.mk.injEq]
  constructor
  · show cursor.offset +
        (cursor.rest ++ blank :: right.takeWhile Byte.isBlank).length =
      0 + (right.takeWhile Byte.isBlank).length +
        (cursor.offset + cursor.rest.length + 1)
    rw [List.length_append, List.length_cons]
    omega
  · simp [start, List.drop_append]

section Blank

variable {tokenizer : Tokenizer} {cursor next : Cursor} {item : Item}
  {blank : UInt8}

theorem read_followedBy (free : tokenizer.BlankFree)
    (isBlank : Byte.isBlank blank = true) (remains : cursor.rest ≠ [])
    (reads : cursor.read tokenizer = (item, next)) (right : Bytes) :
    (cursor.followedBy (blank :: right)).read tokenizer =
      (item, next.followedBy (blank :: right)) := by
  cases outcome : tokenizer.classify cursor.offset cursor.rest with
  | ok recognition =>
      have bound := Tokenizer.length_le_of_classify outcome
      have same := free.classify_append_of_eq_ok isBlank outcome right
      rw [read_of_classify_eq_ok outcome] at reads
      cases reads
      rw [read_of_classify_eq_ok same, advance_followedBy bound]
      rfl
  | error error =>
      have bound := unrecognizedLength_le cursor.rest
      have same :=
        free.classify_append_of_eq_error isBlank remains outcome right
      rw [read_of_classify_eq_error outcome] at reads
      cases reads
      have sameLength :=
        unrecognizedLength_append_blank remains isBlank right
      rw [read_of_classify_eq_error same,
        show unrecognizedLength (cursor.followedBy (blank :: right)).rest =
          unrecognizedLength cursor.rest from sameLength,
        advance_followedBy bound]
      rfl

theorem step?_followedBy (free : tokenizer.BlankFree)
    (isBlank : Byte.isBlank blank = true)
    (stepped : cursor.step? tokenizer = some (item, next))
    (right : Bytes) :
    (cursor.followedBy (blank :: right)).step? tokenizer =
      some (item, next.followedBy (blank :: right)) := by
  rcases eq_of_step? stepped with ⟨remains, reads⟩
  have nonempty : ¬ (cursor.skipBlanks.followedBy
      (blank :: right)).rest.isEmpty = true := by
    simp [followedBy]
  rw [step?, skipBlanks_followedBy remains, if_neg nonempty,
    read_followedBy free isBlank remains reads]

end Blank

end Cursor

theorem scan_of_skipBlanks_eq {tokenizer : Tokenizer} {left right : Cursor}
    (same : left.skipBlanks = right.skipBlanks) :
    scan tokenizer left = scan tokenizer right := by
  have sameStep : left.step? tokenizer = right.step? tokenizer := by
    rw [Cursor.step?, Cursor.step?, same]
  cases stepped : right.step? tokenizer with
  | none =>
      rw [stepped] at sameStep
      rw [scan_of_step?_eq_none stepped, scan_of_step?_eq_none sameStep]
  | some found =>
      rw [stepped] at sameStep
      rw [scan_of_step?_eq_some stepped, scan_of_step?_eq_some sameStep]

/-- The items of a joined source are those of its left part and of its right part. -/
theorem scan_followedBy {tokenizer : Tokenizer}
    (free : tokenizer.BlankFree) {left : Bytes}
    (fits : left.length ≤ maxOffset) {cursor : Cursor}
    (within : cursor.Within left) {blank : UInt8}
    (isBlank : Byte.isBlank blank = true) (right : Bytes) :
    scan tokenizer (cursor.followedBy (blank :: right)) =
      scan tokenizer cursor ++
        (scan tokenizer (Cursor.start right)).map
          (Item.shift (left.length + 1)) := by
  fun_induction scan tokenizer cursor with
  | case1 cursor stepped =>
      have same := Cursor.skipBlanks_followedBy_of_blank
        (Cursor.step?_eq_none_iff.mp stepped) isBlank right
      rw [scan_of_skipBlanks_eq same, scan_shift, within.length_rest,
        List.nil_append]
  | case2 cursor item next stepped induction =>
      have further := Cursor.step?_followedBy free isBlank stepped right
      rcases within.step? fits stepped with ⟨_, _, _, after⟩
      rw [scan_of_step?_eq_some further, induction after,
        List.cons_append]

/-! ## Whole sources -/

/--
A blank byte splits lexing.  The result for two sources with a blank byte
between them is the result for the left source, followed by the result for
the right one, moved by the length of the left source and the blank byte.
No end of a span is lost to the bound on offsets by the move.
-/
theorem lex_append_blank {tables : List Table} {tokenizer : Tokenizer}
    (built : Tokenizer.ofTables tables = .ok tokenizer)
    (left right : Bytes) {blank : UInt8}
    (isBlank : Byte.isBlank blank = true)
    (fits : left.length + 1 + right.length ≤ maxOffset) :
    ∃ leftLexed rightLexed,
      lex tokenizer left = .ok leftLexed ∧
        lex tokenizer right = .ok rightLexed ∧
        lex tokenizer (left ++ blank :: right) =
          .ok (leftLexed.append (rightLexed.shift (left.length + 1))) ∧
        ∀ span ∈ rightLexed.spans,
          (span.shift (left.length + 1)).start =
              span.start + (left.length + 1) ∧
            (span.shift (left.length + 1)).stop =
              span.stop + (left.length + 1) := by
  have free := Tokenizer.blankFree_of_ofTables built
  have leftFits : left.length ≤ maxOffset := by omega
  have rightFits : right.length ≤ maxOffset := by omega
  have joinedFits : (left ++ blank :: right).length ≤ maxOffset := by
    rw [List.length_append, List.length_cons]
    omega
  have lossless : Lossless tokenizer right
      (Lexed.ofItems (scan tokenizer (Cursor.start right))) :=
    Tiling.lossless ((Cursor.within_start right).scan rightFits)
  refine ⟨_, _, lex_of_le tokenizer leftFits,
    lex_of_le tokenizer rightFits, ?_, ?_⟩
  · rw [lex_of_le tokenizer joinedFits, ← Lexed.ofItems_shift,
      ← Lexed.ofItems_append]
    have split := scan_followedBy free leftFits
      (Cursor.within_start left) isBlank right
    rw [← split]
    rfl
  · intro span member
    have inside := lossless.inside span member
    apply Span.shift_exact (lossless.nonempty span member)
    omega

/--
A word is all of the left source, and an unknown word starts the right one.
In the joined source the bytes of the right one are three places further on.
-/
theorem lex_append_blank_words :
    ∃ tokenizer,
      Tokenizer.ofTables
          [⟨.keyword, "words", "is", .word, .wholeWord⟩] =
        .ok tokenizer ∧
        lex tokenizer [0x69, 0x73] =
          .ok ⟨[⟨.keyword "is", .clamp 0 2⟩], []⟩ ∧
        lex tokenizer [0x78, 0x0A, 0x69, 0x73] =
          .ok ⟨[⟨.keyword "is", .clamp 2 4⟩],
            [⟨⟨0, some 0x78⟩, .clamp 0 1⟩]⟩ ∧
        lex tokenizer [0x69, 0x73, 0x20, 0x78, 0x0A, 0x69, 0x73] =
          .ok ⟨[⟨.keyword "is", .clamp 0 2⟩, ⟨.keyword "is", .clamp 5 7⟩],
            [⟨⟨3, some 0x78⟩, .clamp 3 4⟩]⟩ := by
  have runs : ∃ tokenizer,
      Tokenizer.ofTables
          [⟨.keyword, "words", "is", .word, .wholeWord⟩] =
        .ok tokenizer ∧
        lex tokenizer [0x69, 0x73] =
          .ok ⟨[⟨.keyword "is", .clamp 0 2⟩], []⟩ ∧
        lex tokenizer [0x78, 0x0A, 0x69, 0x73] =
          .ok ⟨[⟨.keyword "is", .clamp 2 4⟩],
            [⟨⟨0, some 0x78⟩, .clamp 0 1⟩]⟩ :=
    ⟨_, rfl, by decide +kernel, by decide +kernel⟩
  rcases runs with ⟨tokenizer, built, leftLexes, rightLexes⟩
  have isBlank : Byte.isBlank 0x20 = true := rfl
  rcases lex_append_blank built [0x69, 0x73] [0x78, 0x0A, 0x69, 0x73]
      isBlank (by decide) with
    ⟨leftLexed, rightLexed, leftFound, rightFound, joined, _⟩
  cases leftLexes.symm.trans leftFound
  cases rightLexes.symm.trans rightFound
  exact ⟨tokenizer, built, leftLexes, rightLexes, joined⟩

end Lexicon
