import Lexicon.Position
import Lexicon.Text.WhiteSpace
import Mathlib.Data.List.Infix

/-!
# Lines, columns and offsets

The position of an offset is found by going through the bytes before it.  It
can be found in another way as well: the line feeds among these bytes are
counted, and the last of them is searched for from the end.  Both ways agree,
at line feeds that follow each other, at the end of the source and beyond it.

A position says which offset it belongs to.  Positions are therefore the
places of the lines of a source, each of which has one place more than it has
bytes, and their order from line to line is the order of the offsets.
-/

namespace Lexicon.Position

/-! ## Going on by one byte -/

section Steps

variable {source : Bytes} {offset : Nat}

theorem ofOffset_eq_foldl (source : Bytes) (offset : Nat) :
    ofOffset source offset = (source.take offset).foldl advance start :=
  skip_eq_foldl start source offset

theorem ofOffset_succ {byte : UInt8} (found : source[offset]? = some byte) :
    ofOffset source (offset + 1) = (ofOffset source offset).advance byte := by
  rw [ofOffset_eq_foldl, ofOffset_eq_foldl, List.take_add_one, found,
    Option.toList_some, List.foldl_append]
  rfl

theorem ofOffset_of_length_le (beyond : source.length ≤ offset) :
    ofOffset source offset = ofOffset source source.length := by
  rw [ofOffset_eq_foldl, ofOffset_eq_foldl, List.take_of_length_le beyond,
    List.take_length]

/-- The position lies on an earlier line, or before the other one on its line. -/
def Before (left right : Position) : Prop :=
  left.line < right.line ∨
    left.line = right.line ∧ left.column < right.column

theorem Before.trans {left middle right : Position}
    (first : left.Before middle) (second : middle.Before right) :
    left.Before right := by
  unfold Before at *
  omega

theorem before_advance (position : Position) (byte : UInt8) :
    position.Before (position.advance byte) := by
  rw [advance]
  split
  case isTrue => exact Or.inl (Nat.lt_succ_self _)
  case isFalse => exact Or.inr ⟨rfl, Nat.lt_succ_self _⟩

/-- Positions are ordered as their offsets are. -/
theorem before_ofOffset {left right : Nat} (ordered : left < right)
    (inside : right ≤ source.length) :
    (ofOffset source left).Before (ofOffset source right) := by
  induction right, ordered using Nat.le_induction with
  | base =>
      rw [ofOffset_succ (List.getElem?_eq_getElem inside)]
      exact before_advance _ _
  | succ right _ induction =>
      have earlier := induction (Nat.le_of_succ_le inside)
      rw [ofOffset_succ (List.getElem?_eq_getElem inside)]
      exact earlier.trans (before_advance _ _)

end Steps

/-! ## What a position says -/

/-- A line starts at the offset: at the start of the source or after a line feed. -/
def StartsLine (source : Bytes) (offset : Nat) : Prop :=
  offset = 0 ∨ ∃ previous, offset = previous + 1 ∧
    source[previous]? = some Byte.lineFeed

/-- The line feeds around an offset are as its position says. -/
structure Marks (source : Bytes) (offset : Nat) (position : Position) :
    Prop where
  /-- The line feeds before the offset end all lines but the last. -/
  line_eq : position.line = (source.take offset).count Byte.lineFeed + 1
  column_pos : 0 < position.column
  column_le : position.column ≤ offset + 1
  /-- No line feed is among the bytes which the column counts. -/
  unbroken : ∀ place, offset < place + position.column → place < offset →
    source[place]? ≠ some Byte.lineFeed
  opens : StartsLine source (offset - (position.column - 1))

namespace Marks

variable {source : Bytes} {offset : Nat} {position : Position}

theorem start (source : Bytes) : Marks source 0 Position.start where
  line_eq := rfl
  column_pos := Nat.one_pos
  column_le := Nat.le_refl 1
  unbroken := by
    intro place _ before
    exact absurd before (Nat.not_lt_zero place)
  opens := Or.inl rfl

theorem advance (marks : Marks source offset position) {byte : UInt8}
    (found : source[offset]? = some byte) :
    Marks source (offset + 1) (position.advance byte) := by
  have counted : (source.take (offset + 1)).count Byte.lineFeed =
      (source.take offset).count Byte.lineFeed +
        if byte == Byte.lineFeed then 1 else 0 := by
    rw [List.take_add_one, found, Option.toList_some, List.count_append,
      List.count_singleton]
  have line_eq := marks.line_eq
  have column_pos := marks.column_pos
  have column_le := marks.column_le
  rw [Position.advance]
  split
  case isTrue isLineFeed =>
    rw [if_pos isLineFeed] at counted
    refine ⟨by rw [counted, line_eq], Nat.one_pos, Nat.le_add_left _ _, ?_, ?_⟩
    · intro place after before
      exact absurd before (Nat.not_lt.mpr (Nat.le_of_lt_succ after))
    · refine Or.inr ⟨offset, rfl, ?_⟩
      rw [found, beq_iff_eq.mp isLineFeed]
  case isFalse otherByte =>
    rw [if_neg otherByte] at counted
    refine ⟨by rw [counted, line_eq], Nat.succ_pos _,
      Nat.succ_le_succ column_le, ?_, ?_⟩
    · intro place after before
      dsimp only at after
      rcases Nat.lt_succ_iff_lt_or_eq.mp before with earlier | rfl
      · exact marks.unbroken place (by omega) earlier
      · rw [found]
        intro same
        exact otherByte (beq_iff_eq.mpr (Option.some.inj same))
    · have same : offset + 1 - (position.column + 1 - 1) =
          offset - (position.column - 1) := by omega
      rw [same]
      exact marks.opens

theorem column_unique {other : Position} (marks : Marks source offset position)
    (otherMarks : Marks source offset other) :
    ¬ position.column < other.column := by
  -- The longer column would reach over the line feed before the shorter one.
  intro shorter
  have column_pos := marks.column_pos
  have otherColumn_le := otherMarks.column_le
  rcases marks.opens with isStart | ⟨previous, start_eq, found⟩
  · omega
  · exact otherMarks.unbroken previous (by omega) (by omega) found

/-- An offset has one position only. -/
theorem position_unique {other : Position}
    (marks : Marks source offset position)
    (otherMarks : Marks source offset other) : position = other := by
  have sameLine : position.line = other.line :=
    marks.line_eq.trans otherMarks.line_eq.symm
  have sameColumn : position.column = other.column :=
    Nat.le_antisymm (Nat.not_lt.mp (otherMarks.column_unique marks))
      (Nat.not_lt.mp (marks.column_unique otherMarks))
  cases position
  cases other
  simp_all

end Marks

theorem marks_ofOffset {source : Bytes} {offset : Nat}
    (inside : offset ≤ source.length) :
    Marks source offset (ofOffset source offset) := by
  induction offset with
  | zero =>
      rw [ofOffset_eq_foldl, List.take_zero]
      exact Marks.start source
  | succ offset induction =>
      have found := List.getElem?_eq_getElem inside
      rw [ofOffset_succ found]
      exact (induction (Nat.le_of_succ_le inside)).advance found

/-! ## Lines -/

/-- The lines of a source, which line feeds separate. -/
def linesOf (source : Bytes) : List Bytes :=
  source.splitOnP (· == Byte.lineFeed)

/-- Lines with a line feed after each of them. -/
def terminated (lines : List Bytes) : Bytes :=
  lines.flatMap (· ++ [Byte.lineFeed])

theorem terminated_cons (line : Bytes) (lines : List Bytes) :
    terminated (line :: lines) =
      line ++ Byte.lineFeed :: terminated lines := by
  simp [terminated]

theorem terminated_append (front back : List Bytes) :
    terminated (front ++ back) = terminated front ++ terminated back :=
  List.flatMap_append

/-- The lines make up the source, except that the last of them is not ended. -/
theorem terminated_linesOf (source : Bytes) :
    terminated (linesOf source) = source ++ [Byte.lineFeed] := by
  induction source with
  | nil => rfl
  | cons byte rest induction =>
      rw [linesOf, List.splitOnP_cons_eq_if_modifyHead, ← linesOf]
      split
      case isTrue isLineFeed =>
        rw [terminated_cons, induction, ← beq_iff_eq.mp isLineFeed]
        rfl
      case isFalse =>
        cases lines : linesOf rest with
        | nil => exact absurd lines (List.splitOnP_ne_nil _ rest)
        | cons first others =>
            rw [lines, terminated_cons] at induction
            rw [List.modifyHead_cons, terminated_cons, List.cons_append,
              induction]
            rfl

theorem lineFeed_not_mem_of_mem_linesOf {source line : Bytes}
    (member : line ∈ linesOf source) : Byte.lineFeed ∉ line := by
  intro inside
  have separates := WhiteSpace.eq_false_of_mem_splitOnP member inside
  simp at separates

theorem count_terminated {lines : List Bytes}
    (unbroken : ∀ line ∈ lines, Byte.lineFeed ∉ line) :
    (terminated lines).count Byte.lineFeed = lines.length := by
  induction lines with
  | nil => rfl
  | cons line rest induction =>
      rcases List.forall_mem_cons.mp unbroken with ⟨here, later⟩
      rw [terminated_cons, List.count_append, List.count_cons_self,
        induction later, List.count_eq_zero.mpr here, Nat.zero_add,
        List.length_cons]

/-- Where a line starts, the lines are those before it and those of the rest. -/
theorem StartsLine.exists_linesOf_eq {source : Bytes} {offset : Nat}
    (starts : StartsLine source offset) :
    ∃ before, linesOf source = before ++ linesOf (source.drop offset) ∧
      terminated before = source.take offset := by
  rcases starts with rfl | ⟨previous, rfl, found⟩
  · exact ⟨[], rfl, rfl⟩
  · have split : source = source.take previous ++
        Byte.lineFeed :: source.drop (previous + 1) := by
      rcases List.getElem?_eq_some_iff.mp found with ⟨inside, same⟩
      rw [← same, ← List.drop_eq_getElem_cons inside, List.take_append_drop]
    refine ⟨linesOf (source.take previous), ?_, ?_⟩
    · conv_lhs => rw [split]
      exact List.splitOnP_append_cons _ _ (beq_self_eq_true _)
    · rw [terminated_linesOf, List.take_add_one, found]
      rfl

/-! ## Offsets of positions -/

/-- Where a line starts, counted from one: after the lines before it. -/
def lineStart (source : Bytes) (line : Nat) : Nat :=
  (terminated ((linesOf source).take (line - 1))).length

/-- The offset of a position. -/
def toOffset (source : Bytes) (position : Position) : Nat :=
  lineStart source position.line + (position.column - 1)

/-- The position is a place on a line of the source, or the end of one. -/
def IsIn (source : Bytes) (position : Position) : Prop :=
  0 < position.line ∧ 0 < position.column ∧
    ∃ line, (linesOf source)[position.line - 1]? = some line ∧
      position.column ≤ line.length + 1

theorem startsLine_terminated {source : Bytes} {lines : List Bytes}
    (starts : terminated lines <+: source) :
    StartsLine source (terminated lines).length := by
  rcases List.eq_nil_or_concat lines with rfl | ⟨others, last, rfl⟩
  · exact Or.inl rfl
  · refine Or.inr ⟨(terminated others ++ last).length, ?_, ?_⟩
    · simp [terminated]
      omega
    · rcases starts with ⟨rest, rfl⟩
      simp [terminated]

namespace Marks

variable {source : Bytes} {offset : Nat} {position : Position}

theorem lineFeed_not_mem (marks : Marks source offset position) :
    Byte.lineFeed ∉ (source.drop (offset - (position.column - 1))).take
      (position.column - 1) := by
  intro member
  have column_le := marks.column_le
  rcases List.mem_iff_getElem?.mp member with ⟨index, found⟩
  rw [List.getElem?_take, List.getElem?_drop] at found
  split at found
  case isTrue early => exact marks.unbroken _ (by omega) (by omega) found
  case isFalse => cases found

/-- The line of a position starts as many bytes before the offset as the column says. -/
theorem exists_linesOf_eq (marks : Marks source offset position) :
    ∃ before, linesOf source =
        before ++ linesOf (source.drop (offset - (position.column - 1))) ∧
      terminated before = source.take (offset - (position.column - 1)) ∧
      before.length + 1 = position.line := by
  rcases marks.opens.exists_linesOf_eq with ⟨before, lines_eq, ended⟩
  have unbroken : ∀ line ∈ before, Byte.lineFeed ∉ line := by
    intro line member
    apply lineFeed_not_mem_of_mem_linesOf
    rw [lines_eq]
    exact List.mem_append_left _ member
  have column_le := marks.column_le
  have taken : source.take offset = terminated before ++
      (source.drop (offset - (position.column - 1))).take
        (position.column - 1) := by
    rw [ended, ← List.take_add]
    congr 1
    omega
  refine ⟨before, lines_eq, ended, ?_⟩
  rw [marks.line_eq, taken, List.count_append, count_terminated unbroken,
    List.count_eq_zero.mpr marks.lineFeed_not_mem, Nat.add_zero]

theorem toOffset_eq (marks : Marks source offset position)
    (inside : offset ≤ source.length) : toOffset source position = offset := by
  have column_pos := marks.column_pos
  have column_le := marks.column_le
  rcases marks.exists_linesOf_eq with ⟨before, lines_eq, ended, line_eq⟩
  have taken : (linesOf source).take (position.line - 1) = before := by
    rw [lines_eq, ← line_eq, Nat.add_sub_cancel, List.take_left]
  rw [toOffset, lineStart, taken, ended, List.length_take]
  omega

theorem isIn (marks : Marks source offset position)
    (inside : offset ≤ source.length) : position.IsIn source := by
  have column_pos := marks.column_pos
  have column_le := marks.column_le
  rcases marks.exists_linesOf_eq with ⟨before, lines_eq, ended, line_eq⟩
  cases rest : linesOf (source.drop (offset - (position.column - 1))) with
  | nil => exact absurd rest (List.splitOnP_ne_nil _ _)
  | cons line others =>
      rw [rest] at lines_eq
      refine ⟨by omega, column_pos, line, ?_, ?_⟩
      · rw [lines_eq, ← line_eq, Nat.add_sub_cancel,
          List.getElem?_append_right le_rfl, Nat.sub_self]
        rfl
      · -- Otherwise the line feed after the line is among the bytes of the column.
        by_contra tooLong
        have whole := terminated_linesOf
          (source.drop (offset - (position.column - 1)))
        have atEnd : (source.drop (offset - (position.column - 1)) ++
            [Byte.lineFeed])[line.length]? = some Byte.lineFeed := by
          rw [← whole, rest, terminated_cons,
            List.getElem?_append_right le_rfl, Nat.sub_self]
          rfl
        rw [List.getElem?_append_left (by rw [List.length_drop]; omega)]
          at atEnd
        apply marks.lineFeed_not_mem
        apply List.mem_iff_getElem?.mpr
        exact ⟨line.length, by rw [List.getElem?_take_of_lt (by omega), atEnd]⟩

end Marks

/-- A line parts the lines of a source, each with its line feed, into three. -/
theorem append_lineFeed_eq {source line : Bytes} {index : Nat}
    (found : (linesOf source)[index]? = some line) :
    source ++ [Byte.lineFeed] = terminated ((linesOf source).take index) ++
      (line ++ Byte.lineFeed :: terminated ((linesOf source).drop (index + 1))) := by
  rcases List.getElem?_eq_some_iff.mp found with ⟨index_lt, same⟩
  rw [← terminated_cons, ← same, ← List.drop_eq_getElem_cons index_lt,
    ← terminated_append, List.take_append_drop, terminated_linesOf]

/-- Of a line and those before it, only the line feed that ends it may be missing. -/
theorem terminated_take_append_prefix {source line : Bytes} {index : Nat}
    (found : (linesOf source)[index]? = some line) :
    terminated ((linesOf source).take index) ++ line <+: source := by
  have whole := append_lineFeed_eq found
  rw [← List.append_assoc] at whole
  have starts : terminated ((linesOf source).take index) ++ line <+:
      source ++ [Byte.lineFeed] := ⟨_, whole.symm⟩
  refine List.prefix_of_prefix_length_le starts (List.prefix_append _ _) ?_
  have lengths := congrArg List.length whole
  simp only [List.length_append, List.length_cons, List.length_nil] at lengths ⊢
  omega

/-- A byte that is no line feed stands on the line of its position, at the column. -/
theorem Marks.exists_line_getElem? {source : Bytes} {offset : Nat}
    {position : Position} (marks : Marks source offset position) {byte : UInt8}
    (found : source[offset]? = some byte) (other : byte ≠ Byte.lineFeed) :
    ∃ content, (linesOf source)[position.line - 1]? = some content ∧
      content[position.column - 1]? = some byte := by
  have inside := (List.getElem?_eq_some_iff.mp found).1
  have sameOffset := marks.toOffset_eq inside.le
  rcases marks.isIn inside.le with ⟨_, _, content, lineFound, column_le⟩
  refine ⟨content, lineFound, ?_⟩
  have onLine : (source ++ [Byte.lineFeed])[offset]? = some byte := by
    rw [List.getElem?_append_left inside, found]
  rw [append_lineFeed_eq lineFound, ← sameOffset, toOffset, lineStart,
    List.getElem?_append_right (Nat.le_add_right _ _),
    Nat.add_sub_cancel_left] at onLine
  rcases Nat.lt_or_eq_of_le (Nat.sub_le_of_le_add column_le) with early | atEnd
  · rwa [List.getElem?_append_left early] at onLine
  · rw [atEnd, List.getElem?_append_right le_rfl, Nat.sub_self] at onLine
    exact absurd (Option.some.inj onLine).symm other

/-- A place on a line is the position of its offset. -/
theorem IsIn.marks_toOffset {source : Bytes} {position : Position}
    (isIn : position.IsIn source) :
    toOffset source position ≤ source.length ∧
      Marks source (toOffset source position) position := by
  rcases isIn with ⟨line_pos, column_pos, line, found, column_le⟩
  rcases terminated_take_append_prefix found with ⟨rest, split⟩
  have unbroken := lineFeed_not_mem_of_mem_linesOf
    (List.mem_of_getElem? found)
  have index_lt := (List.getElem?_eq_some_iff.mp found).1
  have counted : (terminated ((linesOf source).take (position.line - 1))).count
      Byte.lineFeed = position.line - 1 := by
    rw [count_terminated, List.length_take_of_le index_lt.le]
    intro other member
    exact lineFeed_not_mem_of_mem_linesOf (List.mem_of_mem_take member)
  generalize before_eq : terminated ((linesOf source).take (position.line - 1)) =
    before at split counted
  have toOffset_eq : toOffset source position =
      before.length + (position.column - 1) := by
    rw [toOffset, lineStart, before_eq]
  have taken : source.take (toOffset source position) =
      before ++ line.take (position.column - 1) := by
    rw [toOffset_eq, ← split, List.append_assoc, List.take_length_add_append,
      List.take_append_of_le_length (by omega)]
  constructor
  · rw [toOffset_eq, ← split, List.length_append, List.length_append]
    omega
  · refine ⟨?_, column_pos, by omega, ?_, ?_⟩
    · rw [taken, List.count_append, counted, List.count_eq_zero.mpr]
      · omega
      · intro member
        exact unbroken (List.mem_of_mem_take member)
    · intro place after early isLineFeed
      rw [← split, List.append_assoc, List.getElem?_append_right (by omega),
        List.getElem?_append_left (by omega)] at isLineFeed
      exact unbroken (List.mem_of_getElem? isLineFeed)
    · rw [toOffset_eq, Nat.add_sub_cancel, ← before_eq]
      apply startsLine_terminated
      rw [before_eq]
      exact ⟨line ++ rest, by rw [← List.append_assoc, split]⟩

/-! ## Two scans -/

/-- The last place of a line feed, searched for from the end. -/
def lastLineFeed? (before : Bytes) : Option Nat :=
  (List.range before.length).reverse.find? fun place =>
    before[place]? == some Byte.lineFeed

/-- The place after the last line feed, or the start if there is none. -/
def lastLineStart (before : Bytes) : Nat :=
  match lastLineFeed? before with
  | some place => place + 1
  | none => 0

/-- The position by a count of the line feeds and a search for the last one. -/
def ofScans (source : Bytes) (offset : Nat) : Position where
  line := (source.take offset).count Byte.lineFeed + 1
  column := (source.take offset).length -
    lastLineStart (source.take offset) + 1

section Scans

variable {before : Bytes} {place : Nat}

theorem getElem?_of_lastLineFeed? (found : lastLineFeed? before = some place) :
    before[place]? = some Byte.lineFeed ∧
      ∀ later, place < later → before[later]? ≠ some Byte.lineFeed := by
  rcases List.find?_eq_some_iff_append.mp found with
    ⟨here, larger, smaller, split, noLater⟩
  refine ⟨beq_iff_eq.mp here, ?_⟩
  intro later after isLineFeed
  have descending : (larger ++ place :: smaller).Pairwise (· > ·) := by
    rw [← split]
    exact List.pairwise_reverse.mpr List.pairwise_lt_range
  have listed : later ∈ larger ++ place :: smaller := by
    rw [← split, List.mem_reverse, List.mem_range]
    exact (List.getElem?_eq_some_iff.mp isLineFeed).1
  rcases List.mem_append.mp listed with inLarger | others
  · simpa [isLineFeed] using noLater later inLarger
  · rcases List.mem_cons.mp others with rfl | inSmaller
    · exact Nat.lt_irrefl later after
    · have below := (List.pairwise_cons.mp
        (List.pairwise_append.mp descending).2.1).1 later inSmaller
      exact Nat.lt_asymm after below

theorem ne_of_lastLineFeed?_eq_none (nothing : lastLineFeed? before = none)
    (place : Nat) : before[place]? ≠ some Byte.lineFeed := by
  intro isLineFeed
  have inside := (List.getElem?_eq_some_iff.mp isLineFeed).1
  have tested := List.find?_eq_none.mp nothing place
    (List.mem_reverse.mpr (List.mem_range.mpr inside))
  exact tested (beq_iff_eq.mpr isLineFeed)

/-- The last line starts within the bytes and is not broken. -/
theorem lastLineStart_spec (before : Bytes) :
    lastLineStart before ≤ before.length ∧
      StartsLine before (lastLineStart before) ∧
      ∀ place, lastLineStart before ≤ place →
        before[place]? ≠ some Byte.lineFeed := by
  rw [lastLineStart]
  split
  case h_1 place found =>
    rcases getElem?_of_lastLineFeed? found with ⟨here, noLater⟩
    exact ⟨(List.getElem?_eq_some_iff.mp here).1, Or.inr ⟨place, rfl, here⟩,
      noLater⟩
  case h_2 nothing =>
    exact ⟨Nat.zero_le _, Or.inl rfl,
      fun place _ => ne_of_lastLineFeed?_eq_none nothing place⟩

end Scans

theorem StartsLine.of_prefix {before source : Bytes} {offset : Nat}
    (starts : StartsLine before offset) (isPrefix : before <+: source) :
    StartsLine source offset := by
  rcases starts with isStart | ⟨previous, offset_eq, found⟩
  · exact Or.inl isStart
  · rcases isPrefix with ⟨rest, rfl⟩
    have inside := (List.getElem?_eq_some_iff.mp found).1
    refine Or.inr ⟨previous, offset_eq, ?_⟩
    rw [List.getElem?_append_left inside, found]

/-- What the scans find is marked by the line feeds before the offset. -/
theorem marks_ofScans (source : Bytes) (offset : Nat) :
    Marks source (source.take offset).length (ofScans source offset) := by
  have isPrefix := List.take_prefix offset source
  rcases lastLineStart_spec (source.take offset) with
    ⟨start_le, starts, unbroken⟩
  refine ⟨?_, Nat.succ_pos _, Nat.succ_le_succ (Nat.sub_le _ _), ?_, ?_⟩
  · rw [← List.prefix_iff_eq_take.mp isPrefix]
    rfl
  · intro place after early isLineFeed
    refine unbroken place ?_ ?_
    · dsimp only [ofScans] at after
      omega
    · rcases isPrefix with ⟨rest, whole⟩
      rw [← whole, List.getElem?_append_left early] at isLineFeed
      exact isLineFeed
  · have column_eq : (source.take offset).length -
        ((ofScans source offset).column - 1) =
          lastLineStart (source.take offset) := by
      rw [ofScans, Nat.add_sub_cancel, Nat.sub_sub_self start_le]
    rw [column_eq]
    exact starts.of_prefix isPrefix

/-- Going through the bytes and the two scans find the same position. -/
theorem ofScans_eq (source : Bytes) (offset : Nat) :
    ofScans source offset = ofOffset source offset := by
  have marks := marks_ofOffset (List.take_prefix offset source).length_le
  rw [(marks_ofScans source offset).position_unique marks, ofOffset_eq_foldl,
    ← List.prefix_iff_eq_take.mp (List.take_prefix offset source),
    ← ofOffset_eq_foldl]

/--
Offsets and positions of a source correspond to each other and have the same
order.  The line of an offset counts the line feeds before it and its column
the bytes since the last of them, so that the offset is got back.  Each place
on a line is the position of one offset.  A greater offset has a later
position; a line feed is followed by the first column of the next line, and
any other byte by the next column; beyond the end the position stays that of
the end.  A count of line feeds and a search for the last one from the end
find the same position, and the line that is found does not start after the
offset.
-/
theorem ofOffset_ordered_bijection (source : Bytes) :
    (∀ offset ≤ source.length,
      Marks source offset (ofOffset source offset) ∧
        (ofOffset source offset).IsIn source ∧
        toOffset source (ofOffset source offset) = offset) ∧
      (∀ position : Position, position.IsIn source →
        toOffset source position ≤ source.length ∧
          ofOffset source (toOffset source position) = position) ∧
      (∀ left right, left < right → right ≤ source.length →
        (ofOffset source left).Before (ofOffset source right)) ∧
      (∀ offset byte, source[offset]? = some byte →
        ofOffset source (offset + 1) =
          if byte = Byte.lineFeed then
            ⟨(ofOffset source offset).line + 1, 1⟩
          else
            ⟨(ofOffset source offset).line,
              (ofOffset source offset).column + 1⟩) ∧
      (∀ offset, source.length ≤ offset →
        ofOffset source offset = ofOffset source source.length) ∧
      ∀ offset,
        lastLineStart (source.take offset) ≤ (source.take offset).length ∧
          ofScans source offset = ofOffset source offset := by
  refine ⟨?_, ?_, ?_, ?_, ?_, ?_⟩
  · intro offset inside
    have marks := marks_ofOffset inside
    exact ⟨marks, marks.isIn inside, marks.toOffset_eq inside⟩
  · intro position isIn
    rcases isIn.marks_toOffset with ⟨inside, marks⟩
    exact ⟨inside, (marks_ofOffset inside).position_unique marks⟩
  · intro left right ordered inside
    exact before_ofOffset ordered inside
  · intro offset byte found
    rw [ofOffset_succ found, advance]
    simp only [beq_iff_eq]
  · intro offset beyond
    exact ofOffset_of_length_le beyond
  · intro offset
    exact ⟨(lastLineStart_spec _).1, ofScans_eq source offset⟩

/-- An empty line between two others has one place, and its line feed leads to the next line. -/
theorem ofOffset_ordered_bijection_empty_line :
    ofOffset [0x61, 0x0A, 0x0A, 0x62] 2 = ⟨2, 1⟩ ∧
      toOffset [0x61, 0x0A, 0x0A, 0x62] ⟨2, 1⟩ = 2 ∧
      IsIn [0x61, 0x0A, 0x0A, 0x62] ⟨3, 2⟩ ∧
      ofOffset [0x61, 0x0A, 0x0A, 0x62]
        (toOffset [0x61, 0x0A, 0x0A, 0x62] ⟨3, 2⟩) = ⟨3, 2⟩ ∧
      Before (ofOffset [0x61, 0x0A, 0x0A, 0x62] 2)
        (ofOffset [0x61, 0x0A, 0x0A, 0x62] 4) ∧
      ofOffset [0x61, 0x0A, 0x0A, 0x62] 3 = ⟨3, 1⟩ ∧
      ofOffset [0x61, 0x0A, 0x0A, 0x62] 9 =
        ofOffset [0x61, 0x0A, 0x0A, 0x62] 4 := by
  rcases ofOffset_ordered_bijection [0x61, 0x0A, 0x0A, 0x62] with
    ⟨recovers, onto, ordered, steps, beyond, _⟩
  have here : ofOffset [0x61, 0x0A, 0x0A, 0x62] 2 = ⟨2, 1⟩ := by decide
  have isIn : IsIn [0x61, 0x0A, 0x0A, 0x62] ⟨3, 2⟩ :=
    ⟨by decide, by decide, [0x62], by decide, by decide⟩
  refine ⟨here, ?_, isIn, (onto _ isIn).2, ?_, ?_, ?_⟩
  · have back := (recovers 2 (by decide)).2.2
    rwa [here] at back
  · exact ordered 2 4 (by decide) (by decide)
  · have next := steps 2 0x0A (by decide)
    rwa [here] at next
  · exact beyond 9 (by decide)

end Lexicon.Position
