import Lexicon.Proofs.LosslessLexing
import Lexicon.Proofs.OffsetShift

/-!
# Lexing again from the end of an item

The lexer keeps nothing but its place in the source.  A run can therefore be
cut after any item: what follows the item is what lexing gives for the bytes
behind it, with every offset moved by the place of the cut.

The items up to the cut start before it and the others do not, so the two
parts of a run are told apart by where their items start.
-/

namespace Lexicon

/-! ## The run behind an item -/

/-- A place in a source is the start of what remains, moved to its offset. -/
theorem Cursor.Within.eq_shift_start {source : Bytes} {cursor : Cursor}
    (within : cursor.Within source) :
    cursor =
      (Cursor.start (source.drop cursor.offset)).shift cursor.offset := by
  rw [Cursor.shift, Cursor.start, Nat.zero_add, ← within.rest_eq]

/-- The lexer comes to the end of every item that it reads and goes on there. -/
theorem exists_scan_eq_append {tokenizer : Tokenizer} {source : Bytes}
    (fits : source.length ≤ maxOffset) {cursor : Cursor}
    (within : cursor.Within source) {item : Item}
    (member : item ∈ scan tokenizer cursor) :
    ∃ before next, next.Within source ∧ next.offset = item.span.stop ∧
      scan tokenizer cursor = before ++ item :: scan tokenizer next := by
  fun_induction scan tokenizer cursor with
  | case1 cursor stepped => cases member
  | case2 cursor head next stepped induction =>
      rcases within.step? fits stepped with ⟨_, _, stopsAt, after⟩
      rcases List.mem_cons.mp member with rfl | later
      · exact ⟨[], next, after, stopsAt.symm, rfl⟩
      · rcases induction after later with
          ⟨before, last, lastWithin, lastOffset, split⟩
        refine ⟨head :: before, last, lastWithin, lastOffset, ?_⟩
        rw [split, List.cons_append]

/-! ## Items behind an offset -/

theorem Tiling.filter_eq_of_append {tokenizer : Tokenizer} {source : Bytes}
    {offset : Nat} {before later : List Item} {item : Item}
    (tiling : Tiling tokenizer source offset (before ++ item :: later)) :
    (before ++ item :: later).filter
        (fun other => item.span.stop ≤ other.span.start) = later := by
  rcases List.pairwise_append.mp tiling.ascending with ⟨_, rest, across⟩
  rcases List.pairwise_cons.mp rest with ⟨behind, _⟩
  have here : item.span.start < item.span.stop :=
    tiling.nonempty_of_mem (by simp)
  have noneBefore : before.filter
      (fun other => item.span.stop ≤ other.span.start) = [] := by
    apply List.filter_eq_nil_iff.mpr
    intro other member
    have ordered := across other member item List.mem_cons_self
    have otherNonempty :=
      tiling.nonempty_of_mem (List.mem_append_left _ member)
    have startsBefore : other.span.start < item.span.stop :=
      otherNonempty.trans_le (ordered.trans here.le)
    simpa using startsBefore
  have allLater : later.filter
      (fun other => item.span.stop ≤ other.span.start) = later := by
    apply List.filter_eq_self.mpr
    intro other member
    exact decide_eq_true (behind other member)
  rw [List.filter_append, noneBefore, List.nil_append,
    List.filter_cons_of_neg (by simpa using here), allLater]

namespace Lexed

/-- The lexemes and the skipped runs that start at an offset or behind it. -/
def startingFrom (offset : Nat) (lexed : Lexed) : Lexed where
  lexemes := lexed.lexemes.filter fun lexeme => offset ≤ lexeme.span.start
  skipped := lexed.skipped.filter fun run => offset ≤ run.span.start

theorem startingFrom_ofItems (items : List Item) (offset : Nat) :
    (ofItems items).startingFrom offset =
      ofItems (items.filter fun item => offset ≤ item.span.start) := by
  rw [startingFrom, ofItems, ofItems]
  simp only [List.filter_filterMap, List.filterMap_filter]
  congr 2
  · funext item
    cases item with
    | lexeme found => rfl
    | skipped run => simp
  · funext item
    cases item with
    | lexeme found => simp
    | skipped run => rfl

end Lexed

/--
Lexing has no hidden state.  Lexing what lies behind the end of a lexeme or of
a skipped run gives the lexemes and skipped runs of the whole source that
start there or later, in the same order, with all offsets moved by the place
of the cut.  No end of a span is lost to the bound on offsets by the move.
-/
theorem lex_drop_of_mem_spans (tokenizer : Tokenizer) {source : Bytes}
    (fits : source.length ≤ maxOffset) :
    ∃ lexed, lex tokenizer source = .ok lexed ∧
      ∀ span ∈ lexed.spans, ∃ restarted,
        lex tokenizer (source.drop span.stop) = .ok restarted ∧
          lexed.startingFrom span.stop = restarted.shift span.stop ∧
          ∀ moved ∈ restarted.spans,
            (moved.shift span.stop).start = moved.start + span.stop ∧
              (moved.shift span.stop).stop = moved.stop + span.stop := by
  have tiling := tiling_scan_start tokenizer fits
  refine ⟨_, lex_of_le tokenizer fits, ?_⟩
  intro span member
  rcases Lexed.mem_spans_ofItems.mp member with ⟨item, listed, rfl⟩
  rcases exists_scan_eq_append fits (Cursor.within_start source) listed with
    ⟨before, next, within, stopsAt, split⟩
  have inside : item.span.stop ≤ source.length := by
    rw [← stopsAt]
    exact within.offset_le
  have restFits : (source.drop item.span.stop).length ≤ maxOffset := by
    rw [List.length_drop]
    omega
  refine ⟨_, lex_of_le tokenizer restFits, ?_, ?_⟩
  · have behind : scan tokenizer next =
        (scan tokenizer (Cursor.start (source.drop item.span.stop))).map
          (Item.shift item.span.stop) := by
      rw [← scan_shift, ← stopsAt, ← within.eq_shift_start]
    rw [split] at tiling ⊢
    rw [Lexed.startingFrom_ofItems, tiling.filter_eq_of_append, behind,
      Lexed.ofItems_shift]
  · intro moved movedMember
    have lossless := (tiling_scan_start tokenizer restFits).lossless
    have movedInside := lossless.inside moved movedMember
    rw [List.length_drop] at movedInside
    apply Span.shift_exact (lossless.nonempty moved movedMember)
    omega

/-- Lexing again behind an unknown word finds the token that follows it. -/
theorem lex_drop_of_mem_spans_words :
    ∃ catalog tokenizer lexed restarted,
      Catalog.load [⟨.keyword, "is", [0x69, 0x73], none⟩] = .ok catalog ∧
        Tokenizer.build catalog [⟨.keyword, none⟩] = .ok tokenizer ∧
        lex tokenizer [0x69, 0x73, 0x0A, 0x78, 0x20, 0x69, 0x73] =
          .ok lexed ∧
        Span.clamp 3 4 ∈ lexed.spans ∧
        lex tokenizer [0x20, 0x69, 0x73] = .ok restarted ∧
        lexed.startingFrom 4 = restarted.shift 4 := by
  have lexes : ∃ catalog tokenizer,
      Catalog.load [⟨.keyword, "is", [0x69, 0x73], none⟩] = .ok catalog ∧
        Tokenizer.build catalog [⟨.keyword, none⟩] = .ok tokenizer ∧
        lex tokenizer [0x69, 0x73, 0x0A, 0x78, 0x20, 0x69, 0x73] =
          .ok ⟨[⟨.keyword "is", Span.clamp 0 2⟩,
              ⟨.keyword "is", Span.clamp 5 7⟩],
            [⟨⟨3, some 0x78⟩, Span.clamp 3 4⟩]⟩ :=
    ⟨_, _, rfl, rfl, by decide +kernel⟩
  rcases lexes with ⟨catalog, tokenizer, loaded, built, lexed⟩
  have fits : ([0x69, 0x73, 0x0A, 0x78, 0x20, 0x69, 0x73] : Bytes).length ≤
      maxOffset := by
    decide
  rcases lex_drop_of_mem_spans tokenizer fits with
    ⟨result, sameLexed, restarts⟩
  cases lexed.symm.trans sameLexed
  have member : Span.clamp 3 4 ∈ Lexed.spans
      ⟨[⟨.keyword "is", Span.clamp 0 2⟩, ⟨.keyword "is", Span.clamp 5 7⟩],
        [⟨⟨3, some 0x78⟩, Span.clamp 3 4⟩]⟩ := by
    simp [Lexed.spans]
  rcases restarts (Span.clamp 3 4) member with ⟨restarted, relexes, same, _⟩
  exact ⟨catalog, tokenizer, _, restarted, loaded, built, lexed, member,
    relexes, same⟩

end Lexicon
