import Lexicon.Proofs.LosslessLexing
import Mathlib.Data.List.Nodup

/-!
# Entries that are never read

Two categories may declare the same literal.  Where both of them could read
it, the one that is listed earlier does.  If the earlier one allows whatever
the later one allows after its literals, then it can read the literal
wherever the later one can, so the entry of the later category is never
read.  It makes no difference which other literals the two categories have.
A longer literal of the later category may still win, but then the token
takes other bytes.

The condition on what may follow is needed.  Where the earlier category is
stricter, the later one reads the literal in the places that the earlier one
refuses.
-/

namespace Lexicon

/-! ## Boundaries that allow as much -/

/--
Whatever may follow a literal under the narrower rule may follow it under the
wider one: the wider rule has no boundary, or both have one and the wider one
allows every byte that the narrower one allows.
-/
def Rule.Covers (wider narrower : Rule) : Prop :=
  wider.boundary = none ∨
    ∃ wide narrow, wider.boundary = some wide ∧
      narrower.boundary = some narrow ∧
        ∀ byte, narrow.allowed.contains byte = true →
          wide.allowed.contains byte = true

theorem Rule.Covers.admits {wider narrower : Rule}
    (covers : wider.Covers narrower) {rest : Bytes}
    (follows : narrower.Admits rest) : wider.Admits rest := by
  rcases covers with free | ⟨wide, narrow, isWide, isNarrow, within⟩
  · exact Or.inl free
  · rcases follows with free | ends | ⟨boundary, byte, found, next, allowed⟩
    · rw [isNarrow] at free
      cases free
    · exact Or.inr (Or.inl ends)
    · cases isNarrow.symm.trans found
      exact Or.inr (Or.inr ⟨wide, byte, isWide, next, within byte allowed⟩)

/-! ## Shadowed entries -/

/--
An entry of a rule is shadowed if a rule listed before has an entry with the
same literal and allows as much after it.
-/
def Shadowed (entries : List Entry) (rules : List Rule)
    (entry : Entry) : Prop :=
  ∃ earlier later shadowing, [earlier, later].Sublist rules ∧
    entry ∈ entries ∧ entry.category = later.category ∧
    shadowing ∈ entries ∧ shadowing.category = earlier.category ∧
    shadowing.literal = entry.literal ∧ earlier.Covers later

/-- In a list without repetitions the elements before one are those listed earlier. -/
theorem mem_of_pair_sublist {α : Type} {front back : List α}
    {earlier later : α} (distinct : (front ++ later :: back).Nodup)
    (inOrder : [earlier, later].Sublist (front ++ later :: back)) :
    earlier ∈ front := by
  rcases List.sublist_append_iff.mp inOrder with
    ⟨head, tail, split, inFront, inRest⟩
  cases head with
  | nil =>
      have whole : [earlier, later] = tail := split
      rw [← whole] at inRest
      have behind : later ∈ back :=
        List.singleton_sublist.mp inRest.tail
      have rest := (List.nodup_append.mp distinct).2.1
      exact absurd behind (List.nodup_cons.mp rest).1
  | cons first others =>
      rcases List.cons.inj split with ⟨isFirst, _⟩
      rw [isFirst]
      exact inFront.subset List.mem_cons_self

/-- A shadowed entry is not chosen, and nor is another one of its category and literal. -/
theorem Shadowed.literal_ne_of_chosen {entries : List Entry}
    {rules : List Rule} (distinct : (rules.map Rule.category).Nodup)
    {entry chosen : Entry} (shadowed : Shadowed entries rules entry)
    {input : Bytes} (isChosen : Chosen entries rules input chosen)
    (sameCategory : chosen.category = entry.category) :
    chosen.literal ≠ entry.literal := by
  intro sameLiteral
  rcases shadowed with ⟨earlier, later, shadowing, inOrder, _,
    laterCategory, declared, earlierCategory, shadowingLiteral, covers⟩
  rcases isChosen with ⟨front, rule, back, rfl, longest, failed⟩
  have admissible := longest.admissible
  have isLater : rule = later := by
    apply List.inj_on_of_nodup_map distinct (by simp)
      (inOrder.subset (by simp))
    rw [← admissible.category_eq, sameCategory, laterCategory]
  subst isLater
  have before : earlier ∈ front :=
    mem_of_pair_sublist distinct.of_map inOrder
  -- The shadowing entry is admissible under the earlier rule, which has none.
  apply failed earlier before shadowing
  have starts := admissible.starts
  have follows := covers.admits admissible.follows
  rw [sameLiteral, ← shadowingLiteral] at starts follows
  exact ⟨declared, earlierCategory, starts, follows⟩

/-! ## Classification and lexing -/

namespace Tokenizer

variable {entries : List Entry} {rules : List Rule} {catalog : Catalog}
  {tokenizer : Tokenizer}

theorem slice_ne_of_shadowed
    (loaded : Catalog.load entries = .ok catalog)
    (built : build catalog rules = .ok tokenizer) {entry : Entry}
    (shadowed : Shadowed entries rules entry) {source : Bytes}
    {offset : Nat} {recognition : Recognition}
    (classified : tokenizer.classifyAt source offset = .ok recognition)
    (sameCategory : recognition.token.category = entry.category) :
    (source.drop offset).take recognition.length ≠ entry.literal := by
  rcases parts_of_build built with ⟨rfl, rfl⟩
  rcases exists_chosen_of_classifyAt classified with
    ⟨chosen, isChosen, sameToken, slice⟩
  rw [sameToken, Token.category_ofEntry] at sameCategory
  rw [slice]
  have amongEntries :=
    (chosen_congr (Catalog.mem_entries_of_load loaded)).mp isChosen
  exact shadowed.literal_ne_of_chosen tokenizer.distinct amongEntries
    sameCategory

/--
A shadowed entry is dead.  Whatever the source and the offset, classification
gives no token of its category that takes the bytes of its literal.  So no
source has such a token among its lexemes.
-/
theorem classifyAt_never_shadowed
    (loaded : Catalog.load entries = .ok catalog)
    (built : build catalog rules = .ok tokenizer) {entry : Entry}
    (shadowed : Shadowed entries rules entry) :
    (∀ source offset recognition,
        tokenizer.classifyAt source offset = .ok recognition →
          ¬ (recognition.token.category = entry.category ∧
            (source.drop offset).take recognition.length =
              entry.literal)) ∧
      ∀ source lexed, lex tokenizer source = .ok lexed →
        ∀ lexeme ∈ lexed.lexemes,
          ¬ (lexeme.token.category = entry.category ∧
            source.extract lexeme.span.start lexeme.span.stop =
              entry.literal) := by
  constructor
  · rintro source offset recognition classified ⟨sameCategory, slice⟩
    exact slice_ne_of_shadowed loaded built shadowed classified
      sameCategory slice
  · rintro source lexed lexes lexeme member ⟨sameCategory, slice⟩
    rcases (lossless_of_lex lexes).lexeme_classified lexeme member with
      ⟨recognition, classified, sameToken, sameLength⟩
    rw [← sameToken] at sameCategory
    rw [List.extract_eq_take_drop, ← sameLength] at slice
    exact slice_ne_of_shadowed loaded built shadowed classified
      sameCategory slice

/--
The opcode `return` is shadowed by the keyword, which needs the same
boundary.  No token is that opcode, and `return;` starts with the keyword.
-/
theorem classifyAt_never_shadowed_return :
    ∃ catalog tokenizer,
      Catalog.load
          [⟨.keyword, "return", [0x72, 0x65, 0x74, 0x75, 0x72, 0x6E], none⟩,
            ⟨.opcode, "return", [0x72, 0x65, 0x74, 0x75, 0x72, 0x6E],
              some 0xF3⟩] = .ok catalog ∧
        build catalog [⟨.keyword, some Boundary.word⟩,
          ⟨.opcode, some Boundary.word⟩] = .ok tokenizer ∧
        tokenizer.classifyAt
            [0x72, 0x65, 0x74, 0x75, 0x72, 0x6E, 0x3B] 0 =
          .ok ⟨.keyword "return", 6, [0x3B]⟩ ∧
        (∀ source offset recognition,
          tokenizer.classifyAt source offset = .ok recognition →
            ¬ (recognition.token.category = .opcode ∧
              (source.drop offset).take recognition.length =
                [0x72, 0x65, 0x74, 0x75, 0x72, 0x6E])) ∧
        ∀ source lexed, lex tokenizer source = .ok lexed →
          ∀ lexeme ∈ lexed.lexemes,
            ¬ (lexeme.token.category = .opcode ∧
              source.extract lexeme.span.start lexeme.span.stop =
                [0x72, 0x65, 0x74, 0x75, 0x72, 0x6E]) := by
  have runs : ∃ catalog tokenizer,
      Catalog.load
          [⟨.keyword, "return", [0x72, 0x65, 0x74, 0x75, 0x72, 0x6E], none⟩,
            ⟨.opcode, "return", [0x72, 0x65, 0x74, 0x75, 0x72, 0x6E],
              some 0xF3⟩] = .ok catalog ∧
        build catalog [⟨.keyword, some Boundary.word⟩,
          ⟨.opcode, some Boundary.word⟩] = .ok tokenizer ∧
        tokenizer.classifyAt
            [0x72, 0x65, 0x74, 0x75, 0x72, 0x6E, 0x3B] 0 =
          .ok ⟨.keyword "return", 6, [0x3B]⟩ :=
    ⟨_, _, rfl, rfl, by decide +kernel⟩
  rcases runs with ⟨catalog, tokenizer, loaded, built, classified⟩
  have shadowed : Shadowed
      [⟨.keyword, "return", [0x72, 0x65, 0x74, 0x75, 0x72, 0x6E], none⟩,
        ⟨.opcode, "return", [0x72, 0x65, 0x74, 0x75, 0x72, 0x6E],
          some 0xF3⟩]
      [⟨.keyword, some Boundary.word⟩, ⟨.opcode, some Boundary.word⟩]
      ⟨.opcode, "return", [0x72, 0x65, 0x74, 0x75, 0x72, 0x6E],
        some 0xF3⟩ :=
    ⟨_, _, ⟨.keyword, "return", [0x72, 0x65, 0x74, 0x75, 0x72, 0x6E], none⟩,
      List.Sublist.refl _, by simp, rfl, by simp, rfl, rfl,
      Or.inr ⟨_, _, rfl, rfl, fun _ allowed => allowed⟩⟩
  exact ⟨catalog, tokenizer, loaded, built, classified,
    classifyAt_never_shadowed loaded built shadowed⟩

/-- Where the keyword may only be followed by a space, `return;` starts with the opcode. -/
example :
    ∃ catalog tokenizer,
      Catalog.load
          [⟨.keyword, "return", [0x72, 0x65, 0x74, 0x75, 0x72, 0x6E], none⟩,
            ⟨.opcode, "return", [0x72, 0x65, 0x74, 0x75, 0x72, 0x6E],
              some 0xF3⟩] = .ok catalog ∧
        build catalog [⟨.keyword, some ⟨ByteSet.ofBytes [0x20]⟩⟩,
          ⟨.opcode, some Boundary.word⟩] = .ok tokenizer ∧
        tokenizer.classifyAt
            [0x72, 0x65, 0x74, 0x75, 0x72, 0x6E, 0x3B] 0 =
          .ok ⟨.opcode "return" 0xF3, 6, [0x3B]⟩ :=
  ⟨_, _, rfl, rfl, by decide +kernel⟩

end Tokenizer

end Lexicon
