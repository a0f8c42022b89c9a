import Lexicon.Matcher
import Lexicon.Proofs.TrieLookup
import Mathlib.Data.List.Sort

/-!
# The order of candidates

The two ways to match are compared.  Both give their candidates longest
first, and candidates of literals that are tried one by one come in the order
of the list where they are equally long.  An ordered list of candidates is
determined by its members, so the two ways agree as soon as they give the
same candidates.

The trie leaves out the empty literal and all but the first of equal
literals.  Two literals of one length that start the same input are equal, so
the trie gives exactly the first candidate of every length.
-/

namespace Lexicon

/-! ## Ordered lists of candidates -/

namespace Candidate

/-- The first candidate is longer, or as long and of a literal listed earlier. -/
def Precedes (left right : Candidate) : Prop :=
  right.length < left.length ∨
    (left.length = right.length ∧ left.index < right.index)

theorem precedes_irrefl (candidate : Candidate) :
    ¬ candidate.Precedes candidate := by
  rintro (shorter | ⟨_, earlier⟩)
  · exact Nat.lt_irrefl _ shorter
  · exact Nat.lt_irrefl _ earlier

theorem precedes_asymm {left right : Candidate}
    (forward : left.Precedes right) : ¬ right.Precedes left := by
  intro backward
  unfold Precedes at forward backward
  omega

theorem Precedes.index_lt {left right : Candidate}
    (precedes : left.Precedes right)
    (sameLength : left.length = right.length) :
    left.index < right.index := by
  rcases precedes with shorter | ⟨_, earlier⟩
  · exact absurd shorter (Nat.not_lt.mpr (Nat.le_of_eq sameLength))
  · exact earlier

theorem nodup_of_ordered {candidates : List Candidate}
    (ordered : candidates.Pairwise Precedes) : candidates.Nodup := by
  refine ordered.imp ?_
  rintro first second precedes rfl
  exact precedes_irrefl first precedes

theorem Precedes.length_le {left right : Candidate}
    (precedes : left.Precedes right) : right.length ≤ left.length := by
  rcases precedes with shorter | ⟨sameLength, _⟩
  · exact Nat.le_of_lt shorter
  · exact Nat.le_of_eq sameLength.symm

/-- An ordered list of candidates is determined by its members. -/
theorem eq_of_ordered_of_mem_iff
    {left right : List Candidate}
    (leftOrdered : left.Pairwise Precedes)
    (rightOrdered : right.Pairwise Precedes)
    (sameMembers : ∀ candidate, candidate ∈ left ↔ candidate ∈ right) :
    left = right := by
  have : Std.Asymm Precedes := ⟨fun _ _ => precedes_asymm⟩
  exact leftOrdered.eq_of_mem_iff rightOrdered sameMembers

/-- Where lengths descend, the first candidate with a property is the longest. -/
theorem find?_eq_some_iff_of_descending
    {candidates : List Candidate} {property : Candidate → Bool}
    (descending : candidates.Pairwise
      fun left right => right.length < left.length)
    {candidate : Candidate} :
    candidates.find? property = some candidate ↔
      (candidate ∈ candidates ∧ property candidate = true) ∧
        ∀ other ∈ candidates, property other = true →
          other.length ≤ candidate.length := by
  induction candidates with
  | nil => simp
  | cons first rest induction =>
      rcases List.pairwise_cons.mp descending with ⟨longest, tail⟩
      by_cases holds : property first = true
      · rw [List.find?_cons_of_pos holds]
        constructor
        · intro equal
          cases equal
          refine ⟨⟨List.mem_cons_self, holds⟩, ?_⟩
          intro other member _
          rcases List.mem_cons.mp member with rfl | later
          · exact Nat.le_refl _
          · exact Nat.le_of_lt (longest other later)
        · rintro ⟨⟨member, _⟩, greatest⟩
          rcases List.mem_cons.mp member with rfl | later
          · rfl
          · have shorter := longest candidate later
            have notShorter := greatest first List.mem_cons_self holds
            omega
      · rw [List.find?_cons_of_neg holds, induction tail]
        have drops : ∀ other, property other = true →
            (other ∈ first :: rest ↔ other ∈ rest) := by
          intro other otherHolds
          rw [List.mem_cons, or_iff_right]
          rintro rfl
          exact holds otherHolds
        constructor
        · rintro ⟨⟨member, candidateHolds⟩, greatest⟩
          refine ⟨⟨List.mem_cons_of_mem _ member, candidateHolds⟩, ?_⟩
          intro other otherMember otherHolds
          exact greatest other ((drops other otherHolds).mp otherMember)
            otherHolds
        · rintro ⟨⟨member, candidateHolds⟩, greatest⟩
          refine ⟨⟨(drops candidate candidateHolds).mp member,
            candidateHolds⟩, ?_⟩
          intro other otherMember otherHolds
          exact greatest other (List.mem_cons_of_mem _ otherMember) otherHolds

/-- The first candidate of every length, in the order of the list. -/
def firstOfEachLength (candidates : List Candidate) : List Candidate :=
  candidates.eraseDupsBy fun left right => left.length == right.length

theorem firstOfEachLength_cons
    (candidate : Candidate) (rest : List Candidate) :
    firstOfEachLength (candidate :: rest) =
      candidate :: firstOfEachLength
        (rest.filter fun other => other.length != candidate.length) := by
  rw [firstOfEachLength, List.eraseDupsBy_cons]
  congr 2
  refine List.filter_congr ?_
  intro other _
  cases same : other.length == candidate.length <;> simp [bne, same]

/-- Induction along the way in which equally long candidates are dropped. -/
theorem firstOfEachLength_induction {motive : List Candidate → Prop}
    (nil : motive [])
    (cons : ∀ candidate rest,
      motive (rest.filter fun other => other.length != candidate.length) →
        motive (candidate :: rest))
    (candidates : List Candidate) : motive candidates := by
  have bounded : ∀ bound (list : List Candidate),
      list.length ≤ bound → motive list := by
    intro bound
    induction bound with
    | zero =>
        intro list short
        rw [List.eq_nil_of_length_eq_zero (Nat.le_zero.mp short)]
        exact nil
    | succ bound induction =>
        intro list short
        cases list with
        | nil => exact nil
        | cons candidate rest =>
            apply cons
            apply induction
            exact Nat.le_trans (List.length_filter_le _ rest)
              (Nat.le_of_succ_le_succ short)
  exact bounded candidates.length candidates (Nat.le_refl _)

theorem firstOfEachLength_sublist (candidates : List Candidate) :
    (firstOfEachLength candidates).Sublist candidates := by
  induction candidates using firstOfEachLength_induction with
  | nil => exact List.Sublist.slnil
  | cons candidate rest induction =>
      rw [firstOfEachLength_cons]
      exact (induction.trans List.filter_sublist).cons_cons candidate

/-- Of the candidates of one length the first is the one listed first. -/
theorem mem_firstOfEachLength {candidates : List Candidate}
    (ordered : candidates.Pairwise Precedes) {candidate : Candidate} :
    candidate ∈ firstOfEachLength candidates ↔
      candidate ∈ candidates ∧
        ∀ other ∈ candidates, other.length = candidate.length →
          candidate.index ≤ other.index := by
  induction candidates using firstOfEachLength_induction with
  | nil => simp [firstOfEachLength]
  | cons first rest induction =>
      rcases List.pairwise_cons.mp ordered with ⟨leads, tail⟩
      have inner := induction (tail.filter _)
      simp only [List.mem_filter, bne_iff_ne, ne_eq] at inner
      rw [firstOfEachLength_cons, List.mem_cons, inner]
      constructor
      · rintro (rfl | ⟨⟨member, differs⟩, least⟩)
        · refine ⟨List.mem_cons_self, ?_⟩
          intro other otherMember sameLength
          rcases List.mem_cons.mp otherMember with rfl | later
          · exact Nat.le_refl _
          · exact Nat.le_of_lt
              ((leads other later).index_lt sameLength.symm)
        · refine ⟨List.mem_cons_of_mem _ member, ?_⟩
          intro other otherMember sameLength
          rcases List.mem_cons.mp otherMember with rfl | later
          · exact absurd sameLength.symm differs
          · exact least other ⟨later, by omega⟩ sameLength
      · rintro ⟨member, least⟩
        rcases List.mem_cons.mp member with rfl | later
        · exact Or.inl rfl
        · refine Or.inr ⟨⟨later, ?_⟩, ?_⟩
          · intro sameLength
            have earlier := (leads candidate later).index_lt sameLength.symm
            have notLater := least first List.mem_cons_self sameLength.symm
            exact absurd earlier (Nat.not_lt.mpr notLater)
          · rintro other ⟨otherLater, _⟩ sameLength
            exact least other (List.mem_cons_of_mem _ otherLater) sameLength

end Candidate

/-! ## Literals tried one by one -/

namespace Ranked

theorem precedes_trans (left middle right : Bytes × Nat)
    (first : precedes left middle = true)
    (second : precedes middle right = true) :
    precedes left right = true := by
  simp only [precedes, Bool.or_eq_true, decide_eq_true_eq, Bool.and_eq_true,
    beq_iff_eq] at first second ⊢
  omega

theorem precedes_total (left right : Bytes × Nat) :
    (precedes left right || precedes right left) = true := by
  simp only [precedes, Bool.or_eq_true, decide_eq_true_eq, Bool.and_eq_true,
    beq_iff_eq]
  omega

/-- Every literal has its own place in the ranked list. -/
theorem places_distinct (literals : List Bytes) :
    (ofLiterals literals).items.Pairwise
      fun left right => left.2 ≠ right.2 := by
  have places : ((ofLiterals literals).items.map Prod.snd).Nodup := by
    have permuted :=
      (List.mergeSort_perm literals.zipIdx precedes).map Prod.snd
    rw [ofLiterals, permuted.nodup_iff, List.zipIdx_map_snd]
    exact List.nodup_range'
  exact List.pairwise_map.mp places

/-- Candidates come longest first, and in the order of the list if equally long. -/
theorem candidates_ordered (literals : List Bytes) (input : Bytes) :
    ((ofLiterals literals).candidates input).Pairwise
      Candidate.Precedes := by
  have ranked : (ofLiterals literals).items.Pairwise
      fun left right => precedes left right = true :=
    List.pairwise_mergeSort precedes_trans precedes_total literals.zipIdx
  have strict := ranked.and (places_distinct literals)
  refine List.Pairwise.map _ ?_ (strict.filter _)
  rintro left right ⟨before, elsewhere⟩
  simp only [precedes, Bool.or_eq_true, decide_eq_true_eq, Bool.and_eq_true,
    beq_iff_eq] at before
  unfold Candidate.Precedes
  dsimp only
  omega

end Ranked

/-! ## Literals held as a trie -/

namespace Trie

/-- The words that are not empty and start with a byte are followed below it. -/
private theorem exists_word_cons {trie : Trie} {byte : UInt8} {rest : Bytes}
    {parent child depth length index : Nat}
    (edge : trie.child? parent byte = some child) :
    (∃ word, word <+: byte :: rest ∧ word ≠ [] ∧
        length = depth + word.length ∧
          (trie.descend? parent word).bind trie.terminal? = some index) ↔
      ∃ word, word <+: rest ∧ length = depth + 1 + word.length ∧
        (trie.descend? child word).bind trie.terminal? = some index := by
  constructor
  · rintro ⟨word, starts, nonempty, sameLength, ends⟩
    rcases List.prefix_cons_iff.mp starts with rfl | ⟨tail, rfl, below⟩
    · exact absurd rfl nonempty
    · rw [descend?, edge, Option.bind_some] at ends
      rw [List.length_cons] at sameLength
      exact ⟨tail, below, by omega, ends⟩
  · rintro ⟨tail, below, sameLength, ends⟩
    refine ⟨byte :: tail, List.prefix_cons_iff.mpr (Or.inr ⟨tail, rfl, below⟩),
      List.cons_ne_nil byte tail, ?_, ?_⟩
    · rw [List.length_cons]
      omega
    · rw [descend?, edge, Option.bind_some, ends]

/-- A walk passes exactly the literals that the input spells out below the node. -/
theorem mem_walk {trie : Trie} {input : Bytes} {candidate : Candidate}
    {parent depth : Nat} :
    candidate ∈ trie.walk parent depth input ↔
      ∃ word, word <+: input ∧ word ≠ [] ∧
        candidate.length = depth + word.length ∧
          (trie.descend? parent word).bind trie.terminal? =
            some candidate.index := by
  induction input generalizing parent depth with
  | nil => simp [walk]
  | cons byte rest induction =>
      rw [walk]
      split
      case h_1 absent =>
        refine iff_of_false List.not_mem_nil ?_
        rintro ⟨word, starts, nonempty, _, ends⟩
        rcases List.prefix_cons_iff.mp starts with rfl | ⟨tail, rfl, _⟩
        · exact nonempty rfl
        · rw [descend?, absent] at ends
          cases ends
      case h_2 child edge =>
        have below := @induction child (depth + 1)
        rw [exists_word_cons edge]
        dsimp only
        constructor
        · intro member
          have found : candidate ∈ trie.walk child (depth + 1) rest ∨
              (candidate.length = depth + 1 ∧
                trie.terminal? child = some candidate.index) := by
            split at member
            case h_1 index ends =>
              rcases List.mem_cons.mp member with rfl | deeper
              · exact Or.inr ⟨rfl, ends⟩
              · exact Or.inl deeper
            case h_2 => exact Or.inl member
          rcases found with deeper | ⟨sameLength, ends⟩
          · rcases below.mp deeper with ⟨word, starts, _, reads⟩
            exact ⟨word, starts, reads⟩
          · exact ⟨[], List.nil_prefix, sameLength, ends⟩
        · rintro ⟨word, starts, sameLength, ends⟩
          by_cases empty : word = []
          · subst word
            have endsHere : trie.terminal? child = some candidate.index := ends
            rw [endsHere]
            refine List.mem_cons.mpr (Or.inl ?_)
            cases candidate
            cases sameLength
            rfl
          · have deeper := below.mpr ⟨word, starts, empty, sameLength, ends⟩
            split
            case h_1 => exact List.mem_cons_of_mem _ deeper
            case h_2 => exact deeper

/-- A walk passes shorter literals before longer ones. -/
theorem walk_ascending (trie : Trie) (parent depth : Nat) (input : Bytes) :
    (trie.walk parent depth input).Pairwise
      fun left right => left.length < right.length := by
  induction input generalizing parent depth with
  | nil => exact List.Pairwise.nil
  | cons byte rest induction =>
      rw [walk]
      split
      case h_1 => exact List.Pairwise.nil
      case h_2 child _ =>
        dsimp only
        split
        case h_1 =>
          refine List.pairwise_cons.mpr ⟨?_, induction child (depth + 1)⟩
          intro later member
          exact depth_lt_of_mem_walk member
        case h_2 => exact induction child (depth + 1)

/-- Candidates come longest first, one of each length. -/
theorem candidates_descending (trie : Trie) (input : Bytes) :
    (trie.candidates input).Pairwise
      fun left right => right.length < left.length :=
  List.pairwise_reverse.mpr (walk_ascending trie root 0 input)

/-- The candidates are the words that start the input, each at its first place. -/
theorem mem_candidates_ofLiterals {literals : List Bytes} {input : Bytes}
    {candidate : Candidate} :
    candidate ∈ (ofLiterals literals).candidates input ↔
      ∃ word, word <+: input ∧ word ≠ [] ∧
        candidate.length = word.length ∧
          literals.idxOf? word = some candidate.index := by
  rw [candidates, List.mem_reverse, mem_walk]
  refine exists_congr fun word => ?_
  refine and_congr_right fun _ => and_congr_right fun nonempty => ?_
  have held := lookup?_ofLiterals literals word
  rw [if_neg nonempty, lookup?] at held
  rw [held, Nat.zero_add]

end Trie

/-! ## Agreement of the two ways -/

namespace Matcher

@[simp]
theorem candidates_linear (literals : List Bytes) (input : Bytes) :
    (linear literals).candidates input =
      (Ranked.ofLiterals literals).candidates input :=
  rfl

@[simp]
theorem candidates_trie (literals : List Bytes) (input : Bytes) :
    (trie literals).candidates input =
      (Trie.ofLiterals literals).candidates input :=
  rfl

/-- Two literals of one length that start the same input are equal. -/
theorem eq_of_prefix_of_length_eq {left right input : Bytes}
    (leftStarts : left <+: input) (rightStarts : right <+: input)
    (sameLength : left.length = right.length) : left = right :=
  (List.prefix_of_prefix_length_le leftStarts rightStarts
    (Nat.le_of_eq sameLength)).eq_of_length sameLength

private theorem idxOf?_eq_some_iff_getElem? {literals : List Bytes}
    {word : Bytes} {index : Nat} :
    literals.idxOf? word = some index ↔
      literals[index]? = some word ∧
        ∀ earlier, literals[earlier]? = some word → index ≤ earlier := by
  rw [List.idxOf?_eq_some_iff]
  constructor
  · rintro ⟨inside, found, first⟩
    refine ⟨List.getElem?_eq_some_iff.mpr ⟨inside, found⟩, ?_⟩
    intro earlier place
    rcases List.getElem?_eq_some_iff.mp place with ⟨_, same⟩
    by_contra before
    exact first earlier (by omega) same
  · rintro ⟨place, least⟩
    rcases List.getElem?_eq_some_iff.mp place with ⟨inside, found⟩
    refine ⟨inside, found, ?_⟩
    intro earlier before same
    have notBefore := least earlier
      (List.getElem?_eq_some_iff.mpr ⟨by omega, same⟩)
    omega

/--
The candidates of a trie are those of the literals tried one by one, without
the empty ones and with only the first of each length.
-/
theorem candidates_ofLiterals_eq_firstOfEachLength
    (literals : List Bytes) (input : Bytes) :
    (Trie.ofLiterals literals).candidates input =
      Candidate.firstOfEachLength
        (((Ranked.ofLiterals literals).candidates input).filter
          fun candidate => 0 < candidate.length) := by
  have ordered := (Ranked.candidates_ordered literals input).filter
    fun candidate => 0 < candidate.length
  apply Candidate.eq_of_ordered_of_mem_iff
  · exact (Trie.candidates_descending _ input).imp Or.inl
  · exact ordered.sublist (Candidate.firstOfEachLength_sublist _)
  · intro candidate
    rw [Candidate.mem_firstOfEachLength ordered]
    simp only [Trie.mem_candidates_ofLiterals, List.mem_filter,
      Ranked.mem_candidates_ofLiterals, decide_eq_true_eq,
      idxOf?_eq_some_iff_getElem?]
    constructor
    · rintro ⟨word, starts, nonempty, sameLength, place, least⟩
      have positive := List.length_pos_iff.mpr nonempty
      refine ⟨⟨⟨word, place, sameLength, starts⟩, by omega⟩, ?_⟩
      rintro other ⟨⟨literal, otherPlace, otherLength, otherStarts⟩, _⟩ equal
      have same : literal = word :=
        eq_of_prefix_of_length_eq otherStarts starts (by omega)
      exact least other.index (same ▸ otherPlace)
    · rintro ⟨⟨⟨literal, place, sameLength, starts⟩, positive⟩, least⟩
      refine ⟨literal, starts, ?_, sameLength, place, ?_⟩
      · exact List.length_pos_iff.mp (by omega)
      · intro earlier otherPlace
        exact least ⟨earlier, literal.length⟩
          ⟨⟨literal, otherPlace, rfl, starts⟩, by dsimp only; omega⟩
          sameLength.symm

/-- If no literal is empty and none is repeated, both ways give the same candidates. -/
theorem candidates_ofLiterals_eq_ranked {literals : List Bytes}
    (nonempty : ∀ literal ∈ literals, literal ≠ [])
    (distinct : literals.Nodup) (input : Bytes) :
    (Trie.ofLiterals literals).candidates input =
      (Ranked.ofLiterals literals).candidates input := by
  apply Candidate.eq_of_ordered_of_mem_iff
  · exact (Trie.candidates_descending _ input).imp Or.inl
  · exact Ranked.candidates_ordered literals input
  · intro candidate
    rw [Trie.mem_candidates_ofLiterals, Ranked.mem_candidates_ofLiterals]
    simp only [idxOf?_eq_some_iff_getElem?]
    constructor
    · rintro ⟨word, starts, _, sameLength, place, _⟩
      exact ⟨word, place, sameLength, starts⟩
    · rintro ⟨literal, place, sameLength, starts⟩
      refine ⟨literal, starts, nonempty literal (List.mem_of_getElem? place),
        sameLength, place, ?_⟩
      intro earlier otherPlace
      rcases List.getElem?_eq_some_iff.mp place with ⟨inside, _⟩
      have same : candidate.index = earlier :=
        (List.getElem?_inj inside distinct).mp (place.trans otherPlace.symm)
      exact Nat.le_of_eq same

/--
Holding literals as a trie refines trying them one by one, whatever the
literals are: the candidates are the same but for the empty ones and for all
but the first of each length.  Literals that are distinct and not empty are
matched in the same way by both.
-/
theorem trie_refines_linear (literals : List Bytes) (input : Bytes) :
    (trie literals).candidates input =
        (((linear literals).candidates input).filter
          fun candidate => 0 < candidate.length).eraseDupsBy
            (fun left right => left.length == right.length) ∧
      ((∀ literal ∈ literals, literal ≠ []) → literals.Nodup →
        (trie literals).candidates input =
            (linear literals).candidates input ∧
          (trie literals).longest? input =
            (linear literals).longest? input) := by
  refine ⟨candidates_ofLiterals_eq_firstOfEachLength literals input, ?_⟩
  intro nonempty distinct
  have same := candidates_ofLiterals_eq_ranked nonempty distinct input
  exact ⟨same, congrArg List.head? same⟩

/-- The two ways agree on two literals, one of which starts the other: the longer one is first. -/
theorem trie_refines_linear_nested :
    (trie [[0x61], [0x61, 0x62]]).candidates [0x61, 0x62, 0x63] =
        [⟨1, 2⟩, ⟨0, 1⟩] ∧
      (linear [[0x61], [0x61, 0x62]]).candidates [0x61, 0x62, 0x63] =
        [⟨1, 2⟩, ⟨0, 1⟩] ∧
      (trie [[0x61], [0x61, 0x62]]).longest? [0x61, 0x62, 0x63] =
        some ⟨1, 2⟩ ∧
      (linear [[0x61], [0x61, 0x62]]).longest? [0x61, 0x62, 0x63] =
        some ⟨1, 2⟩ := by
  have found : (trie [[0x61], [0x61, 0x62]]).candidates [0x61, 0x62, 0x63] =
      [⟨1, 2⟩, ⟨0, 1⟩] := by
    decide +kernel
  have longest : (trie [[0x61], [0x61, 0x62]]).longest? [0x61, 0x62, 0x63] =
      some ⟨1, 2⟩ :=
    congrArg List.head? found
  rcases (trie_refines_linear [[0x61], [0x61, 0x62]] [0x61, 0x62, 0x63]).2
    (by decide) (by decide) with ⟨same, sameLongest⟩
  exact ⟨found, same.symm.trans found, longest,
    sameLongest.symm.trans longest⟩

/-! ## Candidates of a matcher -/

/-- Candidates are ordered, whatever the literals are and however they are held. -/
theorem candidates_build_ordered (literals : List Bytes) (input : Bytes) :
    ((build literals).candidates input).Pairwise Candidate.Precedes := by
  rw [build]
  split
  case isTrue => exact Ranked.candidates_ordered literals input
  case isFalse => exact (Trie.candidates_descending _ input).imp Or.inl

/-- A candidate is as long as a literal that starts the input, whatever the literals are. -/
theorem exists_literal_of_mem_candidates_build {literals : List Bytes}
    {input : Bytes} {candidate : Candidate}
    (member : candidate ∈ (build literals).candidates input) :
    ∃ literal ∈ literals, literal.length = candidate.length ∧
      literal <+: input := by
  rw [build] at member
  split at member
  case isTrue =>
    rcases Ranked.mem_candidates_ofLiterals.mp member with
      ⟨literal, place, sameLength, starts⟩
    exact ⟨literal, List.mem_of_getElem? place, sameLength.symm, starts⟩
  case isFalse =>
    rcases Trie.mem_candidates_ofLiterals.mp member with
      ⟨word, starts, _, sameLength, place⟩
    have listed : literals[candidate.index]? = some word :=
      (idxOf?_eq_some_iff_getElem?.mp place).1
    exact ⟨word, List.mem_of_getElem? listed, sameLength.symm, starts⟩

/-- Candidates of distinct literals are the literals that start the input. -/
theorem mem_candidates_build {literals : List Bytes}
    (nonempty : ∀ literal ∈ literals, literal ≠ [])
    (distinct : literals.Nodup) {input : Bytes} {candidate : Candidate} :
    candidate ∈ (build literals).candidates input ↔
      ∃ literal, literals[candidate.index]? = some literal ∧
        candidate.length = literal.length ∧ literal <+: input := by
  rw [build]
  split
  case isTrue => exact Ranked.mem_candidates_ofLiterals
  case isFalse =>
    rw [candidates_trie, candidates_ofLiterals_eq_ranked nonempty distinct]
    exact Ranked.mem_candidates_ofLiterals

/-- Candidates of distinct literals come longest first, one of each length. -/
theorem candidates_build_descending {literals : List Bytes}
    (nonempty : ∀ literal ∈ literals, literal ≠ [])
    (distinct : literals.Nodup) (input : Bytes) :
    ((build literals).candidates input).Pairwise
      fun left right => right.length < left.length := by
  rw [build]
  split
  case isTrue =>
    rw [candidates_linear,
      ← candidates_ofLiterals_eq_ranked nonempty distinct]
    exact Trie.candidates_descending _ input
  case isFalse => exact Trie.candidates_descending _ input

end Matcher

end Lexicon
