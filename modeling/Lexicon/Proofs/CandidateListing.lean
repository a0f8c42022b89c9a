import Lexicon.Proofs.CandidateOrder
import Mathlib.Data.List.Nodup

/-!
# Literals tried one by one

A list of literals may hold empty and repeated ones.  Trying them one by one
gives a candidate for every place whose literal starts the input, each of
them once, and nothing else.  Longer candidates come first, and of equally
long ones the one with the earlier place.  No other list of candidates is
like that, so this is all there is to say about the candidates.

The ranking compares places where lengths are equal.  A stable sort keeps
equally long literals in the order in which they are listed, so comparing the
lengths alone would rank them in the same way.
-/

namespace Lexicon

/-! ## What the candidates are -/

/--
The list holds the candidate of every literal that starts the input, once
each and nothing else, in order.
-/
structure Candidate.Listing (literals : List Bytes) (input : Bytes)
    (list : List Candidate) : Prop where
  once : ∀ index literal, literals[index]? = some literal →
    literal <+: input → list.count ⟨index, literal.length⟩ = 1
  nothing_else : ∀ candidate ∈ list, ∃ literal,
    literals[candidate.index]? = some literal ∧
      candidate.length = literal.length ∧ literal <+: input
  ordered : list.Pairwise Candidate.Precedes

namespace Candidate

/-- The head of an ordered list is the member that precedes all others. -/
theorem head?_eq_some_iff_of_ordered {list : List Candidate}
    (ordered : list.Pairwise Precedes) {candidate : Candidate} :
    list.head? = some candidate ↔
      candidate ∈ list ∧
        ∀ other ∈ list, other = candidate ∨ candidate.Precedes other := by
  cases list with
  | nil => simp
  | cons first rest =>
      rcases List.pairwise_cons.mp ordered with ⟨leads, _⟩
      constructor
      · intro found
        cases found
        refine ⟨List.mem_cons_self, ?_⟩
        intro other member
        exact (List.mem_cons.mp member).imp_right (leads other)
      · rintro ⟨member, least⟩
        rcases List.mem_cons.mp member with rfl | later
        · rfl
        · rcases least first List.mem_cons_self with rfl | before
          · rfl
          · exact absurd before (precedes_asymm (leads candidate later))

namespace Listing

variable {literals : List Bytes} {input : Bytes} {list : List Candidate}

theorem mem_iff (listing : Listing literals input list)
    {candidate : Candidate} :
    candidate ∈ list ↔ ∃ literal,
      literals[candidate.index]? = some literal ∧
        candidate.length = literal.length ∧ literal <+: input := by
  constructor
  · exact listing.nothing_else candidate
  · rintro ⟨literal, place, sameLength, starts⟩
    have once := listing.once candidate.index literal place starts
    rw [← sameLength] at once
    exact List.count_pos_iff.mp (once ▸ Nat.zero_lt_one)

/-- There is only one such list. -/
theorem unique {other : List Candidate}
    (listing : Listing literals input list)
    (otherListing : Listing literals input other) : list = other := by
  apply eq_of_ordered_of_mem_iff listing.ordered otherListing.ordered
  intro candidate
  rw [listing.mem_iff, otherListing.mem_iff]

end Listing

end Candidate

/-! ## The ranking -/

namespace Ranked

/-- The candidates of ranked literals are those of the literals that start the input. -/
theorem listing_candidates (literals : List Bytes) (input : Bytes) :
    Candidate.Listing literals input
      ((ofLiterals literals).candidates input) where
  once := by
    intro index literal place starts
    apply List.count_eq_one_of_mem
    · exact Candidate.nodup_of_ordered (candidates_ordered literals input)
    · exact mem_candidates_ofLiterals.mpr ⟨literal, place, rfl, starts⟩
  nothing_else := by
    intro candidate member
    exact mem_candidates_ofLiterals.mp member
  ordered := candidates_ordered literals input

/-- The first literal is at least as long. -/
def notShorter (left right : Bytes × Nat) : Bool :=
  right.1.length ≤ left.1.length

/-- Ranking decides by the length, and by the place where that is equal. -/
theorem zipIdxLE_notShorter (left right : (Bytes × Nat) × Nat)
    (leftPlace : left.2 = left.1.2) (rightPlace : right.2 = right.1.2) :
    List.zipIdxLE notShorter left right = precedes left.1 right.1 := by
  rw [Bool.eq_iff_iff]
  simp only [List.zipIdxLE, notShorter, precedes, leftPlace, rightPlace,
    Bool.or_eq_true, Bool.and_eq_true, beq_iff_eq, decide_eq_true_eq]
  split
  case isTrue longer =>
    split
    case isTrue shorter =>
      rw [decide_eq_true_eq]
      omega
    case isFalse => exact iff_of_true rfl (by omega)
  case isFalse => exact iff_of_false Bool.false_ne_true (by omega)

/-- The ranking is what a stable sort by the length alone gives. -/
theorem items_ofLiterals (literals : List Bytes) :
    (ofLiterals literals).items =
      literals.zipIdx.mergeSort notShorter := by
  -- Every pair holds its place already, so numbering the pairs adds nothing.
  have places : ∀ item ∈ literals.zipIdx.zipIdx, item.2 = item.1.2 := by
    rintro ⟨⟨literal, place⟩, number⟩ member
    have numbered := List.mk_mem_zipIdx_iff_getElem?.mp member
    rw [List.getElem?_zipIdx, Nat.zero_add] at numbered
    rcases Option.map_eq_some_iff.mp numbered with ⟨_, _, same⟩
    exact congrArg Prod.snd same
  calc
    (ofLiterals literals).items =
        (literals.zipIdx.zipIdx.map Prod.fst).mergeSort precedes := by
      rw [List.zipIdx_map_fst, ofLiterals]
    _ = (literals.zipIdx.zipIdx.mergeSort
          (List.zipIdxLE notShorter)).map Prod.fst := by
      symm
      apply List.map_mergeSort
      intro left leftMember right rightMember
      exact zipIdxLE_notShorter left right (places left leftMember)
        (places right rightMember)
    _ = literals.zipIdx.mergeSort notShorter := List.mergeSort_zipIdx

end Ranked

/-! ## Lengths -/

namespace Matcher

theorem greatestLength_eq_max? (literals : List Bytes) :
    greatestLength literals = (literals.map List.length).max?.getD 0 := by
  calc
    greatestLength literals = (literals.map List.length).foldl max 0 :=
      List.foldl_map.symm
    _ = (literals.map List.length).max?.getD 0 := by
      rw [List.foldl_max, Nat.zero_max]

theorem length_le_greatestLength {literals : List Bytes} {literal : Bytes}
    (member : literal ∈ literals) :
    literal.length ≤ greatestLength literals := by
  rw [greatestLength_eq_max?]
  exact List.le_max?_getD_of_mem (List.mem_map_of_mem member)

/-! ## The matcher -/

/--
Trying literals one by one, whatever they are.  The candidates are those of
the places whose literals start the input, each once and nothing else, from
the longest to the shortest and by ascending place where they are equally
long; they are the only list of that kind, and the one that a stable sort by
length gives.  The longest match is their head, which precedes all others,
and there is none if no literal starts the input.  No candidate is longer
than the longest literal or than the input.
-/
theorem candidates_linear_listing (literals : List Bytes) (input : Bytes) :
    Candidate.Listing literals input ((linear literals).candidates input) ∧
      (∀ list, Candidate.Listing literals input list →
        list = (linear literals).candidates input) ∧
      (linear literals).candidates input =
        ((literals.zipIdx.mergeSort Ranked.notShorter).filter
          fun item => item.1.isPrefixOf input).map
            (fun item => ⟨item.2, item.1.length⟩) ∧
      (linear literals).longest? input =
        ((linear literals).candidates input).head? ∧
      (∀ candidate, (linear literals).longest? input = some candidate ↔
        candidate ∈ (linear literals).candidates input ∧
          ∀ other ∈ (linear literals).candidates input,
            other = candidate ∨ candidate.Precedes other) ∧
      ((linear literals).longest? input = none ↔
        ∀ literal ∈ literals, ¬ literal <+: input) ∧
      ∀ candidate ∈ (linear literals).candidates input,
        candidate.length ≤ (linear literals).longestLiteral ∧
          candidate.length ≤ input.length := by
  have listing := Ranked.listing_candidates literals input
  refine ⟨listing, fun _ other => other.unique listing, ?_, rfl,
    fun _ => Candidate.head?_eq_some_iff_of_ordered listing.ordered, ?_, ?_⟩
  · rw [← Ranked.items_ofLiterals]
    rfl
  · rw [longest?, List.head?_eq_none_iff, List.eq_nil_iff_forall_not_mem]
    constructor
    · intro nothing literal member starts
      rcases List.mem_iff_getElem?.mp member with ⟨index, place⟩
      exact nothing ⟨index, literal.length⟩
        (listing.mem_iff.mpr ⟨literal, place, rfl, starts⟩)
    · intro nothing candidate member
      rcases listing.mem_iff.mp member with ⟨literal, place, _, starts⟩
      exact nothing literal (List.mem_of_getElem? place) starts
  · intro candidate member
    rcases listing.mem_iff.mp member with
      ⟨literal, place, sameLength, starts⟩
    rw [sameLength]
    exact ⟨length_le_greatestLength (List.mem_of_getElem? place),
      starts.length_le⟩

/-- The empty literal is a candidate, and so are both places of a repeated one. -/
theorem candidates_linear_listing_repeated :
    (linear [[], [0x61], [0x61, 0x62], [0x61]]).candidates
        [0x61, 0x62, 0x63] = [⟨2, 2⟩, ⟨1, 1⟩, ⟨3, 1⟩, ⟨0, 0⟩] ∧
      ((linear [[], [0x61], [0x61, 0x62], [0x61]]).candidates
        [0x61, 0x62, 0x63]).count ⟨3, 1⟩ = 1 ∧
      2 ≤ (linear [[], [0x61], [0x61, 0x62], [0x61]]).longestLiteral := by
  have explicit : Candidate.Listing [[], [0x61], [0x61, 0x62], [0x61]]
      [0x61, 0x62, 0x63] [⟨2, 2⟩, ⟨1, 1⟩, ⟨3, 1⟩, ⟨0, 0⟩] := by
    refine ⟨?_, by simp, by simp [Candidate.Precedes]⟩
    intro index literal place _
    match index, place with
    | 0, rfl => rfl
    | 1, rfl => rfl
    | 2, rfl => rfl
    | 3, rfl => rfl
  rcases candidates_linear_listing [[], [0x61], [0x61, 0x62], [0x61]]
      [0x61, 0x62, 0x63] with ⟨listing, only, _, _, _, _, bounds⟩
  have found := (only _ explicit).symm
  refine ⟨found, listing.once 3 [0x61] rfl (by decide), ?_⟩
  exact (bounds ⟨2, 2⟩ (by rw [found]; exact List.mem_cons_self)).1

end Matcher

end Lexicon
