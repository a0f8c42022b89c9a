import Lexicon.Classifier
import Lexicon.Proofs.CandidateOrder

/-!
# Boundaries that allow more

A classifier takes its candidates one after another, longest first, until the
boundary accepts what follows.  With a boundary that allows the bytes of two
sets it stops where the first of the two boundaries alone would stop, so it
selects the longer of what they select.  Whether a candidate is accepted
depends on its length and on nothing else about it, so boundaries that
select candidates of one length select the same candidate.

Allowing every byte is as good as having no boundary, and allowing more bytes
never loses a candidate or makes the selected one shorter.  All this holds
for any entries, also if they repeat literals or have empty ones.
-/

namespace Lexicon

/-! ## The longer of two candidates -/

namespace Candidate

/--
The longer of what two classifiers select.  A classifier that selects nothing
comes second to one that selects a candidate.
-/
def longer? : Option Candidate → Option Candidate → Option Candidate
  | none, right => right
  | some left, none => some left
  | some left, some right =>
      if left.length < right.length then some right else some left

theorem longer?_some_left {left : Candidate} {right : Option Candidate}
    (notLonger : ∀ other, right = some other →
      other.length ≤ left.length) :
    longer? (some left) right = some left := by
  cases right with
  | none => rfl
  | some other => exact if_neg (Nat.not_lt.mpr (notLonger other rfl))

theorem longer?_some_right {left : Option Candidate} {right : Candidate}
    (shorter : ∀ other, left = some other → other.length < right.length) :
    longer? left (some right) = some right := by
  cases left with
  | none => rfl
  | some other => exact if_pos (shorter other rfl)

theorem exists_longer?_some_left (left : Candidate)
    (right : Option Candidate) :
    ∃ other, longer? (some left) right = some other ∧
      left.length ≤ other.length := by
  cases right with
  | none => exact ⟨left, rfl, Nat.le_refl _⟩
  | some right =>
      rw [longer?]
      split
      case isTrue shorter => exact ⟨right, rfl, Nat.le_of_lt shorter⟩
      case isFalse => exact ⟨left, rfl, Nat.le_refl _⟩

/-- The test looks at the length of a candidate only. -/
def ByLength (holds : Candidate → Bool) : Prop :=
  ∀ left right, left.length = right.length → holds left = holds right

section Tests

variable {candidates : List Candidate} {left right : Candidate → Bool}

/-- One search with either of two tests finds the longer of what two searches find. -/
theorem find?_or_eq_longer?
    (descending : candidates.Pairwise fun first second =>
      second.length ≤ first.length)
    (leftByLength : ByLength left) :
    candidates.find? (fun candidate => left candidate || right candidate) =
      longer? (candidates.find? left) (candidates.find? right) := by
  induction candidates with
  | nil => rfl
  | cons head rest induction =>
      rcases List.pairwise_cons.mp descending with ⟨leads, tail⟩
      have longest : ∀ other ∈ head :: rest,
          other.length ≤ head.length := by
        intro other member
        rcases List.mem_cons.mp member with rfl | later
        · exact Nat.le_refl _
        · exact leads other later
      cases leftHolds : left head with
      | true =>
          rw [List.find?_cons_of_pos (by rw [leftHolds]; rfl),
            List.find?_cons_of_pos leftHolds]
          symm
          apply longer?_some_left
          intro other found
          exact longest other (List.mem_of_find?_eq_some found)
      | false =>
          cases rightHolds : right head with
          | true =>
              rw [List.find?_cons_of_pos (by rw [rightHolds, Bool.or_true]),
                List.find?_cons_of_pos rightHolds]
              symm
              apply longer?_some_right
              intro other found
              apply Nat.lt_of_le_of_ne
              · exact longest other (List.mem_of_find?_eq_some found)
              · intro sameLength
                have holds := List.find?_some found
                rw [leftByLength other head sameLength, leftHolds] at holds
                cases holds
          | false =>
              rw [List.find?_cons_of_neg (by rw [leftHolds, rightHolds]; simp),
                List.find?_cons_of_neg (by rw [leftHolds]; simp),
                List.find?_cons_of_neg (by rw [rightHolds]; simp),
                induction tail]

/-- Searches that find candidates of one length find the same candidate. -/
theorem eq_of_find?_of_length_eq (leftByLength : ByLength left)
    (rightByLength : ByLength right) {first second : Candidate}
    (leftFound : candidates.find? left = some first)
    (rightFound : candidates.find? right = some second)
    (sameLength : first.length = second.length) : first = second := by
  have leftHolds : left second = true := by
    rw [← leftByLength first second sameLength]
    exact List.find?_some leftFound
  have rightHolds : right first = true := by
    rw [rightByLength first second sameLength]
    exact List.find?_some rightFound
  induction candidates with
  | nil => cases leftFound
  | cons head rest induction =>
      rw [List.find?_cons] at leftFound rightFound
      split at leftFound
      case h_1 =>
        cases leftFound
        rw [rightHolds] at rightFound
        exact Option.some.inj rightFound
      case h_2 leftRefuses =>
        split at rightFound
        case h_1 =>
          cases rightFound
          rw [leftHolds] at leftRefuses
          cases leftRefuses
        case h_2 => exact induction leftFound rightFound

end Tests

end Candidate

/-! ## Boundaries of unions -/

namespace Boundary

theorem accepts_union (left right : ByteSet) (rest : Bytes) :
    accepts ⟨left.union right⟩ rest =
      (accepts ⟨left⟩ rest || accepts ⟨right⟩ rest) := by
  cases rest with
  | nil => rfl
  | cons byte rest => exact ByteSet.contains_union left right byte

theorem accepts_of_forall_contains {full : ByteSet}
    (holdsAll : ∀ byte, full.contains byte = true) (rest : Bytes) :
    accepts ⟨full⟩ rest = true := by
  cases rest with
  | nil => rfl
  | cons byte rest => exact holdsAll byte

end Boundary

theorem ByteSet.union_eq_right {small large : ByteSet}
    (within : ∀ byte, small.contains byte = true →
      large.contains byte = true) :
    small.union large = large := by
  apply eq_of_contains_eq
  intro byte
  rw [contains_union]
  cases member : small.contains byte with
  | false => rfl
  | true => rw [within byte member]; rfl

/-! ## Classifiers -/

namespace Classifier

theorem admits_byLength (classifier : Classifier) (input : Bytes) :
    Candidate.ByLength (classifier.admits input) := by
  intro left right sameLength
  rw [admits, admits, sameLength]

section Entries

variable (category : Category) (entries : List Entry) (input : Bytes)

theorem select?_union (left right : ByteSet) :
    (build category entries (some ⟨left.union right⟩)).select? input =
      Candidate.longer?
        ((build category entries (some ⟨left⟩)).select? input)
        ((build category entries (some ⟨right⟩)).select? input) := by
  have either :
      (build category entries (some ⟨left.union right⟩)).admits input =
        fun candidate =>
          (build category entries (some ⟨left⟩)).admits input candidate ||
            (build category entries (some ⟨right⟩)).admits input
              candidate := by
    funext candidate
    exact Boundary.accepts_union left right _
  have ordered := Matcher.candidates_build_ordered
    (entries.map Entry.literal) input
  rw [select?, either]
  apply Candidate.find?_or_eq_longer?
  · exact ordered.imp Candidate.Precedes.length_le
  · exact admits_byLength _ input

/-- A boundary that allows every byte accepts every candidate. -/
theorem select?_full {full : ByteSet}
    (holdsAll : ∀ byte, full.contains byte = true) :
    (build category entries (some ⟨full⟩)).select? input =
      (build category entries none).select? input := by
  have every : (build category entries (some ⟨full⟩)).admits input =
      (build category entries none).admits input := by
    funext candidate
    exact Boundary.accepts_of_forall_contains holdsAll _
  rw [select?, every]
  rfl

/-- Allowing more bytes keeps a candidate, or selects a longer one. -/
theorem exists_select?_of_subset {small large : ByteSet}
    (within : ∀ byte, small.contains byte = true →
      large.contains byte = true)
    {candidate : Candidate}
    (selected : (build category entries (some ⟨small⟩)).select? input =
      some candidate) :
    ∃ other,
      (build category entries (some ⟨large⟩)).select? input = some other ∧
        candidate.length ≤ other.length := by
  have joined := select?_union category entries input small large
  rw [ByteSet.union_eq_right within, selected] at joined
  rw [joined]
  exact Candidate.exists_longer?_some_left candidate _

end Entries

/--
Boundaries act on classification as their sets do.  For any entries and any
input, the boundary of a union selects the longer of what the two boundaries
select, which is the same candidate if both are equally long.  Having no
boundary selects the longest match, and so does a boundary that allows every
byte.  Allowing more bytes never loses a candidate and never makes the
selected one shorter.
-/
theorem union_selects_longer (category : Category) (entries : List Entry)
    (input : Bytes) :
    (∀ left right : ByteSet,
      (build category entries (some ⟨left.union right⟩)).select? input =
          Candidate.longer?
            ((build category entries (some ⟨left⟩)).select? input)
            ((build category entries (some ⟨right⟩)).select? input) ∧
        ∀ first second,
          (build category entries (some ⟨left⟩)).select? input =
            some first →
          (build category entries (some ⟨right⟩)).select? input =
            some second →
          first.length = second.length → first = second) ∧
      (build category entries none).select? input =
        (Matcher.build (entries.map Entry.literal)).longest? input ∧
      (∀ full : ByteSet, (∀ byte, full.contains byte = true) →
        (build category entries none).select? input =
          (build category entries (some ⟨full⟩)).select? input) ∧
      ∀ small large : ByteSet,
        (∀ byte, small.contains byte = true →
          large.contains byte = true) →
        ∀ candidate,
          (build category entries (some ⟨small⟩)).select? input =
            some candidate →
          ∃ other,
            (build category entries (some ⟨large⟩)).select? input =
              some other ∧ candidate.length ≤ other.length := by
  refine ⟨?_, select?_eq_longest? rfl input, ?_, ?_⟩
  · intro left right
    refine ⟨select?_union category entries input left right, ?_⟩
    intro first second leftSelected rightSelected sameLength
    exact Candidate.eq_of_find?_of_length_eq (admits_byLength _ input)
      (admits_byLength _ input) leftSelected rightSelected sameLength
  · intro full holdsAll
    exact (select?_full category entries input holdsAll).symm
  · intro small large within candidate selected
    exact exists_select?_of_subset category entries input within selected

/--
Before `a-b` and a space, a boundary that allows spaces selects the whole of
`a-b` and one that allows hyphens falls back to `a`.  Allowing both selects
the longer one, as allowing everything does.
-/
theorem union_selects_longer_hyphen :
    ∃ entries : List Entry,
      entries = [⟨.keyword, "a", [0x61], none⟩,
        ⟨.keyword, "a-b", [0x61, 0x2D, 0x62], none⟩] ∧
      (build .keyword entries (some ⟨ByteSet.ofBytes [0x20]⟩)).select?
        [0x61, 0x2D, 0x62, 0x20] = some ⟨1, 3⟩ ∧
      (build .keyword entries (some ⟨ByteSet.ofBytes [0x2D]⟩)).select?
        [0x61, 0x2D, 0x62, 0x20] = some ⟨0, 1⟩ ∧
      (build .keyword entries (some ⟨(ByteSet.ofBytes [0x20]).union
        (ByteSet.ofBytes [0x2D])⟩)).select? [0x61, 0x2D, 0x62, 0x20] =
          some ⟨1, 3⟩ ∧
      (build .keyword entries none).select? [0x61, 0x2D, 0x62, 0x20] =
        (build .keyword entries
          (some ⟨ByteSet.ofBytes Byte.all⟩)).select?
            [0x61, 0x2D, 0x62, 0x20] ∧
      (∀ longest,
        (build .keyword entries none).select? [0x61, 0x2D, 0x62, 0x20] =
          some longest → longest.length = 3 → ⟨1, 3⟩ = longest) ∧
      ∃ other, (build .keyword entries
        (some ⟨ByteSet.ofBytes [0x09, 0x2D]⟩)).select?
          [0x61, 0x2D, 0x62, 0x20] = some other ∧ 1 ≤ other.length := by
  have found : (Matcher.build [[0x61], [0x61, 0x2D, 0x62]]).candidates
      [0x61, 0x2D, 0x62, 0x20] = [⟨1, 3⟩, ⟨0, 1⟩] := by
    simp [Matcher.build, Matcher.trieThreshold, Ranked.candidates,
      Ranked.ofLiterals, List.mergeSort, Ranked.precedes]
  have spaces : (build .keyword [⟨.keyword, "a", [0x61], none⟩,
      ⟨.keyword, "a-b", [0x61, 0x2D, 0x62], none⟩]
        (some ⟨ByteSet.ofBytes [0x20]⟩)).select?
          [0x61, 0x2D, 0x62, 0x20] = some ⟨1, 3⟩ :=
    (congrArg (List.find? _) found).trans rfl
  have hyphens : (build .keyword [⟨.keyword, "a", [0x61], none⟩,
      ⟨.keyword, "a-b", [0x61, 0x2D, 0x62], none⟩]
        (some ⟨ByteSet.ofBytes [0x2D]⟩)).select?
          [0x61, 0x2D, 0x62, 0x20] = some ⟨0, 1⟩ :=
    (congrArg (List.find? _) found).trans rfl
  rcases union_selects_longer .keyword
      [⟨.keyword, "a", [0x61], none⟩,
        ⟨.keyword, "a-b", [0x61, 0x2D, 0x62], none⟩]
      [0x61, 0x2D, 0x62, 0x20] with ⟨unions, _, everything, larger⟩
  have every : ∀ byte, (ByteSet.ofBytes Byte.all).contains byte = true := by
    simp
  refine ⟨_, rfl, spaces, hyphens, ?_, everything _ every, ?_, ?_⟩
  · rw [(unions _ _).1, spaces, hyphens]
    rfl
  · intro longest selected sameLength
    rw [everything _ every] at selected
    exact (unions _ _).2 _ _ spaces selected sameLength.symm
  · apply larger (ByteSet.ofBytes [0x2D]) _ _ _ hyphens
    simp

end Classifier

end Lexicon
