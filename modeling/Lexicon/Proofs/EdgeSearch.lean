import Lexicon.Matcher.Trie

/-!
# Searching the edges of a node

The edges of a node are searched by halving a window of places.  Where the
bytes of the edges ascend, no edge before the window has the byte or a greater
one, and no edge after it has the byte or a smaller one.  Each step keeps
this, so that in the end a single edge tells whether the byte is there and, if
it is not, on which side of the edge it belongs.

So among ascending edges the search finds exactly the edges that there are,
and an edge that is put where the search missed it keeps the bytes ascending.
-/

namespace Lexicon.Trie.Node

/-- The bytes of the edges ascend. -/
def Ascending (edges : List (UInt8 × Nat)) : Prop :=
  edges.Pairwise fun left right => left.1 < right.1

theorem Ascending.lt_of_lt {edges : List (UInt8 × Nat)}
    (ascending : Ascending edges) {left right : Nat}
    {leftEdge rightEdge : UInt8 × Nat}
    (leftHere : edges[left]? = some leftEdge)
    (rightHere : edges[right]? = some rightEdge) (before : left < right) :
    leftEdge.1 < rightEdge.1 := by
  rcases List.getElem?_eq_some_iff.mp leftHere with ⟨leftInside, rfl⟩
  rcases List.getElem?_eq_some_iff.mp rightHere with ⟨rightInside, rfl⟩
  exact List.pairwise_iff_getElem.mp ascending left right leftInside
    rightInside before

/-- A byte is at one place at most. -/
theorem Ascending.place_unique {edges : List (UInt8 × Nat)}
    (ascending : Ascending edges) {left right : Nat}
    {leftEdge rightEdge : UInt8 × Nat}
    (leftHere : edges[left]? = some leftEdge)
    (rightHere : edges[right]? = some rightEdge)
    (same : leftEdge.1 = rightEdge.1) : left = right := by
  rcases Nat.lt_trichotomy left right with before | equal | after
  · exact absurd same
      (UInt8.ne_of_lt (ascending.lt_of_lt leftHere rightHere before))
  · exact equal
  · exact absurd same.symm
      (UInt8.ne_of_lt (ascending.lt_of_lt rightHere leftHere after))

/-! ## The window -/

/-- The byte is at no place outside a window, and belongs at none. -/
structure Window (edges : List (UInt8 × Nat)) (byte : UInt8)
    (base size : Nat) : Prop where
  inside : base + size ≤ edges.length
  below : ∀ {place edge}, place < base → edges[place]? = some edge →
    edge.1 < byte
  above : ∀ {place edge}, base + size ≤ place → edges[place]? = some edge →
    byte < edge.1

namespace Window

variable {edges : List (UInt8 × Nat)} {byte : UInt8} {base size : Nat}

theorem whole (edges : List (UInt8 × Nat)) (byte : UInt8) :
    Window edges byte 0 edges.length where
  inside := by omega
  below := by
    intro place edge before
    cases before
  above := by
    intro place edge after here
    have := (List.getElem?_eq_some_iff.mp here).1
    omega

theorem exists_edge (window : Window edges byte base size) {place : Nat}
    (before : place < base + size) : ∃ edge, edges[place]? = some edge :=
  ⟨_, List.getElem?_eq_getElem (Nat.lt_of_lt_of_le before window.inside)⟩

/-- The upper part of a window is given up if the byte is smaller than the one in the middle. -/
theorem lower (window : Window edges byte base size)
    (ascending : Ascending edges) {middle rest : Nat} {edge : UInt8 × Nat}
    (here : edges[middle]? = some edge) (smaller : byte < edge.1)
    (covers : middle ≤ base + rest) (within : rest ≤ size) :
    Window edges byte base rest where
  inside := by
    have := window.inside
    omega
  below := window.below
  above := by
    intro place other after there
    rcases Nat.lt_or_eq_of_le (Nat.le_trans covers after) with later | rfl
    · exact UInt8.lt_trans smaller (ascending.lt_of_lt here there later)
    · cases here.symm.trans there
      exact smaller

/-- The lower part is given up if the byte is not smaller than the one in the middle. -/
theorem upper (window : Window edges byte base size)
    (ascending : Ascending edges) {middle rest : Nat} {edge : UInt8 × Nat}
    (here : edges[middle]? = some edge) (notSmaller : ¬ byte < edge.1)
    (whole : middle + rest = base + size) :
    Window edges byte middle rest where
  inside := by
    have := window.inside
    omega
  below := by
    intro place other before there
    have less := ascending.lt_of_lt there here before
    exact UInt8.lt_of_lt_of_le less (UInt8.not_lt.mp notSmaller)
  above := by
    intro place other after
    exact window.above (whole ▸ after)

/-- The one edge of a window is given up if its byte is smaller. -/
theorem after (window : Window edges byte base 1) {edge : UInt8 × Nat}
    (here : edges[base]? = some edge) (greater : edge.1 < byte) :
    Window edges byte (base + 1) 0 where
  inside := window.inside
  below := by
    intro place other before there
    rcases Nat.lt_or_eq_of_le (Nat.le_of_lt_succ before) with earlier | rfl
    · exact window.below earlier there
    · cases here.symm.trans there
      exact greater
  above := window.above

/-- Halving a window leaves a window of one edge. -/
theorem narrow (window : Window edges byte base size)
    (ascending : Ascending edges) (nonempty : 0 < size) :
    Window edges byte (Node.narrow edges byte base size) 1 := by
  fun_induction Node.narrow edges byte base size with
  | case1 base size single =>
      have : size = 1 := by omega
      rwa [this] at window
  | case2 base size several middle greater induction =>
      rcases window.exists_edge (show middle < base + size by omega) with
        ⟨edge, here⟩
      have smaller : byte < edge.1 := by simpa [here] using greater
      exact induction
        (window.lower ascending here smaller (by omega) (by omega)) (by omega)
  | case3 base size several middle notGreater induction =>
      rcases window.exists_edge (show middle < base + size by omega) with
        ⟨edge, here⟩
      have notSmaller : ¬ byte < edge.1 := by simpa [here] using notGreater
      exact induction
        (window.upper ascending here notSmaller (by omega)) (by omega)

end Window

/-! ## What a search tells -/

section Search

variable {edges : List (UInt8 × Nat)} {byte : UInt8} {place : Nat}

theorem getElem?_of_search_found (found : search edges byte = .found place) :
    ∃ child, edges[place]? = some (byte, child) := by
  rw [search] at found
  split at found
  case h_1 => cases found
  case h_2 edge here =>
    split at found
    case isTrue same =>
      cases found
      exact ⟨edge.2, by rw [here, ← same]⟩
    case isFalse =>
      split at found
      case isTrue => cases found
      case isFalse => cases found

/-- Where the byte is missed, only smaller bytes come before and only greater ones after. -/
theorem window_of_search_missing (ascending : Ascending edges)
    (missing : search edges byte = .missing place) :
    Window edges byte place 0 := by
  have whole := Window.whole edges byte
  rw [search] at missing
  split at missing
  case h_1 nothing =>
    cases missing
    cases edges with
    | nil =>
        rw [Node.narrow]
        exact whole
    | cons first rest =>
        have window := whole.narrow ascending (Nat.zero_lt_succ _)
        rcases window.exists_edge (Nat.lt_succ_self _) with ⟨edge, here⟩
        cases nothing.symm.trans here
  case h_2 edge here =>
    have inside := (List.getElem?_eq_some_iff.mp here).1
    have window := whole.narrow ascending (Nat.zero_lt_of_lt inside)
    split at missing
    case isTrue => cases missing
    case isFalse differs =>
      split at missing
      case isTrue less =>
        cases missing
        exact window.after here less
      case isFalse notLess =>
        cases missing
        have smaller : byte < edge.1 :=
          UInt8.lt_of_le_of_ne (UInt8.not_lt.mp notLess) (Ne.symm differs)
        exact window.lower ascending here smaller (Nat.le_refl _)
          (Nat.zero_le _)

end Search

/-! ## Edges of a node -/

variable {node : Node} {byte : UInt8}

/-- Among ascending edges the search finds every edge, and no other. -/
theorem child?_eq_some_iff (ascending : Ascending node.edges) {child : Nat} :
    node.child? byte = some child ↔ (byte, child) ∈ node.edges := by
  rw [child?]
  cases searched : search node.edges byte with
  | found place =>
      rcases getElem?_of_search_found searched with ⟨other, here⟩
      simp only [here, Option.map_some, Option.some.injEq]
      constructor
      · rintro rfl
        exact List.mem_of_getElem? here
      · intro member
        rcases List.mem_iff_getElem?.mp member with ⟨otherPlace, there⟩
        cases ascending.place_unique here there rfl
        cases here.symm.trans there
        rfl
  | missing place =>
      have window := window_of_search_missing ascending searched
      simp only [reduceCtorEq, false_iff]
      intro member
      rcases List.mem_iff_getElem?.mp member with ⟨other, there⟩
      rcases Nat.lt_or_ge other place with before | after
      · exact UInt8.lt_irrefl byte (window.below before there)
      · exact UInt8.lt_irrefl byte (window.above after there)

/-- A new edge is put where the search missed its byte. -/
theorem exists_edges_addEdge (ascending : Ascending node.edges)
    (absent : node.child? byte = none) (child : Nat) :
    ∃ before after, node.edges = before ++ after ∧
      (node.addEdge byte child).edges = before ++ (byte, child) :: after ∧
      (∀ edge ∈ before, edge.1 < byte) ∧ ∀ edge ∈ after, byte < edge.1 := by
  rw [child?] at absent
  rw [addEdge]
  cases searched : search node.edges byte with
  | found place =>
      rcases getElem?_of_search_found searched with ⟨other, here⟩
      simp [searched, here] at absent
  | missing place =>
      have window := window_of_search_missing ascending searched
      rcases List.exists_of_modifyTailIdx (List.cons (byte, child))
          window.inside with ⟨before, after, split, rfl, inserted⟩
      refine ⟨before, after, split, inserted, ?_, ?_⟩
      · intro edge member
        rcases List.mem_iff_getElem?.mp member with ⟨position, here⟩
        have inside := (List.getElem?_eq_some_iff.mp here).1
        apply window.below inside
        rw [split, List.getElem?_append_left inside, here]
      · intro edge member
        rcases List.mem_iff_getElem?.mp member with ⟨position, here⟩
        apply window.above (Nat.le_add_right before.length position)
        rw [split, List.getElem?_append_right (Nat.le_add_right _ _),
          Nat.add_sub_cancel_left, here]

theorem mem_edges_addEdge (ascending : Ascending node.edges)
    (absent : node.child? byte = none) {child : Nat} {edge : UInt8 × Nat} :
    edge ∈ (node.addEdge byte child).edges ↔
      edge = (byte, child) ∨ edge ∈ node.edges := by
  rcases exists_edges_addEdge ascending absent child with
    ⟨before, after, split, added, _, _⟩
  rw [added, split]
  simp only [List.mem_append, List.mem_cons]
  exact or_left_comm

theorem ascending_addEdge (ascending : Ascending node.edges)
    (absent : node.child? byte = none) (child : Nat) :
    Ascending (node.addEdge byte child).edges := by
  rcases exists_edges_addEdge ascending absent child with
    ⟨before, after, split, added, smaller, greater⟩
  rw [split] at ascending
  rw [added]
  rcases List.pairwise_append.mp ascending with
    ⟨beforeAscending, afterAscending, between⟩
  refine List.pairwise_append.mpr ⟨beforeAscending,
    List.pairwise_cons.mpr ⟨greater, afterAscending⟩, ?_⟩
  intro left leftMember right rightMember
  rcases List.mem_cons.mp rightMember with rfl | rightMember
  · exact smaller left leftMember
  · exact between left leftMember right rightMember

/-- A new edge is found, and the other edges are found as before. -/
theorem child?_addEdge (ascending : Ascending node.edges)
    (absent : node.child? byte = none) (child : Nat) (other : UInt8) :
    (node.addEdge byte child).child? other =
      if other = byte then some child else node.child? other := by
  apply Option.ext
  intro found
  rw [child?_eq_some_iff (ascending_addEdge ascending absent child),
    mem_edges_addEdge ascending absent]
  by_cases same : other = byte
  · subst same
    have unused : (other, found) ∉ node.edges := by
      rw [← child?_eq_some_iff ascending, absent]
      nofun
    simp [unused, eq_comm]
  · rw [if_neg same, child?_eq_some_iff ascending]
    simp [same]

end Lexicon.Trie.Node
