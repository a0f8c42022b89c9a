import Lexicon.Proofs.EdgeSearch
import Mathlib.Data.List.Induction

/-!
# What a trie holds

A trie is built by adding nodes and by letting literals end at nodes.  The
nodes form a tree below the root: every edge leads to a node with a greater
number, and no node is the end of two edges.  Hence a node is the end of one
word only, and letting a literal end there changes what the trie holds for
that word and for no other.

The main statement is that the trie of a list of literals holds, for every
word that is not empty, the first place of the word in the list.
-/

namespace Lexicon.Trie

/-! ## The tree below the root -/

/-- The nodes form a tree, and the bytes of the edges of each node ascend. -/
structure Sound (trie : Trie) : Prop where
  /-- The node that stands for the root has no edge and no literal. -/
  bare : trie.nodes[root]? = some {}
  ascending : ∀ node ∈ trie.nodes, Node.Ascending node.edges
  /-- An edge leads to a greater number. -/
  forward : ∀ {parent byte child}, trie.child? parent byte = some child →
    parent < child ∧ child < trie.nodes.size
  /-- No node is the end of two edges. -/
  single : ∀ {parent byte parent' byte' child},
    trie.child? parent byte = some child →
      trie.child? parent' byte' = some child → parent = parent' ∧ byte = byte'
  /-- Every node other than the root is the end of an edge. -/
  attached : ∀ {number}, root < number → number < trie.nodes.size →
    ∃ parent byte, trie.child? parent byte = some number

theorem Sound.root_lt {trie : Trie} (sound : trie.Sound) :
    root < trie.nodes.size := by
  rcases Array.getElem?_eq_some_iff.mp sound.bare with ⟨present, _⟩
  exact present

/-- A number without a node has no edges. -/
theorem Sound.child?_eq_none {trie : Trie} (sound : trie.Sound)
    {parent : Nat} (outside : trie.nodes.size ≤ parent) (byte : UInt8) :
    trie.child? parent byte = none := by
  have present := sound.root_lt
  have below : parent ≠ root := by omega
  rw [child?, if_neg below, Array.getElem?_eq_none outside, Option.bind_none]

theorem child?_empty (parent : Nat) (byte : UInt8) :
    empty.child? parent byte = none := by
  rw [child?]
  split
  case isTrue => simp [head?, slot, empty, Vector.get]
  case isFalse below =>
    have outside : (empty.nodes).size ≤ parent := by
      have : (empty.nodes).size = 1 := rfl
      have : root = 0 := rfl
      omega
    rw [Array.getElem?_eq_none outside, Option.bind_none]

theorem sound_empty : empty.Sound where
  bare := rfl
  ascending := by
    intro node member
    have : node = {} := by simpa [empty] using member
    rw [this]
    exact List.Pairwise.nil
  forward := by
    intro parent byte child edge
    rw [child?_empty] at edge
    cases edge
  single := by
    intro parent byte parent' byte' child edge
    rw [child?_empty] at edge
    cases edge
  attached := by
    intro number below present
    have : (empty.nodes).size = 1 := rfl
    have : root = 0 := rfl
    omega

/-! ## Adding a node -/

theorem size_grow (trie : Trie) (parent : Nat) (byte : UInt8) :
    (trie.grow parent byte).nodes.size = trie.nodes.size + 1 := by
  unfold grow
  split
  case isTrue => simp
  case isFalse => simp

theorem getElem?_nodes_grow (trie : Trie) (parent : Nat) (byte : UInt8)
    (number : Nat) :
    (trie.grow parent byte).nodes[number]? =
      if number = trie.nodes.size then some {}
      else if number = parent ∧ parent ≠ root then
        trie.nodes[number]?.map fun node => node.addEdge byte trie.nodes.size
      else trie.nodes[number]? := by
  by_cases atRoot : parent = root
  · simp [grow, atRoot, Array.getElem?_push]
  · simp [grow, atRoot, Array.getElem?_push, Array.getElem?_modify, eq_comm]

private theorem slot_eq_getElem (trie : Trie) (byte : UInt8) :
    trie.slot byte = getElem trie.heads byte.toNat byte.toNat_lt :=
  rfl

theorem slot_grow (trie : Trie) (parent : Nat) (byte other : UInt8) :
    (trie.grow parent byte).slot other =
      if parent = root ∧ other = byte then trie.nodes.size
      else trie.slot other := by
  by_cases atRoot : parent = root
  · rw [slot_eq_getElem, slot_eq_getElem]
    simp [grow, atRoot, Vector.getElem_set, UInt8.toNat_inj, eq_comm]
  · simp [grow, slot, atRoot]

/-- A new edge of the root is told from none, since its number is not the root's. -/
theorem Sound.head?_grow {trie : Trie} (sound : trie.Sound) (parent : Nat)
    (byte other : UInt8) :
    (trie.grow parent byte).head? other =
      if parent = root ∧ other = byte then some trie.nodes.size
      else trie.head? other := by
  have notRoot : trie.nodes.size ≠ root := (Nat.ne_of_lt sound.root_lt).symm
  rw [head?, slot_grow]
  by_cases new : parent = root ∧ other = byte
  · rw [if_pos new, if_pos new, if_neg notRoot]
  · rw [if_neg new, if_neg new, head?]

/-- Adding a node adds its edge and no other. -/
theorem Sound.child?_grow {trie : Trie} (sound : trie.Sound)
    {parent : Nat} {byte : UInt8} (present : parent < trie.nodes.size)
    (absent : trie.child? parent byte = none) (other : Nat) (next : UInt8) :
    (trie.grow parent byte).child? other next =
      if other = parent ∧ next = byte then some trie.nodes.size
      else trie.child? other next := by
  by_cases atRoot : other = root
  · subst other
    rw [child?, if_pos rfl, child?, if_pos rfl, sound.head?_grow]
    simp only [eq_comm]
  · rw [child?, if_neg atRoot, getElem?_nodes_grow]
    by_cases fresh : other = trie.nodes.size
    · have elsewhere : other ≠ parent := by omega
      rw [if_pos fresh, if_neg (fun both => elsewhere both.1),
        sound.child?_eq_none (Nat.le_of_eq fresh.symm)]
      rfl
    · rw [if_neg fresh]
      by_cases same : other = parent
      · subst other
        rw [child?, if_neg atRoot] at absent ⊢
        cases found : trie.nodes[parent]? with
        | none =>
            rw [Array.getElem?_eq_none_iff] at found
            omega
        | some node =>
            rw [found, Option.bind_some] at absent
            have ascending :=
              sound.ascending node (Array.mem_of_getElem? found)
            simp [atRoot, Node.child?_addEdge ascending absent]
      · rw [if_neg (fun both => same both.1), if_neg (fun both => same both.1),
          child?, if_neg atRoot]

/-- Adding a node at the end of a new edge keeps the tree sound. -/
theorem Sound.grow {trie : Trie} (sound : trie.Sound)
    {parent : Nat} {byte : UInt8} (present : parent < trie.nodes.size)
    (absent : trie.child? parent byte = none) :
    (trie.grow parent byte).Sound where
  bare := by
    have rooted := sound.root_lt
    have old : root ≠ trie.nodes.size := by omega
    rw [getElem?_nodes_grow, if_neg old, if_neg, sound.bare]
    rintro ⟨atRoot, notRoot⟩
    exact notRoot atRoot.symm
  ascending := by
    intro node member
    rcases Array.mem_iff_getElem?.mp member with ⟨number, place⟩
    rw [getElem?_nodes_grow] at place
    split at place
    case isTrue =>
      cases place
      exact List.Pairwise.nil
    case isFalse =>
      split at place
      case isTrue extended =>
        rcases Option.map_eq_some_iff.mp place with ⟨old, found, rfl⟩
        have inside : old ∈ trie.nodes := Array.mem_of_getElem? found
        rw [child?, if_neg extended.2, ← extended.1, found,
          Option.bind_some] at absent
        exact Node.ascending_addEdge (sound.ascending old inside) absent
          trie.nodes.size
      case isFalse =>
        exact sound.ascending node (Array.mem_of_getElem? place)
  forward := by
    intro owner label child edge
    rw [sound.child?_grow present absent] at edge
    rw [size_grow]
    split at edge
    case isTrue added =>
      cases edge
      omega
    case isFalse =>
      have old := sound.forward edge
      omega
  single := by
    intro left leftByte right rightByte child leftEdge rightEdge
    rw [sound.child?_grow present absent] at leftEdge rightEdge
    split at leftEdge
    case isTrue leftAdded =>
      split at rightEdge
      case isTrue rightAdded =>
        exact ⟨leftAdded.1.trans rightAdded.1.symm,
          leftAdded.2.trans rightAdded.2.symm⟩
      case isFalse =>
        have old := sound.forward rightEdge
        cases leftEdge
        omega
    case isFalse =>
      split at rightEdge
      case isTrue =>
        have old := sound.forward leftEdge
        cases rightEdge
        omega
      case isFalse => exact sound.single leftEdge rightEdge
  attached := by
    intro number below inside
    rw [size_grow] at inside
    by_cases fresh : number = trie.nodes.size
    · refine ⟨parent, byte, ?_⟩
      rw [sound.child?_grow present absent, if_pos ⟨rfl, rfl⟩, fresh]
    · rcases sound.attached below (by omega) with ⟨owner, label, edge⟩
      refine ⟨owner, label, ?_⟩
      rw [sound.child?_grow present absent, if_neg, edge]
      rintro ⟨rfl, rfl⟩
      rw [absent] at edge
      cases edge

theorem terminal?_grow {trie : Trie} (parent : Nat) (byte : UInt8)
    (number : Nat) :
    (trie.grow parent byte).terminal? number = trie.terminal? number := by
  rw [terminal?, terminal?, getElem?_nodes_grow]
  split
  case isTrue fresh =>
    rw [Array.getElem?_eq_none (Nat.le_of_eq fresh.symm)]
    rfl
  case isFalse =>
    split
    case isTrue =>
      cases trie.nodes[number]? with
      | none => rfl
      | some node => exact node.terminal_addEdge byte _
    case isFalse => rfl

/-! ## Letting a literal end -/

theorem getElem?_nodes_mark (trie : Trie) (number index other : Nat) :
    (trie.mark number index).nodes[other]? =
      if number = other then
        trie.nodes[other]?.map fun node => node.mark index
      else trie.nodes[other]? :=
  Array.getElem?_modify

/-- Where literals end has no bearing on the edges. -/
theorem child?_mark (trie : Trie) (number index parent : Nat)
    (byte : UInt8) :
    (trie.mark number index).child? parent byte =
      trie.child? parent byte := by
  rw [child?, child?]
  split
  case isTrue => rfl
  case isFalse =>
    rw [getElem?_nodes_mark]
    split
    case isTrue =>
      cases trie.nodes[parent]? with
      | none => rfl
      | some node => rfl
    case isFalse => rfl

/-- A literal ends at a node unless another one already does. -/
theorem terminal?_mark {trie : Trie} {number : Nat}
    (present : number < trie.nodes.size) (index other : Nat) :
    (trie.mark number index).terminal? other =
      if other = number then (trie.terminal? other).or (some index)
      else trie.terminal? other := by
  rw [terminal?, terminal?, getElem?_nodes_mark]
  by_cases same : other = number
  · subst other
    rw [if_pos rfl, if_pos rfl, Array.getElem?_eq_getElem present]
    rfl
  · rw [if_neg (Ne.symm same), if_neg same]

/-- Letting a literal end below the root keeps the tree sound. -/
theorem Sound.mark {trie : Trie} (sound : trie.Sound) {number : Nat}
    (below : number ≠ root) (index : Nat) :
    (trie.mark number index).Sound where
  bare := by
    rw [getElem?_nodes_mark, if_neg below, sound.bare]
  ascending := by
    intro node member
    rcases Array.mem_iff_getElem?.mp member with ⟨place, found⟩
    rw [getElem?_nodes_mark] at found
    split at found
    case isTrue =>
      rcases Option.map_eq_some_iff.mp found with ⟨old, present, rfl⟩
      exact sound.ascending old (Array.mem_of_getElem? present)
    case isFalse =>
      exact sound.ascending node (Array.mem_of_getElem? found)
  forward := by
    intro parent byte child edge
    rw [child?_mark] at edge
    rw [Trie.mark, Array.size_modify]
    exact sound.forward edge
  single := by
    intro left leftByte right rightByte child leftEdge rightEdge
    rw [child?_mark] at leftEdge rightEdge
    exact sound.single leftEdge rightEdge
  attached := by
    intro other above inside
    rw [Trie.mark, Array.size_modify] at inside
    rcases sound.attached above inside with ⟨parent, byte, edge⟩
    refine ⟨parent, byte, ?_⟩
    rw [child?_mark, edge]

/-! ## Words from the root -/

/-- The node at the end of a word that is spelled out below a node. -/
def descend? (trie : Trie) (parent : Nat) : Bytes → Option Nat
  | [] => some parent
  | byte :: rest =>
      (trie.child? parent byte).bind fun child => trie.descend? child rest

/-- The place of the literal that is spelled out from the root. -/
def lookup? (trie : Trie) (word : Bytes) : Option Nat :=
  (trie.descend? root word).bind trie.terminal?

theorem descend?_append (trie : Trie) (parent : Nat) (left right : Bytes) :
    trie.descend? parent (left ++ right) =
      (trie.descend? parent left).bind fun middle =>
        trie.descend? middle right := by
  induction left generalizing parent with
  | nil => rfl
  | cons byte rest induction =>
      rw [List.cons_append, descend?, descend?]
      cases trie.child? parent byte with
      | none => rfl
      | some child => exact induction child

theorem descend?_snoc (trie : Trie) (parent : Nat) (word : Bytes)
    (byte : UInt8) :
    trie.descend? parent (word ++ [byte]) =
      (trie.descend? parent word).bind fun last => trie.child? last byte := by
  simp [descend?_append, descend?]

theorem descend?_of_child? {trie : Trie} {path : Bytes}
    {parent child : Nat} {byte : UInt8}
    (reached : trie.descend? root path = some parent)
    (edge : trie.child? parent byte = some child) :
    trie.descend? root (path ++ [byte]) = some child := by
  rw [descend?_snoc, reached, Option.bind_some, edge]

theorem Sound.descend?_lt {trie : Trie} (sound : trie.Sound)
    {word : Bytes} {number : Nat}
    (reached : trie.descend? root word = some number) :
    number < trie.nodes.size := by
  cases word using List.reverseRecOn with
  | nil =>
      cases reached
      exact sound.root_lt
  | append_singleton word byte =>
      rw [descend?_snoc] at reached
      rcases Option.bind_eq_some_iff.mp reached with ⟨last, _, edge⟩
      exact (sound.forward edge).2

/-- A node is the end of one word only. -/
theorem Sound.descend?_injective {trie : Trie} (sound : trie.Sound)
    {left right : Bytes} {number : Nat}
    (leftReached : trie.descend? root left = some number)
    (rightReached : trie.descend? root right = some number) :
    left = right := by
  induction left using List.reverseRecOn generalizing right number with
  | nil =>
      cases leftReached
      cases right using List.reverseRecOn with
      | nil => rfl
      | append_singleton right byte =>
          rw [descend?_snoc] at rightReached
          rcases Option.bind_eq_some_iff.mp rightReached with ⟨last, _, edge⟩
          have upward := (sound.forward edge).1
          exact absurd upward (Nat.not_lt_zero last)
  | append_singleton left leftByte induction =>
      rw [descend?_snoc] at leftReached
      rcases Option.bind_eq_some_iff.mp leftReached with
        ⟨leftLast, leftInner, leftEdge⟩
      cases right using List.reverseRecOn with
      | nil =>
          cases rightReached
          have upward := (sound.forward leftEdge).1
          exact absurd upward (Nat.not_lt_zero leftLast)
      | append_singleton right rightByte =>
          rw [descend?_snoc] at rightReached
          rcases Option.bind_eq_some_iff.mp rightReached with
            ⟨rightLast, rightInner, rightEdge⟩
          rcases sound.single leftEdge rightEdge with ⟨rfl, rfl⟩
          rw [induction leftInner rightInner]

theorem Sound.number_eq_iff {trie : Trie} (sound : trie.Sound)
    {left right : Bytes} {leftNumber rightNumber : Nat}
    (leftReached : trie.descend? root left = some leftNumber)
    (rightReached : trie.descend? root right = some rightNumber) :
    leftNumber = rightNumber ↔ left = right := by
  constructor
  · rintro rfl
    exact sound.descend?_injective leftReached rightReached
  · rintro rfl
    exact Option.some.inj (leftReached.symm.trans rightReached)

/-- The new node is the end of one more word, and no word leads beyond it. -/
theorem Sound.descend?_grow {trie : Trie} (sound : trie.Sound)
    {path : Bytes} {parent : Nat} {byte : UInt8}
    (reached : trie.descend? root path = some parent)
    (absent : trie.child? parent byte = none) (word : Bytes) :
    (trie.grow parent byte).descend? root word =
      if word = path ++ [byte] then some trie.nodes.size
      else trie.descend? root word := by
  have present := sound.descend?_lt reached
  induction word using List.reverseRecOn with
  | nil =>
      rw [if_neg (by simp)]
      rfl
  | append_singleton word last induction =>
      rw [descend?_snoc, induction, descend?_snoc]
      by_cases new : word = path ++ [byte]
      · subst word
        have longer : path ++ [byte] ++ [last] ≠ path ++ [byte] := by simp
        have unused := sound.child?_eq_none (Nat.le_refl _) last
        rw [if_pos rfl, if_neg longer, Option.bind_some,
          sound.child?_grow present absent, unused, descend?_snoc, reached,
          Option.bind_some, absent, Option.bind_none, if_neg]
        rintro ⟨size, _⟩
        omega
      · simp only [new, if_false, List.append_singleton_inj]
        cases found : trie.descend? root word with
        | none =>
            rw [if_neg, Option.bind_none, Option.bind_none]
            rintro ⟨rfl, _⟩
            rw [reached] at found
            cases found
        | some number =>
            rw [Option.bind_some, Option.bind_some,
              sound.child?_grow present absent]
            simp only [sound.number_eq_iff found reached]

theorem Sound.descend?_grow_self {trie : Trie} (sound : trie.Sound)
    {path : Bytes} {parent : Nat} {byte : UInt8}
    (reached : trie.descend? root path = some parent)
    (absent : trie.child? parent byte = none) :
    (trie.grow parent byte).descend? root (path ++ [byte]) =
      some trie.nodes.size := by
  rw [sound.descend?_grow reached absent, if_pos rfl]

/-- Adding a node does not change what the trie holds. -/
theorem Sound.lookup?_grow {trie : Trie} (sound : trie.Sound)
    {path : Bytes} {parent : Nat} {byte : UInt8}
    (reached : trie.descend? root path = some parent)
    (absent : trie.child? parent byte = none) (word : Bytes) :
    (trie.grow parent byte).lookup? word = trie.lookup? word := by
  rw [lookup?, lookup?, sound.descend?_grow reached absent]
  have terminals : (trie.grow parent byte).terminal? = trie.terminal? :=
    funext (terminal?_grow parent byte)
  rw [terminals]
  split
  case isTrue new =>
    rw [new, descend?_snoc, reached, Option.bind_some, Option.bind_some,
      absent, Option.bind_none, terminal?,
      Array.getElem?_eq_none (Nat.le_refl _), Option.bind_none]
  case isFalse => rfl

theorem descend?_mark (trie : Trie) (number index parent : Nat)
    (word : Bytes) :
    (trie.mark number index).descend? parent word =
      trie.descend? parent word := by
  induction word generalizing parent with
  | nil => rfl
  | cons byte rest induction =>
      rw [descend?, descend?, child?_mark]
      simp only [induction]

/-- Letting a literal end at a node changes what is held for one word. -/
theorem Sound.lookup?_mark {trie : Trie} (sound : trie.Sound)
    {path : Bytes} {number : Nat}
    (reached : trie.descend? root path = some number)
    (index : Nat) (word : Bytes) :
    (trie.mark number index).lookup? word =
      if word = path then (trie.lookup? word).or (some index)
      else trie.lookup? word := by
  have present := sound.descend?_lt reached
  rw [lookup?, lookup?, descend?_mark]
  cases found : trie.descend? root word with
  | none =>
      rw [if_neg, Option.bind_none]
      · rfl
      · rintro rfl
        rw [reached] at found
        cases found
  | some other =>
      rw [Option.bind_some, Option.bind_some, terminal?_mark present]
      simp only [sound.number_eq_iff found reached]

/-! ## Inserting a literal -/

theorem Sound.insertBelow {trie : Trie} (sound : trie.Sound)
    {path : Bytes} {parent : Nat} (index : Nat) (literal : Bytes)
    (reached : trie.descend? root path = some parent)
    (nonempty : path ++ literal ≠ []) :
    (trie.insertBelow parent index literal).Sound := by
  induction literal generalizing trie path parent with
  | nil =>
      refine sound.mark ?_ index
      rintro rfl
      have atRoot : path = [] := sound.descend?_injective reached rfl
      exact nonempty (by simp [atRoot])
  | cons byte rest induction =>
      have extended : path ++ [byte] ++ rest ≠ [] := by simp
      rw [Trie.insertBelow]
      split
      case h_1 child edge =>
        exact induction sound (descend?_of_child? reached edge) extended
      case h_2 absent =>
        have grown := sound.grow (sound.descend?_lt reached) absent
        exact induction grown (sound.descend?_grow_self reached absent)
          extended

/-- Spelling out a literal changes what is held for this literal alone. -/
theorem Sound.lookup?_insertBelow {trie : Trie} (sound : trie.Sound)
    {path : Bytes} {parent : Nat} (index : Nat) (literal : Bytes)
    (reached : trie.descend? root path = some parent) (word : Bytes) :
    (trie.insertBelow parent index literal).lookup? word =
      if word = path ++ literal then (trie.lookup? word).or (some index)
      else trie.lookup? word := by
  induction literal generalizing trie path parent with
  | nil =>
      rw [List.append_nil]
      exact sound.lookup?_mark reached index word
  | cons byte rest induction =>
      have split : path ++ byte :: rest = path ++ [byte] ++ rest := by simp
      rw [Trie.insertBelow, split]
      split
      case h_1 child edge =>
        exact induction sound (descend?_of_child? reached edge)
      case h_2 absent =>
        have grown := sound.grow (sound.descend?_lt reached) absent
        rw [← sound.lookup?_grow reached absent]
        exact induction grown (sound.descend?_grow_self reached absent)

theorem Sound.insert {trie : Trie} (sound : trie.Sound)
    (literal : Bytes) (index : Nat) :
    (trie.insert literal index).Sound := by
  rw [Trie.insert]
  split
  case isTrue => exact sound
  case isFalse remains =>
    have nonempty : [] ++ literal ≠ [] := by simpa using remains
    exact sound.insertBelow index literal rfl nonempty

/-- Of equal literals the first one stays, and the others are not disturbed. -/
theorem Sound.lookup?_insert {trie : Trie} (sound : trie.Sound)
    (literal : Bytes) (index : Nat) {word : Bytes} (nonempty : word ≠ []) :
    (trie.insert literal index).lookup? word =
      if word = literal then (trie.lookup? word).or (some index)
      else trie.lookup? word := by
  rw [Trie.insert]
  split
  case isTrue empty =>
    rw [if_neg]
    rintro rfl
    exact nonempty (List.isEmpty_iff.mp empty)
  case isFalse =>
    have start : trie.descend? root [] = some root := rfl
    exact sound.lookup?_insertBelow index literal start word

/-! ## The trie of a list of literals -/

/-- Add literals with their places, one after the other. -/
def insertAll (trie : Trie) (items : List (Bytes × Nat)) : Trie :=
  items.foldl (fun trie (literal, index) => trie.insert literal index) trie

theorem Sound.insertAll {trie : Trie} (sound : trie.Sound)
    (items : List (Bytes × Nat)) : (trie.insertAll items).Sound := by
  induction items generalizing trie with
  | nil => exact sound
  | cons item rest induction =>
      exact induction (sound.insert item.1 item.2)

theorem Sound.lookup?_insertAll {trie : Trie} (sound : trie.Sound)
    (items : List (Bytes × Nat)) {word : Bytes} (nonempty : word ≠ []) :
    (trie.insertAll items).lookup? word =
      (trie.lookup? word).or (items.lookup word) := by
  induction items generalizing trie with
  | nil => exact (Option.or_none).symm
  | cons item rest induction =>
      have first := sound.lookup?_insert item.1 item.2 nonempty
      have others := induction (sound.insert item.1 item.2)
      rw [Trie.insertAll, List.foldl_cons]
      refine others.trans ?_
      rw [first, List.lookup_cons]
      by_cases same : word = item.1
      · rw [if_pos same, beq_iff_eq.mpr same, Option.or_assoc]
        rfl
      · rw [if_neg same, beq_false_of_ne same]

theorem lookup?_empty (word : Bytes) : empty.lookup? word = none := by
  cases word with
  | nil => rfl
  | cons byte rest =>
      rw [lookup?, descend?, child?_empty, Option.bind_none, Option.bind_none]

private theorem lookup_zipIdx (literals : List Bytes) (start : Nat)
    (word : Bytes) :
    (literals.zipIdx start).lookup word =
      (literals.idxOf? word).map (· + start) := by
  induction literals generalizing start with
  | nil => rfl
  | cons literal rest induction =>
      rw [List.zipIdx_cons, List.lookup_cons, List.idxOf?_cons]
      by_cases same : word = literal
      · subst same
        simp
      · rw [beq_false_of_ne same, beq_false_of_ne (Ne.symm same), induction]
        simp [Option.map_map, Function.comp_def, Nat.add_assoc, Nat.add_comm 1]

theorem sound_ofLiterals (literals : List Bytes) :
    (ofLiterals literals).Sound :=
  sound_empty.insertAll literals.zipIdx

/--
The trie of a list of literals holds the first place of every word that is
not empty.
-/
theorem lookup?_ofLiterals (literals : List Bytes) (word : Bytes) :
    (ofLiterals literals).lookup? word =
      if word = [] then none else literals.idxOf? word := by
  split
  case isTrue empty =>
    rw [empty, lookup?, descend?, Option.bind_some, terminal?,
      (sound_ofLiterals literals).bare]
    rfl
  case isFalse nonempty =>
    have held :=
      sound_empty.lookup?_insertAll literals.zipIdx nonempty
    refine held.trans ?_
    rw [lookup?_empty, Option.none_or, lookup_zipIdx]
    simp

end Lexicon.Trie
