import Lexicon.Proofs.TrieLookup
import Mathlib.Data.Finset.Card

/-!
# The shape of a trie

Every node of a trie but the root is held by one link, which is a slot of the
root's table or an edge of another node, so that the nodes are the words that
can be spelled out from the root.  After literals have been inserted these
words are the beginnings of the literals.  Hence the number of nodes is known,
and no number that insertion or matching looks up lacks a node.
-/

namespace Lexicon.Trie

/-! ## Links -/

/-- Where the number of a node is held: a slot of the root's table, or an edge of a node. -/
inductive Link
  | slot (byte : UInt8)
  /-- The edge at a place among the edges of a node. -/
  | edge (parent place : Nat)
deriving DecidableEq

/-- The number that a link holds. -/
def target? (trie : Trie) : Link → Option Nat
  | .slot byte => trie.head? byte
  | .edge parent place =>
      trie.nodes[parent]?.bind fun node => node.edges[place]?.map Prod.snd

theorem target?_edge_eq_some_iff {trie : Trie} {parent place number : Nat} :
    trie.target? (.edge parent place) = some number ↔
      ∃ node byte, trie.nodes[parent]? = some node ∧
        node.edges[place]? = some (byte, number) := by
  simp [target?, Option.bind_eq_some_iff]

section Links

variable {trie : Trie}

theorem child?_root (byte : UInt8) :
    trie.child? root byte = trie.target? (.slot byte) :=
  if_pos rfl

/-- The node that stands for the root has no edge. -/
theorem Sound.ne_root_of_edge (sound : trie.Sound) {parent place number : Nat}
    (held : trie.target? (.edge parent place) = some number) :
    parent ≠ root := by
  rintro rfl
  rcases target?_edge_eq_some_iff.mp held with ⟨node, byte, found, here⟩
  rw [sound.bare] at found
  cases found
  cases here

/-- An edge at its place leads where its byte does. -/
theorem Sound.child?_of_edge (sound : trie.Sound) {parent place number : Nat}
    {node : Node} {byte : UInt8} (found : trie.nodes[parent]? = some node)
    (here : node.edges[place]? = some (byte, number)) :
    trie.child? parent byte = some number := by
  have below : parent ≠ root :=
    sound.ne_root_of_edge (target?_edge_eq_some_iff.mpr ⟨node, byte, found, here⟩)
  have ascending := sound.ascending node (Array.mem_of_getElem? found)
  rw [child?, if_neg below, found, Option.bind_some,
    Node.child?_eq_some_iff ascending]
  exact List.mem_of_getElem? here

theorem Sound.exists_target? (sound : trie.Sound) {parent : Nat} {byte : UInt8}
    {number : Nat} (edge : trie.child? parent byte = some number) :
    ∃ link, trie.target? link = some number := by
  by_cases atRoot : parent = root
  · subst atRoot
    exact ⟨.slot byte, edge⟩
  · rw [child?, if_neg atRoot] at edge
    rcases Option.bind_eq_some_iff.mp edge with ⟨node, found, looked⟩
    have ascending := sound.ascending node (Array.mem_of_getElem? found)
    have member := (Node.child?_eq_some_iff ascending).mp looked
    rcases List.mem_iff_getElem?.mp member with ⟨place, here⟩
    exact ⟨.edge parent place,
      target?_edge_eq_some_iff.mpr ⟨node, byte, found, here⟩⟩

/-- An edge leads to a greater number, and to one that has a node. -/
theorem Sound.target?_edge_lt (sound : trie.Sound) {parent place number : Nat}
    (held : trie.target? (.edge parent place) = some number) :
    parent < number ∧ number < trie.nodes.size := by
  rcases target?_edge_eq_some_iff.mp held with ⟨node, byte, found, here⟩
  exact sound.forward (sound.child?_of_edge found here)

theorem Sound.target?_lt (sound : trie.Sound) {link : Link} {number : Nat}
    (held : trie.target? link = some number) :
    root < number ∧ number < trie.nodes.size := by
  cases link with
  | slot byte => exact sound.forward ((child?_root byte).trans held)
  | edge parent place =>
      have forward := sound.target?_edge_lt held
      exact ⟨Nat.zero_lt_of_lt forward.1, forward.2⟩

/-- A slot and an edge never hold the same number, because the root has no edges of its own. -/
theorem Sound.slot_ne_edge (sound : trie.Sound) {byte : UInt8}
    {parent place number : Nat} (slot : trie.target? (.slot byte) = some number) :
    trie.target? (.edge parent place) ≠ some number := by
  intro edge
  rcases target?_edge_eq_some_iff.mp edge with ⟨node, label, found, here⟩
  have same := sound.single ((child?_root byte).trans slot)
    (sound.child?_of_edge found here)
  exact sound.ne_root_of_edge edge same.1.symm

/-- No two links hold the same number. -/
theorem Sound.link_unique (sound : trie.Sound) {left right : Link} {number : Nat}
    (leftHeld : trie.target? left = some number)
    (rightHeld : trie.target? right = some number) : left = right := by
  cases left with
  | slot leftByte =>
      cases right with
      | slot rightByte =>
          have same := sound.single ((child?_root leftByte).trans leftHeld)
            ((child?_root rightByte).trans rightHeld)
          rw [same.2]
      | edge parent place => exact absurd rightHeld (sound.slot_ne_edge leftHeld)
  | edge leftParent leftPlace =>
      cases right with
      | slot byte => exact absurd leftHeld (sound.slot_ne_edge rightHeld)
      | edge rightParent rightPlace =>
          rcases target?_edge_eq_some_iff.mp leftHeld with
            ⟨node, leftByte, leftFound, leftHere⟩
          rcases target?_edge_eq_some_iff.mp rightHeld with
            ⟨other, rightByte, rightFound, rightHere⟩
          rcases sound.single (sound.child?_of_edge leftFound leftHere)
            (sound.child?_of_edge rightFound rightHere) with ⟨rfl, rfl⟩
          cases leftFound.symm.trans rightFound
          have ascending :=
            sound.ascending node (Array.mem_of_getElem? leftFound)
          rw [ascending.place_unique leftHere rightHere rfl]

/-- Every node but the root is held by exactly one link. -/
theorem Sound.existsUnique_link (sound : trie.Sound) {number : Nat}
    (below : root < number) (inside : number < trie.nodes.size) :
    ∃! link, trie.target? link = some number := by
  rcases sound.attached below inside with ⟨parent, byte, edge⟩
  rcases sound.exists_target? edge with ⟨link, held⟩
  exact ⟨link, held, fun _ otherHeld => sound.link_unique otherHeld held⟩

end Links

/-! ## Words that are spelled out -/

/-- The word leads from the root to a node. -/
def Reaches (trie : Trie) (word : Bytes) : Prop :=
  ∃ number, trie.descend? root word = some number

theorem Reaches.of_prefix {trie : Trie} {word longer : Bytes}
    (reaches : trie.Reaches longer) (starts : word <+: longer) :
    trie.Reaches word := by
  rcases reaches with ⟨number, reached⟩
  rcases starts with ⟨rest, rfl⟩
  rw [descend?_append] at reached
  rcases Option.bind_eq_some_iff.mp reached with ⟨middle, here, _⟩
  exact ⟨middle, here⟩

theorem reaches_empty_iff (word : Bytes) : empty.Reaches word ↔ word = [] := by
  cases word with
  | nil => simp [Reaches, descend?]
  | cons byte rest => simp [Reaches, descend?, child?_empty]

theorem reaches_mark_iff (trie : Trie) (number index : Nat) (word : Bytes) :
    (trie.mark number index).Reaches word ↔ trie.Reaches word := by
  simp only [Reaches, descend?_mark]

/-- A new node is the end of one more word. -/
theorem Sound.reaches_grow_iff {trie : Trie} (sound : trie.Sound) {path : Bytes}
    {parent : Nat} {byte : UInt8} (reached : trie.descend? root path = some parent)
    (absent : trie.child? parent byte = none) (word : Bytes) :
    (trie.grow parent byte).Reaches word ↔
      word = path ++ [byte] ∨ trie.Reaches word := by
  rw [Reaches, sound.descend?_grow reached absent]
  by_cases new : word = path ++ [byte]
  · simp [new]
  · simp [new, Reaches]

/-- Spelling out a literal below a node adds the words between the node and its end. -/
theorem Sound.reaches_insertBelow_iff {trie : Trie} (sound : trie.Sound)
    {path : Bytes} {parent : Nat} (index : Nat) (literal : Bytes)
    (reached : trie.descend? root path = some parent) (word : Bytes) :
    (trie.insertBelow parent index literal).Reaches word ↔
      trie.Reaches word ∨ word <+: path ++ literal := by
  induction literal generalizing trie path parent with
  | nil =>
      rw [Trie.insertBelow, reaches_mark_iff, List.append_nil]
      constructor
      · exact Or.inl
      · rintro (old | starts)
        · exact old
        · exact Reaches.of_prefix ⟨parent, reached⟩ starts
  | cons byte rest induction =>
      have split : path ++ byte :: rest = path ++ [byte] ++ rest := by simp
      rw [Trie.insertBelow, split]
      split
      case h_1 child edge =>
        exact induction sound (descend?_of_child? reached edge)
      case h_2 absent =>
        have grown := sound.grow (sound.descend?_lt reached) absent
        rw [induction grown (sound.descend?_grow_self reached absent),
          sound.reaches_grow_iff reached absent]
        have spelled : path ++ [byte] <+: path ++ [byte] ++ rest :=
          List.prefix_append _ _
        constructor
        · rintro ((rfl | old) | starts)
          · exact Or.inr spelled
          · exact Or.inl old
          · exact Or.inr starts
        · rintro (old | starts)
          · exact Or.inl (Or.inr old)
          · exact Or.inr starts

theorem Sound.reaches_insert_iff {trie : Trie} (sound : trie.Sound)
    (literal : Bytes) (index : Nat) (word : Bytes) :
    (trie.insert literal index).Reaches word ↔
      trie.Reaches word ∨ word <+: literal := by
  rw [Trie.insert]
  split
  case isTrue isEmpty =>
    rw [List.isEmpty_iff.mp isEmpty, List.prefix_nil]
    constructor
    · exact Or.inl
    · rintro (old | rfl)
      · exact old
      · exact ⟨root, rfl⟩
  case isFalse =>
    have start : trie.descend? root [] = some root := rfl
    exact sound.reaches_insertBelow_iff index literal start word

/-- The words that can be spelled out are the beginnings of the literals. -/
theorem Sound.reaches_insertAll_iff {trie : Trie} (sound : trie.Sound)
    (items : List (Bytes × Nat)) (word : Bytes) :
    (trie.insertAll items).Reaches word ↔
      trie.Reaches word ∨ ∃ item ∈ items, word <+: item.1 := by
  induction items generalizing trie with
  | nil => simp [Trie.insertAll]
  | cons item rest induction =>
      have later := induction (sound.insert item.1 item.2)
      rw [Trie.insertAll, List.foldl_cons]
      refine later.trans ?_
      rw [sound.reaches_insert_iff, List.exists_mem_cons_iff, or_assoc]

/-- Every node is the end of a word. -/
theorem Sound.exists_reached {trie : Trie} (sound : trie.Sound) {number : Nat}
    (inside : number < trie.nodes.size) :
    ∃ word, trie.descend? root word = some number := by
  induction number using Nat.strongRecOn with
  | ind number induction =>
      by_cases atRoot : number = root
      · exact ⟨[], by rw [atRoot]; rfl⟩
      · have below : root < number := Nat.pos_of_ne_zero atRoot
        rcases sound.attached below inside with ⟨parent, byte, edge⟩
        have upward := (sound.forward edge).1
        rcases induction parent upward (upward.trans inside) with ⟨path, reached⟩
        exact ⟨path ++ [byte], descend?_of_child? reached edge⟩

/-! ## Counting nodes -/

/-- The words with which literals begin, the empty word apart. -/
def beginnings (literals : List Bytes) : Finset Bytes :=
  (literals.flatMap fun literal => literal.inits.tail).toFinset

private theorem mem_tail_inits {literal word : Bytes} :
    word ∈ literal.inits.tail ↔ word ≠ [] ∧ word <+: literal := by
  rw [← List.mem_inits]
  cases literal with
  | nil => simp
  | cons byte rest =>
      rw [List.inits_cons, List.tail_cons, List.mem_cons]
      constructor
      · intro member
        refine ⟨?_, Or.inr member⟩
        rintro rfl
        simp at member
      · rintro ⟨nonempty, empty | member⟩
        · exact absurd empty nonempty
        · exact member

theorem mem_beginnings {literals : List Bytes} {word : Bytes} :
    word ∈ beginnings literals ↔
      word ≠ [] ∧ ∃ literal ∈ literals, word <+: literal := by
  simp only [beginnings, List.mem_toFinset, List.mem_flatMap, mem_tail_inits]
  constructor
  · rintro ⟨literal, listed, nonempty, starts⟩
    exact ⟨nonempty, literal, listed, starts⟩
  · rintro ⟨nonempty, literal, listed, starts⟩
    exact ⟨literal, listed, nonempty, starts⟩

/-- A literal has no more beginnings than bytes. -/
theorem card_beginnings_le (literals : List Bytes) :
    (beginnings literals).card ≤ literals.flatten.length := by
  have length_eq : (literals.flatMap fun literal => literal.inits.tail).length =
      literals.flatten.length := by
    induction literals with
    | nil => rfl
    | cons literal rest induction =>
        rw [List.flatMap_cons, List.length_append, induction, List.flatten_cons,
          List.length_append, List.length_tail, List.length_inits,
          Nat.add_sub_cancel]
  rw [← length_eq]
  exact List.toFinset_card_le _

/-- Below the root there are as many nodes as words that can be spelled out. -/
theorem Sound.size_eq_card {trie : Trie} (sound : trie.Sound)
    {words : Finset Bytes}
    (exact : ∀ word, word ∈ words ↔ word ≠ [] ∧ trie.Reaches word) :
    trie.nodes.size = words.card + 1 := by
  have atRoot : trie.descend? root [] = some root := rfl
  have same : words.card = ((Finset.range trie.nodes.size).erase root).card := by
    apply Finset.card_bij fun word _ => (trie.descend? root word).getD root
    · intro word member
      rcases (exact word).mp member with ⟨nonempty, number, reached⟩
      rw [reached, Option.getD_some, Finset.mem_erase, Finset.mem_range]
      refine ⟨?_, sound.descend?_lt reached⟩
      rintro rfl
      exact nonempty (sound.descend?_injective reached atRoot)
    · intro left leftMember right rightMember
      rcases (exact left).mp leftMember with ⟨_, leftNumber, leftReached⟩
      rcases (exact right).mp rightMember with ⟨_, rightNumber, rightReached⟩
      rw [leftReached, rightReached, Option.getD_some, Option.getD_some]
      exact (sound.number_eq_iff leftReached rightReached).mp
    · intro number member
      rcases Finset.mem_erase.mp member with ⟨below, inside⟩
      rcases sound.exists_reached (Finset.mem_range.mp inside) with ⟨word, reached⟩
      refine ⟨word, (exact word).mpr ⟨?_, number, reached⟩, by rw [reached]; rfl⟩
      rintro rfl
      exact below (Option.some.inj (reached.symm.trans atRoot))
  have rooted := sound.root_lt
  rw [same, Finset.card_erase_of_mem (Finset.mem_range.mpr rooted),
    Finset.card_range]
  omega

/-! ## Numbers that are looked up -/

/-- Spell out the rest of a literal, and stop at a number that has no node. -/
def insertBelow? (trie : Trie) (parent index : Nat) : Bytes → Option Trie
  | [] =>
      if parent < trie.nodes.size then some (trie.mark parent index) else none
  | byte :: rest =>
      if parent < trie.nodes.size then
        match trie.child? parent byte with
        | some child => trie.insertBelow? child index rest
        | none => (trie.grow parent byte).insertBelow? trie.nodes.size index rest
      else none

/-- Add a literal with its place, and stop at a number that has no node. -/
def insert? (trie : Trie) (literal : Bytes) (index : Nat) : Option Trie :=
  if literal.isEmpty then some trie else trie.insertBelow? root index literal

/-- Walk down along an input, and stop at a number that has no node. -/
def walk? (trie : Trie) (parent depth : Nat) : Bytes → Option (List Candidate)
  | [] => some []
  | byte :: rest =>
      match trie.child? parent byte with
      | none => some []
      | some child =>
          if child < trie.nodes.size then
            (trie.walk? child (depth + 1) rest).map fun below =>
              match trie.terminal? child with
              | some index => ⟨index, depth + 1⟩ :: below
              | none => below
          else none

/-- The literals that start the input, unless a number without a node is looked up. -/
def candidates? (trie : Trie) (input : Bytes) : Option (List Candidate) :=
  (trie.walk? root 0 input).map List.reverse

section Inside

variable {trie : Trie}

theorem Sound.insertBelow?_eq_some (sound : trie.Sound) {path : Bytes}
    {parent : Nat} (index : Nat) (literal : Bytes)
    (reached : trie.descend? root path = some parent) :
    trie.insertBelow? parent index literal =
      some (trie.insertBelow parent index literal) := by
  induction literal generalizing trie path parent with
  | nil => exact if_pos (sound.descend?_lt reached)
  | cons byte rest induction =>
      have inside := sound.descend?_lt reached
      rw [insertBelow?, if_pos inside, Trie.insertBelow]
      cases edge : trie.child? parent byte with
      | some child => exact induction sound (descend?_of_child? reached edge)
      | none =>
          exact induction (sound.grow inside edge)
            (sound.descend?_grow_self reached edge)

/-- Insertion looks up nodes that are there. -/
theorem Sound.insert?_eq_some (sound : trie.Sound) (literal : Bytes)
    (index : Nat) :
    trie.insert? literal index = some (trie.insert literal index) := by
  rw [insert?, Trie.insert]
  split
  case isTrue => rfl
  case isFalse =>
    have start : trie.descend? root [] = some root := rfl
    exact sound.insertBelow?_eq_some index literal start

theorem Sound.walk?_eq_some (sound : trie.Sound) (parent depth : Nat)
    (input : Bytes) :
    trie.walk? parent depth input = some (trie.walk parent depth input) := by
  induction input generalizing parent depth with
  | nil => rfl
  | cons byte rest induction =>
      rw [walk?, Trie.walk]
      cases edge : trie.child? parent byte with
      | none => rfl
      | some child =>
          have inside := (sound.forward edge).2
          cases ended : trie.terminal? child with
          | none =>
              simp only [if_pos inside, induction, Option.map_some, ended]
          | some index =>
              simp only [if_pos inside, induction, Option.map_some, ended]

/-- Matching looks up nodes that are there. -/
theorem Sound.candidates?_eq_some (sound : trie.Sound) (input : Bytes) :
    trie.candidates? input = some (trie.candidates input) := by
  rw [candidates?, sound.walk?_eq_some, Option.map_some, Trie.candidates]

end Inside

/-! ## Tries of literals -/

/-- What a trie looks like that literals with their places were inserted in. -/
structure Represents (trie : Trie) (items : List (Bytes × Nat)) : Prop where
  ascending : ∀ node ∈ trie.nodes,
    node.edges.Pairwise fun left right => left.1 < right.1
  /-- Slots and edges hold numbers of nodes other than the root. -/
  inside : ∀ link number, trie.target? link = some number →
    1 ≤ number ∧ number ≤ trie.nodes.size - 1
  downward : ∀ parent place number,
    trie.target? (.edge parent place) = some number → parent < number
  /-- A node other than the root is held by one slot or edge. -/
  single : ∀ number, 1 ≤ number → number ≤ trie.nodes.size - 1 →
    ∃! link, trie.target? link = some number
  /-- The node that stands for the root has no edge and no literal. -/
  bare : trie.nodes[root]? = some {}
  reaches_iff : ∀ word, word ≠ [] →
    (trie.Reaches word ↔ ∃ item ∈ items, word <+: item.1)
  /-- Of equal literals the first one ends at the node of its word. -/
  terminal_eq : ∀ word, word ≠ [] → ∀ number,
    trie.descend? root word = some number →
      ∃ node, trie.nodes[number]? = some node ∧
        node.terminal = items.lookup word
  /-- Neither insertion nor matching looks up a number without a node. -/
  insert?_eq : ∀ literal index,
    trie.insert? literal index = some (trie.insert literal index)
  candidates?_eq : ∀ input,
    trie.candidates? input = some (trie.candidates input)
  size_eq : trie.nodes.size = 1 + (beginnings (items.map Prod.fst)).card
  /-- The numbers of nodes are bounded by the length of all literals. -/
  size_le : trie.nodes.size ≤ 1 + (items.map Prod.fst).flatten.length

/-- The literal that ends at the node of a word is the first one that equals it. -/
theorem terminal_insertAll (items : List (Bytes × Nat)) {word : Bytes}
    (nonempty : word ≠ []) {number : Nat}
    (reached : (empty.insertAll items).descend? root word = some number) :
    ∃ node, (empty.insertAll items).nodes[number]? = some node ∧
      node.terminal = items.lookup word := by
  have sound := sound_empty.insertAll items
  have held := sound_empty.lookup?_insertAll items nonempty
  rw [lookup?, reached, Option.bind_some, lookup?_empty, Option.none_or] at held
  have present := Array.getElem?_eq_getElem (sound.descend?_lt reached)
  rw [terminal?, present, Option.bind_some] at held
  exact ⟨_, present, held⟩

theorem reaches_inserted_iff (items : List (Bytes × Nat)) {word : Bytes}
    (nonempty : word ≠ []) :
    (empty.insertAll items).Reaches word ↔
      ∃ item ∈ items, word <+: item.1 := by
  rw [sound_empty.reaches_insertAll_iff, reaches_empty_iff,
    or_iff_right nonempty]

theorem size_insertAll (items : List (Bytes × Nat)) :
    (empty.insertAll items).nodes.size =
      1 + (beginnings (items.map Prod.fst)).card := by
  rw [Nat.add_comm]
  apply (sound_empty.insertAll items).size_eq_card
  intro word
  rw [mem_beginnings]
  apply and_congr_right
  intro nonempty
  rw [reaches_inserted_iff items nonempty]
  simp

theorem represents_insertAll (items : List (Bytes × Nat)) :
    (empty.insertAll items).Represents items where
  ascending := (sound_empty.insertAll items).ascending
  inside := by
    intro link number held
    have bounds := (sound_empty.insertAll items).target?_lt held
    exact ⟨bounds.1, Nat.le_sub_one_of_lt bounds.2⟩
  downward := fun _ _ _ held =>
    ((sound_empty.insertAll items).target?_edge_lt held).1
  single := by
    intro number below inside
    have rooted := (sound_empty.insertAll items).root_lt
    exact (sound_empty.insertAll items).existsUnique_link below (by omega)
  bare := (sound_empty.insertAll items).bare
  reaches_iff := fun _ => reaches_inserted_iff items
  terminal_eq := fun _ nonempty _ => terminal_insertAll items nonempty
  insert?_eq := (sound_empty.insertAll items).insert?_eq_some
  candidates?_eq := (sound_empty.insertAll items).candidates?_eq_some
  size_eq := size_insertAll items
  size_le := by
    rw [size_insertAll]
    exact Nat.add_le_add_left (card_beginnings_le _) 1

/--
Inserting literals one after the other, in any order, with repetitions and
with empty ones among them, makes a trie of the shape described above.  The
trie of a list of literals, which takes their places in the list, is made in
this way.
-/
theorem inserted_represents :
    (∀ items, (empty.insertAll items).Represents items) ∧
      ∀ literals, (ofLiterals literals).Represents literals.zipIdx :=
  ⟨represents_insertAll, fun literals => represents_insertAll literals.zipIdx⟩

/-- Five literals, of which one is empty and one is repeated, begin with three words. -/
example :
    (ofLiterals [[0x61, 0x63], [], [0x61, 0x62], [0x61], [0x61, 0x63]]).nodes =
      #[{}, ⟨[(0x62, 3), (0x63, 2)], some 3⟩, ⟨[], some 0⟩, ⟨[], some 2⟩] := by
  decide +kernel

end Lexicon.Trie
