import Lexicon.Matcher.Candidate
import Lexicon.Text.Byte

/-!
# Tries

The fast way to match: the literals are spelled out in a tree whose edges
carry bytes, and one walk down the tree along the input passes every literal
that starts it.  The edges of a node are kept in the order of their bytes and
searched by halving.

The nodes are numbered in the order in which they are added.  Number zero is
the root; its edges are held in a table with a slot for each byte, because
every walk begins there.  No edge leads back to the root, so its number marks
the slots without an edge.  The empty literal is not held, and of equal
literals the first one stays.
-/

namespace Lexicon

/-- A node below the root. -/
structure Trie.Node where
  /-- The edges to longer literals, by ascending byte. -/
  edges : List (UInt8 × Nat) := []
  /-- The place of the literal that ends here. -/
  terminal : Option Nat := none
deriving DecidableEq

namespace Trie.Node

/-- Where the edge with a byte is among edges by ascending byte, or else where it belongs. -/
inductive EdgePlace
  | found (place : Nat)
  | missing (place : Nat)
deriving DecidableEq

/--
Halve a window of edges until one edge is left.  The window has `size` edges
from the place `base` on, and the half without the byte is given up.
-/
def narrow (edges : List (UInt8 × Nat)) (byte : UInt8) (base size : Nat) : Nat :=
  if size ≤ 1 then base
  else
    let middle := base + size / 2
    if edges[middle]?.any fun edge => byte < edge.1 then
      narrow edges byte base (size - size / 2)
    else narrow edges byte middle (size - size / 2)
termination_by size
decreasing_by all_goals omega

/-- Look for a byte among edges by ascending byte. -/
def search (edges : List (UInt8 × Nat)) (byte : UInt8) : EdgePlace :=
  let place := narrow edges byte 0 edges.length
  match edges[place]? with
  | none => .missing place
  | some edge =>
      if edge.1 = byte then .found place
      else if edge.1 < byte then .missing (place + 1)
      else .missing place

/-- The node at the end of the edge with a byte. -/
def child? (node : Trie.Node) (byte : UInt8) : Option Nat :=
  match search node.edges byte with
  | .found place => node.edges[place]?.map Prod.snd
  | .missing _ => none

/-- The node with one more edge, which is put in its place among the others. -/
def addEdge (node : Trie.Node) (byte : UInt8) (child : Nat) : Trie.Node :=
  match search node.edges byte with
  | .found _ => node
  | .missing place => { node with edges := node.edges.insertIdx place (byte, child) }

theorem terminal_addEdge (node : Trie.Node) (byte : UInt8) (child : Nat) :
    (node.addEdge byte child).terminal = node.terminal := by
  rw [addEdge]
  cases search node.edges byte with
  | found place => rfl
  | missing place => rfl

/-- Let a literal end here, unless one does already. -/
def mark (node : Trie.Node) (index : Nat) : Trie.Node :=
  { node with terminal := node.terminal.or (some index) }

end Trie.Node

/-- A tree of literals. -/
structure Trie where
  /-- The ends of the root's edges, by byte.  Zero stands for no edge. -/
  heads : Vector Nat UInt8.size
  /-- The nodes by number.  The one with number zero stands for the root and stays bare. -/
  nodes : Array Trie.Node

namespace Trie

/-- The number of the root. -/
def root : Nat := 0

/-- The tree without literals. -/
def empty : Trie :=
  ⟨Vector.replicate UInt8.size root, #[{}]⟩

/-- The slot of the root's table for a byte. -/
def slot (trie : Trie) (byte : UInt8) : Nat :=
  trie.heads.get ⟨byte.toNat, byte.toNat_lt⟩

/-- The root's edge with a byte. -/
def head? (trie : Trie) (byte : UInt8) : Option Nat :=
  if trie.slot byte = root then none else some (trie.slot byte)

/-- The node that the edge with a byte leads to. -/
def child? (trie : Trie) (parent : Nat) (byte : UInt8) : Option Nat :=
  if parent = root then trie.head? byte
  else trie.nodes[parent]?.bind fun node => node.child? byte

/-- The place of the literal that ends at a node. -/
def terminal? (trie : Trie) (number : Nat) : Option Nat :=
  trie.nodes[number]?.bind Trie.Node.terminal

/-- Add a node at the end of a new edge.  Its number is the number of nodes so far. -/
def grow (trie : Trie) (parent : Nat) (byte : UInt8) : Trie :=
  let child := trie.nodes.size
  if parent = root then
    ⟨trie.heads.set byte.toNat child byte.toNat_lt, trie.nodes.push {}⟩
  else
    ⟨trie.heads, (trie.nodes.modify parent fun node => node.addEdge byte child).push {}⟩

/-- Let a literal end at a node. -/
def mark (trie : Trie) (number index : Nat) : Trie :=
  { trie with nodes := trie.nodes.modify number fun node => node.mark index }

/-- Spell out the rest of a literal below a node. -/
def insertBelow (trie : Trie) (parent index : Nat) : Bytes → Trie
  | [] => trie.mark parent index
  | byte :: rest =>
      match trie.child? parent byte with
      | some child => trie.insertBelow child index rest
      | none => (trie.grow parent byte).insertBelow trie.nodes.size index rest

/-- Add a literal with its place.  An empty literal is left out. -/
def insert (trie : Trie) (literal : Bytes) (index : Nat) : Trie :=
  if literal.isEmpty then trie else trie.insertBelow root index literal

/-- The tree of a list of literals. -/
def ofLiterals (literals : List Bytes) : Trie :=
  literals.zipIdx.foldl (fun trie (literal, index) => trie.insert literal index) empty

/-- The literals passed on the way down from a node at a depth, shortest first. -/
def walk (trie : Trie) (parent depth : Nat) : Bytes → List Candidate
  | [] => []
  | byte :: rest =>
      match trie.child? parent byte with
      | none => []
      | some child =>
          let below := trie.walk child (depth + 1) rest
          match trie.terminal? child with
          | some index => ⟨index, depth + 1⟩ :: below
          | none => below

/-- The literals that start the input, longest first. -/
def candidates (trie : Trie) (input : Bytes) : List Candidate :=
  (trie.walk root 0 input).reverse

theorem depth_lt_of_mem_walk {trie : Trie} {input : Bytes} {candidate : Candidate}
    {parent depth : Nat} (member : candidate ∈ trie.walk parent depth input) :
    depth < candidate.length := by
  induction input generalizing parent depth with
  | nil => simp [walk] at member
  | cons byte rest ih =>
      rw [walk] at member
      split at member
      case h_1 => simp at member
      case h_2 child _ =>
        split at member
        case h_1 =>
          rcases List.mem_cons.mp member with rfl | below
          · exact Nat.lt_succ_self depth
          · exact Nat.lt_of_succ_lt (ih below)
        case h_2 => exact Nat.lt_of_succ_lt (ih member)

/-- No candidate is empty. -/
theorem length_pos_of_mem_candidates {trie : Trie} {input : Bytes} {candidate : Candidate}
    (member : candidate ∈ trie.candidates input) : 0 < candidate.length :=
  depth_lt_of_mem_walk (List.mem_reverse.mp member)

end Trie

end Lexicon
