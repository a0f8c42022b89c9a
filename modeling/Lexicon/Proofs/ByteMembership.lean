import Lexicon.ByteSet
import Mathlib.Data.List.Dedup

/-!
# Sets of bytes and their members

A set of bytes is known through its members.  Whatever the set was made of,
its bits stand for its members and for nothing else: the list of members is
ascending and complete, the bits that are set are as many as the members, and
sets with the same members have the same words.

The members are counted word by word.  The bytes below `64 * count` are those
whose bits lie in the first `count` words, and each further word adds the bits
that are set in it.
-/

namespace Lexicon.ByteSet

/-! ## Counting bits -/

private theorem cpopNatRec_eq_countP {width : Nat} (word : BitVec width)
    (count start : Nat) :
    word.cpopNatRec count start =
      start + (List.range count).countP word.getLsbD := by
  induction count generalizing start with
  | zero => simp
  | succ count induction =>
      rw [BitVec.cpopNatRec_succ, induction, List.range_succ, List.countP_append,
        List.countP_singleton]
      cases word.getLsbD count with
      | false => simp
      | true =>
          simp only [Bool.toNat_true, if_true]
          omega

/-- The population count of a word is the number of its bits that are set. -/
theorem toNat_cpop_eq_countP {width : Nat} (word : BitVec width) :
    word.cpop.toNat = (List.range width).countP word.getLsbD := by
  rw [BitVec.toNat_cpop, cpopNatRec_eq_countP, Nat.zero_add]

/-- A word has as many bits set as there are members whose bits lie in it. -/
theorem countP_contains_word (set : ByteSet) (number : Fin 4) :
    ((List.range 64).map (64 * number.val + ·)).countP
        (fun value => set.contains (UInt8.ofNat value)) =
      set.words[number].toBitVec.cpop.toNat := by
  rw [toNat_cpop_eq_countP, List.countP_map]
  apply List.countP_congr
  intro place inside
  rw [Function.comp_apply, set.contains_ofNat number (List.mem_range.mp inside)]

/-- The bits that are set in the first words, added up. -/
def sizeOfFirst (set : ByteSet) (count : Nat) : Nat :=
  (set.words.toList.take count).foldl
    (fun total word => total + word.toBitVec.cpop.toNat) 0

/-- Each further word adds the members whose bits lie in it. -/
theorem countP_contains_eq_sizeOfFirst (set : ByteSet) {count : Nat}
    (bound : count ≤ 4) :
    (List.range (64 * count)).countP
        (fun value => set.contains (UInt8.ofNat value)) =
      set.sizeOfFirst count := by
  induction count with
  | zero => rfl
  | succ count induction =>
      have next : set.words.toList[count]? = some set.words[count] := by simp
      have word := set.countP_contains_word ⟨count, bound⟩
      rw [Nat.mul_succ, List.range_add, List.countP_append,
        induction (Nat.le_of_succ_le bound), word, sizeOfFirst, sizeOfFirst,
        List.take_add_one, next, List.foldl_append]
      rfl

/-- The size counts each member once. -/
theorem size_eq_length_toList (set : ByteSet) : set.size = set.toList.length := by
  have whole : set.sizeOfFirst 4 = set.size := by
    rw [sizeOfFirst, List.take_of_length_le (by simp), size,
      Vector.foldl_toList]
  have counted := set.countP_contains_eq_sizeOfFirst (Nat.le_refl 4)
  rw [← whole, ← counted, toList, ← List.countP_eq_length_filter, Byte.all,
    List.countP_map]
  rfl

/-! ## Listing members -/

theorem ascending_toList (set : ByteSet) : set.toList.Pairwise (· < ·) := by
  apply List.Pairwise.filter
  rw [Byte.all, List.pairwise_map]
  apply List.pairwise_lt_range.imp_of_mem
  intro left right leftInside rightInside below
  exact (UInt8.ofNat_lt_iff_lt (List.mem_range.mp leftInside)
    (List.mem_range.mp rightInside)).mpr below

theorem nodup_toList (set : ByteSet) : set.toList.Nodup :=
  set.ascending_toList.imp UInt8.ne_of_lt

theorem isEmpty_iff (set : ByteSet) : set.isEmpty = true ↔ set.toList = [] := by
  rw [isEmpty, beq_iff_eq, size_eq_length_toList, List.length_eq_zero_iff]

/-- Bytes that are repeated are held once. -/
theorem size_ofBytes (bytes : Bytes) :
    (ofBytes bytes).size = bytes.dedup.length := by
  have same : (ofBytes bytes).toList.Perm bytes.dedup := by
    apply (List.perm_ext_iff_of_nodup (nodup_toList _) bytes.nodup_dedup).mpr
    intro byte
    simp
  rw [size_eq_length_toList, same.length_eq]

theorem ofBytes_toList (set : ByteSet) : ofBytes set.toList = set := by
  apply eq_of_contains_eq
  intro byte
  rw [contains_ofBytes, Bool.eq_iff_iff, List.contains_iff_mem, mem_toList]

/--
A set of bytes is its members.  The bytes of a string, the bytes of ASCII that
no word is made of and the members of two sets together are held exactly.  Of
every set, made in whatever way, the list of members ascends and is complete,
the number of bits set is its length, and the set is made again of it.  Two
sets have the same words exactly if they have the same members.
-/
theorem represents_members :
    (∀ byte, empty.contains byte = false) ∧
    (∀ bytes byte, (ofBytes bytes).contains byte = true ↔ byte ∈ bytes) ∧
    (∀ byte, wordBoundary.contains byte = true ↔
      byte < 0x80 ∧ Byte.isWord byte = false) ∧
    (∀ (left right : ByteSet) byte, (left.union right).contains byte = true ↔
      left.contains byte = true ∨ right.contains byte = true) ∧
    (∀ set : ByteSet,
      set.toList.Pairwise (· < ·) ∧
      (∀ byte, byte ∈ set.toList ↔ set.contains byte = true) ∧
      set.size = set.toList.length ∧
      (set.isEmpty = true ↔ set.toList = []) ∧
      ofBytes set.toList = set) ∧
    (∀ bytes, (ofBytes bytes).size = bytes.dedup.length) ∧
    ∀ left right : ByteSet, left.words = right.words ↔
      ∀ byte, left.contains byte = right.contains byte := by
  refine ⟨contains_empty, ?_, ?_, ?_, ?_, size_ofBytes, ?_⟩
  · intro bytes byte
    rw [contains_ofBytes, List.contains_iff_mem]
  · intro byte
    simp [Byte.isAscii]
  · intro left right byte
    rw [contains_union, Bool.or_eq_true]
  · intro set
    exact ⟨set.ascending_toList, set.mem_toList, set.size_eq_length_toList,
      set.isEmpty_iff, set.ofBytes_toList⟩
  · intro left right
    constructor
    · intro sameWords byte
      rw [contains, contains, wordOf, wordOf, sameWords]
    · intro sameMembers
      rw [eq_of_contains_eq sameMembers]

/-- The members lie in three words, and one of them is given twice. -/
example :
    (ofBytes [0xFF, 0x40, 0x3F, 0xFF]).toList = [0x3F, 0x40, 0xFF] ∧
      (ofBytes [0xFF, 0x40, 0x3F, 0xFF]).size = 3 := by
  decide +kernel

end Lexicon.ByteSet
