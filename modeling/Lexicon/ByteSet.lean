import Lexicon.Text.Quoted
import Lexicon.Text.Byte

/-!
# Sets of bytes

A set of bytes is held in four words of 64 bits, with a bit for each byte.  The
two upper bits of a byte tell its word, the six lower bits its place in the
word.  Equal sets have equal words, so sets can be compared directly.
-/

namespace Lexicon

/-- A set of bytes. -/
structure ByteSet where
  /-- The bit of a byte in its word tells whether the byte is a member. -/
  words : Vector UInt64 4
deriving DecidableEq

namespace ByteSet

/-- The number of the word with the bit of a byte. -/
def slot (byte : UInt8) : Fin 4 :=
  ⟨(byte >>> 6).toNat, by
    have bound : byte.toNat < 256 := byte.toNat_lt
    have quotient : (byte >>> 6).toNat = byte.toNat / 64 := by
      simp [Nat.shiftRight_eq_div_pow]
    omega⟩

/-- The word in which the bit of a byte alone is set. -/
def mask (byte : UInt8) : UInt64 :=
  1 <<< (byte &&& 63).toUInt64

/-- The word with the bit of a byte. -/
def wordOf (set : ByteSet) (byte : UInt8) : UInt64 :=
  set.words[slot byte]

/-- The byte is a member of the set. -/
def contains (set : ByteSet) (byte : UInt8) : Bool :=
  set.wordOf byte &&& mask byte != 0

/-- The set without members. -/
def empty : ByteSet :=
  ⟨Vector.replicate 4 0⟩

/-- The set with one more member. -/
def insert (set : ByteSet) (byte : UInt8) : ByteSet :=
  ⟨set.words.set (slot byte) (set.wordOf byte ||| mask byte) (slot byte).isLt⟩

/-- The set of the bytes that occur in a byte string. -/
def ofBytes (bytes : Bytes) : ByteSet :=
  bytes.foldl insert empty

/-- The members of either set. -/
def union (left right : ByteSet) : ByteSet :=
  ⟨left.words.zipWith (· ||| ·) right.words⟩

/-- The members in ascending order. -/
def toList (set : ByteSet) : Bytes :=
  Byte.all.filter set.contains

/-- The number of members: that of the bits which are set in each word, added up. -/
def size (set : ByteSet) : Nat :=
  set.words.foldl (fun count word => count + word.toBitVec.cpop.toNat) 0

/-- The set has no member. -/
def isEmpty (set : ByteSet) : Bool :=
  set.size == 0

/-- The bytes of ASCII that no identifier is made of. -/
def wordBoundary : ByteSet :=
  ofBytes (((List.range 0x80).map UInt8.ofNat).filter fun byte => !Byte.isWord byte)

/-- The members as quoted characters between braces. -/
def text (set : ByteSet) : String :=
  let member (byte : UInt8) := Quoted.quote (Quoted.spell (Char.ofNat byte.toNat))
  "\x7b" ++ String.intercalate ", " (set.toList.map member) ++ "\x7d"

/-! ## Words and bits -/

theorem slot_eq_div (byte : UInt8) : (slot byte).val = byte.toNat / 64 := by
  simp [slot, Nat.shiftRight_eq_div_pow]

theorem toBitVec_mask (byte : UInt8) :
    (mask byte).toBitVec = BitVec.twoPow 64 (byte.toNat % 64) := by
  have place : byte.toNat &&& 63 = byte.toNat % 64 :=
    Nat.and_two_pow_sub_one_eq_mod byte.toNat 6
  simp [mask, BitVec.twoPow, place]

/-- A byte is a member if its bit is set in its word. -/
theorem contains_eq_getLsbD (set : ByteSet) (byte : UInt8) :
    set.contains byte = (set.wordOf byte).toBitVec.getLsbD (byte.toNat % 64) := by
  have small : byte.toNat % 64 < 64 := Nat.mod_lt _ (by decide)
  have marked : (BitVec.twoPow 64 (byte.toNat % 64)).getLsbD (byte.toNat % 64) = true := by
    simp [small]
  rw [contains, Bool.eq_iff_iff, bne_iff_ne, Ne, ← UInt64.toBitVec_inj,
    UInt64.toBitVec_and, toBitVec_mask, BitVec.and_twoPow]
  split
  case isTrue isSet =>
    refine iff_of_true ?_ isSet
    intro vanishes
    rw [vanishes] at marked
    simp at marked
  case isFalse isClear => simp [isClear]

/-- Word and place tell the byte. -/
theorem eq_iff_slot_eq (left right : UInt8) :
    left = right ↔ slot left = slot right ∧ left.toNat % 64 = right.toNat % 64 := by
  rw [← UInt8.toNat_inj, Fin.ext_iff, slot_eq_div, slot_eq_div]
  omega

theorem wordOf_insert (set : ByteSet) (added byte : UInt8) :
    (set.insert added).wordOf byte =
      if slot added = slot byte then set.wordOf byte ||| mask added
      else set.wordOf byte := by
  simp only [wordOf, insert, Fin.getElem_fin, Vector.getElem_set, Fin.val_inj]
  split
  case isTrue same => simp only [same]
  case isFalse => rfl

/-- Each bit of each word belongs to a byte. -/
theorem contains_ofNat (set : ByteSet) (number : Fin 4) {place : Nat} (bound : place < 64) :
    set.contains (UInt8.ofNat (64 * number.val + place)) =
      set.words[number].toBitVec.getLsbD place := by
  have fits : 64 * number.val + place < 256 := by omega
  have value : (UInt8.ofNat (64 * number.val + place)).toNat = 64 * number.val + place :=
    UInt8.toNat_ofNat_of_lt' fits
  have atNumber : slot (UInt8.ofNat (64 * number.val + place)) = number := by
    rw [Fin.ext_iff, slot_eq_div, value]
    omega
  have atPlace : (64 * number.val + place) % 64 = place := by omega
  simp only [contains_eq_getLsbD, wordOf, atNumber, value, atPlace]

/-! ## Members -/

/-- Sets with the same members are equal. -/
theorem eq_of_contains_eq {left right : ByteSet}
    (same : ∀ byte, left.contains byte = right.contains byte) : left = right := by
  have sameWords : left.words = right.words := by
    apply Vector.ext
    intro number inside
    apply UInt64.toBitVec_inj.mp
    apply BitVec.eq_of_getLsbD_eq
    intro place bound
    have here := same (UInt8.ofNat (64 * number + place))
    rw [left.contains_ofNat ⟨number, inside⟩ bound,
      right.contains_ofNat ⟨number, inside⟩ bound] at here
    exact here
  cases left
  cases right
  cases sameWords
  rfl

@[simp]
theorem contains_empty (byte : UInt8) : empty.contains byte = false := by
  simp [contains_eq_getLsbD, wordOf, empty]

@[simp]
theorem contains_insert (set : ByteSet) (added byte : UInt8) :
    (set.insert added).contains byte = (set.contains byte || added == byte) := by
  have small : byte.toNat % 64 < 64 := Nat.mod_lt _ (by decide)
  have same : (added == byte) =
      (decide (slot added = slot byte) && decide (added.toNat % 64 = byte.toNat % 64)) := by
    rw [Bool.eq_iff_iff]
    simp [eq_iff_slot_eq added byte]
  rw [contains_eq_getLsbD, contains_eq_getLsbD, wordOf_insert, same]
  split
  case isTrue together =>
    simp [together, toBitVec_mask, small, eq_comm]
  case isFalse apart => simp [apart]

private theorem contains_foldl_insert (set : ByteSet) (bytes : Bytes) (byte : UInt8) :
    (bytes.foldl insert set).contains byte = (set.contains byte || bytes.contains byte) := by
  induction bytes generalizing set with
  | nil => simp
  | cons head tail ih =>
      rw [List.foldl_cons, ih, contains_insert, List.contains_cons, Bool.or_assoc,
        Bool.beq_comm]

/-- The members of the set of a byte string are the bytes that occur in it. -/
@[simp]
theorem contains_ofBytes (bytes : Bytes) (byte : UInt8) :
    (ofBytes bytes).contains byte = bytes.contains byte := by
  simp [ofBytes, contains_foldl_insert]

@[simp]
theorem contains_union (left right : ByteSet) (byte : UInt8) :
    (left.union right).contains byte = (left.contains byte || right.contains byte) := by
  have wordOf_union : (left.union right).wordOf byte = left.wordOf byte ||| right.wordOf byte := by
    simp [wordOf, union]
  rw [contains_eq_getLsbD, contains_eq_getLsbD, contains_eq_getLsbD, wordOf_union,
    UInt64.toBitVec_or, BitVec.getLsbD_or]

/-- The word boundary holds the bytes of ASCII that are no word bytes. -/
@[simp]
theorem contains_wordBoundary (byte : UInt8) :
    wordBoundary.contains byte = (Byte.isAscii byte && !Byte.isWord byte) := by
  have ascii : byte ∈ (List.range 0x80).map UInt8.ofNat ↔ Byte.isAscii byte = true := by
    rw [Byte.isAscii, decide_eq_true_eq, UInt8.lt_iff_toNat_lt, List.mem_map]
    constructor
    · rintro ⟨number, inside, rfl⟩
      have bound := List.mem_range.mp inside
      rw [UInt8.toNat_ofNat_of_lt' (Nat.lt_trans bound (by decide))]
      exact bound
    · intro bound
      exact ⟨byte.toNat, List.mem_range.mpr bound, UInt8.ofNat_toNat⟩
  rw [wordBoundary, contains_ofBytes, Bool.eq_iff_iff, List.contains_iff_mem, List.mem_filter,
    ascii, Bool.and_eq_true]

/-- The list of members holds exactly the members. -/
@[simp]
theorem mem_toList (set : ByteSet) (byte : UInt8) :
    byte ∈ set.toList ↔ set.contains byte = true := by
  simp [toList]

end ByteSet

end Lexicon
