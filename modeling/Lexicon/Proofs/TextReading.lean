import Lexicon.Text.Utf8
import Mathlib.Order.Basic

/-!
# Text is read back as it is written

Reading replaces bytes that are no text.  In the encoding of a text it finds
nothing to replace: the first byte of a character opens it, each byte that
follows is accepted, and the last one completes the value of the character.

The bounds on the second byte are what the proof turns on.  They exclude
encodings that are too long, surrogates and values above the last character,
and the encoding of a character is none of these.
-/

namespace Lexicon.Utf8

/-! ## Single bytes -/

section Bytes

variable {value bits : Nat} {rest : Bytes}

theorem decodeFrom_ascii (ascii : value ≤ 0x7F) :
    decodeFrom none (UInt8.ofNat value :: rest) =
      Char.ofNat value :: decodeFrom none rest := by
  have toNat_eq : (UInt8.ofNat value).toNat = value :=
    UInt8.toNat_ofNat_of_lt' (Nat.lt_of_le_of_lt ascii (by decide))
  have isAscii : Byte.isAscii (UInt8.ofNat value) = true := by
    rw [Byte.isAscii, decide_eq_true_eq, UInt8.lt_iff_toNat_lt, toNat_eq]
    exact Nat.lt_succ_of_le ascii
  rw [decodeFrom, step, start, if_pos isAscii, toNat_eq]
  rfl

/-- A byte that opens a character is kept until the character is complete. -/
theorem decodeFrom_opens {byte : UInt8} {pending : Pending}
    (wide : Byte.isAscii byte = false) (opened : opens? byte = some pending) :
    decodeFrom none (byte :: rest) = decodeFrom (some pending) rest := by
  rw [decodeFrom, step, start, if_neg (by simp [wide]), opened]
  rfl

/-- The byte that holds six bits after the first byte of a character. -/
def continuation (bits : Nat) : UInt8 :=
  UInt8.ofNat (bits + 0x80)

theorem toNat_continuation (small : bits < 64) :
    (continuation bits).toNat = bits + 0x80 :=
  UInt8.toNat_ofNat_of_lt' (by change bits + 0x80 < 256; omega)

theorem toNat_continuation_mod (small : bits < 64) :
    (continuation bits).toNat % 64 = bits := by
  rw [toNat_continuation small]
  omega

/-- The bits may come next. -/
def Pending.Awaits (pending : Pending) (bits : Nat) : Prop :=
  bits < 64 ∧ pending.least.toNat ≤ bits + 0x80 ∧
    bits + 0x80 ≤ pending.greatest.toNat

theorem Pending.Awaits.accepts {pending : Pending}
    (awaits : pending.Awaits bits) :
    pending.accepts (continuation bits) = true := by
  rcases awaits with ⟨small, atLeast, atMost⟩
  rw [Pending.accepts, Bool.and_eq_true, decide_eq_true_eq,
    decide_eq_true_eq, UInt8.le_iff_toNat_le, UInt8.le_iff_toNat_le,
    toNat_continuation small]
  exact ⟨atLeast, atMost⟩

theorem awaits_unbounded (value remaining : Nat) (small : bits < 64) :
    Pending.Awaits ⟨value, remaining, 0x80, 0xBF⟩ bits := by
  refine ⟨small, ?_, ?_⟩
  · exact Nat.le_add_left 0x80 bits
  · change bits + 0x80 ≤ 0xBF
    omega

/-- Where the second byte has bounds of its own, the bits must keep to them. -/
theorem awaits_bounded {low high : Prop} [Decidable low] [Decidable high]
    {least greatest : UInt8} (value remaining : Nat) (small : bits < 64)
    (atLeast : low → least.toNat ≤ bits + 0x80)
    (atMost : high → bits + 0x80 ≤ greatest.toNat) :
    Pending.Awaits ⟨value, remaining, if low then least else 0x80,
      if high then greatest else 0xBF⟩ bits := by
  rcases awaits_unbounded value remaining small with ⟨_, usualLeast, usualGreatest⟩
  refine ⟨small, ?_, ?_⟩
  · dsimp only
    split
    case isTrue isLow => exact atLeast isLow
    case isFalse => exact usualLeast
  · dsimp only
    split
    case isTrue isHigh => exact atMost isHigh
    case isFalse => exact usualGreatest

theorem decodeFrom_last {least greatest : UInt8}
    (awaits : Pending.Awaits ⟨value, 0, least, greatest⟩ bits) :
    decodeFrom (some ⟨value, 0, least, greatest⟩)
        (continuation bits :: rest) =
      Char.ofNat (value * 64 + bits) :: decodeFrom none rest := by
  rw [decodeFrom, step, if_pos awaits.accepts, Pending.extend,
    toNat_continuation_mod awaits.1]
  rfl

theorem decodeFrom_more {remaining : Nat} {least greatest : UInt8}
    (awaits : Pending.Awaits ⟨value, remaining + 1, least, greatest⟩ bits) :
    decodeFrom (some ⟨value, remaining + 1, least, greatest⟩)
        (continuation bits :: rest) =
      decodeFrom (some ⟨value * 64 + bits, remaining, 0x80, 0xBF⟩) rest := by
  rw [decodeFrom, step, if_pos awaits.accepts, Pending.extend,
    toNat_continuation_mod awaits.1]
  rfl

end Bytes

/-! ## First bytes -/

theorem opens_two {bits : Nat} (least : 2 ≤ bits) (small : bits < 32) :
    Byte.isAscii (UInt8.ofNat (bits + 0xC0)) = false ∧
      opens? (UInt8.ofNat (bits + 0xC0)) = some ⟨bits, 0, 0x80, 0xBF⟩ := by
  have every : ∀ bits : Fin 32, 2 ≤ bits.val →
      Byte.isAscii (UInt8.ofNat (bits.val + 0xC0)) = false ∧
        opens? (UInt8.ofNat (bits.val + 0xC0)) =
          some ⟨bits.val, 0, 0x80, 0xBF⟩ := by decide
  exact every ⟨bits, small⟩ least

theorem opens_three {bits : Nat} (small : bits < 16) :
    Byte.isAscii (UInt8.ofNat (bits + 0xE0)) = false ∧
      opens? (UInt8.ofNat (bits + 0xE0)) =
        some ⟨bits, 1, if bits = 0 then 0xA0 else 0x80,
          if bits = 0xD then 0x9F else 0xBF⟩ := by
  have every : ∀ bits : Fin 16,
      Byte.isAscii (UInt8.ofNat (bits.val + 0xE0)) = false ∧
        opens? (UInt8.ofNat (bits.val + 0xE0)) =
          some ⟨bits.val, 1, if bits.val = 0 then 0xA0 else 0x80,
            if bits.val = 0xD then 0x9F else 0xBF⟩ := by decide
  exact every ⟨bits, small⟩

theorem opens_four {bits : Nat} (small : bits < 5) :
    Byte.isAscii (UInt8.ofNat (bits + 0xF0)) = false ∧
      opens? (UInt8.ofNat (bits + 0xF0)) =
        some ⟨bits, 2, if bits = 0 then 0x90 else 0x80,
          if bits = 4 then 0x8F else 0xBF⟩ := by
  have every : ∀ bits : Fin 5,
      Byte.isAscii (UInt8.ofNat (bits.val + 0xF0)) = false ∧
        opens? (UInt8.ofNat (bits.val + 0xF0)) =
          some ⟨bits.val, 2, if bits.val = 0 then 0x90 else 0x80,
            if bits.val = 4 then 0x8F else 0xBF⟩ := by decide
  exact every ⟨bits, small⟩

/-! ## Characters and texts -/

section Characters

variable {value : Nat} {rest : Bytes}

theorem decodeFrom_two (least : 0x80 ≤ value) (greatest : value ≤ 0x7FF) :
    decodeFrom none (UInt8.ofNat (value / 64 % 32 + 0xC0) ::
        continuation (value % 64) :: rest) =
      Char.ofNat value :: decodeFrom none rest := by
  have high : value / 64 % 32 = value / 64 := Nat.mod_eq_of_lt (by omega)
  have low : value % 64 < 64 := Nat.mod_lt _ (by decide)
  rcases opens_two (by omega : 2 ≤ value / 64) (by omega) with ⟨wide, opened⟩
  rw [high, decodeFrom_opens wide opened,
    decodeFrom_last (awaits_unbounded _ _ low), Nat.div_add_mod' value 64]

theorem decodeFrom_three (least : 0x800 ≤ value) (greatest : value ≤ 0xFFFF)
    (noSurrogate : value < 0xD800 ∨ 0xDFFF < value) :
    decodeFrom none (UInt8.ofNat (value / 4096 % 16 + 0xE0) ::
        continuation (value / 64 % 64) :: continuation (value % 64) :: rest) =
      Char.ofNat value :: decodeFrom none rest := by
  have high : value / 4096 % 16 = value / 4096 := Nat.mod_eq_of_lt (by omega)
  have second : value / 64 % 64 < 64 := Nat.mod_lt _ (by decide)
  have low : value % 64 < 64 := Nat.mod_lt _ (by decide)
  rcases opens_three (by omega : value / 4096 < 16) with ⟨wide, opened⟩
  -- The bounds of the second byte keep out values of two bytes and surrogates.
  have notTooLong : value / 4096 = 0 → 0xA0 ≤ value / 64 % 64 + 0x80 := by omega
  have notHigh : value / 4096 = 0xD → value / 64 % 64 + 0x80 ≤ 0x9F := by omega
  have joined : (value / 4096 * 64 + value / 64 % 64) * 64 + value % 64 =
      value := by omega
  rw [high, decodeFrom_opens wide opened,
    decodeFrom_more (awaits_bounded _ _ second notTooLong notHigh),
    decodeFrom_last (awaits_unbounded _ _ low), joined]

theorem decodeFrom_four (least : 0x10000 ≤ value) (greatest : value < 0x110000) :
    decodeFrom none (UInt8.ofNat (value / 262144 % 8 + 0xF0) ::
        continuation (value / 4096 % 64) :: continuation (value / 64 % 64) ::
          continuation (value % 64) :: rest) =
      Char.ofNat value :: decodeFrom none rest := by
  have high : value / 262144 % 8 = value / 262144 :=
    Nat.mod_eq_of_lt (by omega)
  have second : value / 4096 % 64 < 64 := Nat.mod_lt _ (by decide)
  have third : value / 64 % 64 < 64 := Nat.mod_lt _ (by decide)
  have low : value % 64 < 64 := Nat.mod_lt _ (by decide)
  rcases opens_four (by omega : value / 262144 < 5) with ⟨wide, opened⟩
  have notTooLong : value / 262144 = 0 → 0x90 ≤ value / 4096 % 64 + 0x80 := by
    omega
  have notAbove : value / 262144 = 4 → value / 4096 % 64 + 0x80 ≤ 0x8F := by
    omega
  have joined : ((value / 262144 * 64 + value / 4096 % 64) * 64 +
      value / 64 % 64) * 64 + value % 64 = value := by omega
  rw [high, decodeFrom_opens wide opened,
    decodeFrom_more (awaits_bounded _ _ second notTooLong notAbove),
    decodeFrom_more (awaits_unbounded _ _ third),
    decodeFrom_last (awaits_unbounded _ _ low), joined]

end Characters

theorem decodeFrom_utf8EncodeChar_append (char : Char) (rest : Bytes) :
    decodeFrom none (String.utf8EncodeChar char ++ rest) =
      char :: decodeFrom none rest := by
  -- No character is a surrogate or above the last character.
  have valid : char.val.toNat < 0xD800 ∨
      0xDFFF < char.val.toNat ∧ char.val.toNat < 0x110000 := char.valid
  have whole : Char.ofNat char.val.toNat = char := Char.ofNat_toNat char
  rw [← congrArg (· :: decodeFrom none rest) whole]
  fun_cases String.utf8EncodeChar char with
  | case1 value one => exact decodeFrom_ascii one
  | case2 value notOne two => exact decodeFrom_two (Nat.lt_of_not_le notOne) two
  | case3 value _ notTwo three =>
      exact decodeFrom_three (Nat.lt_of_not_le notTwo) three
        (valid.imp_right And.left)
  | case4 value _ _ notThree =>
      exact decodeFrom_four (Nat.lt_of_not_le notThree) (by omega)

/-- Reading undoes writing. -/
theorem decode_encode (text : List Char) : decode (encode text) = text := by
  rw [decode]
  induction text with
  | nil => rfl
  | cons char rest induction =>
      rw [encode_cons, decodeFrom_utf8EncodeChar_append, induction]

end Lexicon.Utf8
