import Lexicon.Text.Byte

/-!
# UTF-8

Text is written as bytes by the encoding of each character in turn.  Reading
is total: bytes that are no text are replaced.  The reader goes through the
bytes one at a time and remembers at most one unfinished character.  A byte
that cannot continue it ends it, so each longest beginning of a character
that is not completed counts as one replacement character.
-/

namespace Lexicon.Utf8

/-- The bytes of a text. -/
def encode (text : List Char) : Bytes :=
  text.flatMap String.utf8EncodeChar

/-- The bytes of a string. -/
def ofString (text : String) : Bytes :=
  encode text.toList

@[simp]
theorem encode_nil : encode [] = [] := rfl

@[simp]
theorem encode_cons (head : Char) (tail : List Char) :
    encode (head :: tail) = String.utf8EncodeChar head ++ encode tail := by
  simp [encode]

@[simp]
theorem encode_append (left right : List Char) :
    encode (left ++ right) = encode left ++ encode right := by
  simp [encode]

/-- The byte string is the encoding of some text. -/
def Valid (bytes : Bytes) : Prop :=
  ∃ text, encode text = bytes

/-- The offset lies between two characters of an encoded text, or at one of its ends. -/
def IsBoundary (bytes : Bytes) (offset : Nat) : Prop :=
  ∃ before after, encode (before ++ after) = bytes ∧ (encode before).length = offset

/-! ## Reading with replacement -/

/-- What stands for bytes that are no character. -/
def replacement : Char := '\ufffd'

/-- A character of which some bytes are read and the next one is due. -/
structure Pending where
  /-- The value of the bits read so far. -/
  value : Nat
  /-- How many bytes are due after the next one. -/
  remaining : Nat
  /-- The least byte that may come next. -/
  least : UInt8
  /-- The greatest byte that may come next. -/
  greatest : UInt8
deriving DecidableEq

/-- The characters completed by a byte, and the one that it leaves unfinished. -/
abbrev Progress := List Char × Option Pending

/--
The character that a first byte opens.  The bounds on the second byte exclude
encodings that are too long, surrogates and values above the last character.
-/
def opens? (byte : UInt8) : Option Pending :=
  if 0xC2 ≤ byte && byte ≤ 0xDF then some ⟨byte.toNat % 32, 0, 0x80, 0xBF⟩
  else if byte == 0xE0 then some ⟨0, 1, 0xA0, 0xBF⟩
  else if byte == 0xED then some ⟨0xD, 1, 0x80, 0x9F⟩
  else if 0xE1 ≤ byte && byte ≤ 0xEF then some ⟨byte.toNat % 16, 1, 0x80, 0xBF⟩
  else if byte == 0xF0 then some ⟨0, 2, 0x90, 0xBF⟩
  else if 0xF1 ≤ byte && byte ≤ 0xF3 then some ⟨byte.toNat % 8, 2, 0x80, 0xBF⟩
  else if byte == 0xF4 then some ⟨4, 2, 0x80, 0x8F⟩
  else none

/-- Read a byte where a character starts. -/
def start (byte : UInt8) : Progress :=
  if Byte.isAscii byte then ([Char.ofNat byte.toNat], none)
  else match opens? byte with
    | some pending => ([], some pending)
    | none => ([replacement], none)

namespace Pending

/-- The byte continues the character. -/
def accepts (pending : Pending) (byte : UInt8) : Bool :=
  pending.least ≤ byte && byte ≤ pending.greatest

/-- Read a byte that continues the character. -/
def extend (pending : Pending) (byte : UInt8) : Progress :=
  let value := pending.value * 64 + byte.toNat % 64
  match pending.remaining with
  | 0 => ([Char.ofNat value], none)
  | remaining + 1 => ([], some ⟨value, remaining, 0x80, 0xBF⟩)

end Pending

/-- Read one byte. -/
def step : Option Pending → UInt8 → Progress
  | none, byte => start byte
  | some pending, byte =>
      if pending.accepts byte then pending.extend byte
      else (replacement :: (start byte).1, (start byte).2)

/-- Read the bytes that follow an unfinished character, if there is one. -/
def decodeFrom : Option Pending → Bytes → List Char
  | none, [] => []
  | some _, [] => [replacement]
  | state, byte :: rest =>
      (step state byte).1 ++ decodeFrom (step state byte).2 rest

/-- The text of a byte string, with replacement of what is no text. -/
def decode (bytes : Bytes) : List Char :=
  decodeFrom none bytes

/-- The text of a byte string as a string. -/
def text (bytes : Bytes) : String :=
  String.ofList (decode bytes)

end Lexicon.Utf8
