import Lexicon.Proofs.NumeralSpelling
import Lexicon.Text.Hex

/-!
# Which texts are numerals

A text is read as a numeral exactly if it is written as one: a mark for the
base or none, perhaps a plus sign, and one or more digits whose value fits in
32 bits.  Every other text is refused.

Digits are read into a number without a bound, and only their whole value is
compared with the greatest one.  A reader that holds the value in 32 bits and
gives up at the first step that does not fit gives the same answers.  The
value never gets smaller on the way, so what has overflowed stays too large,
and zeros in front change nothing.
-/

namespace Lexicon.Numeral

/-! ## From characters to digits -/

theorem mem_map_ofNat_range' {char : Char} {low count : Nat}
    (atLeast : low ≤ char.toNat) (below : char.toNat < low + count) :
    char ∈ (List.range' low count).map Char.ofNat := by
  refine List.mem_map.mpr ⟨char.toNat, ?_, Char.ofNat_toNat char⟩
  exact List.mem_range'_1.mpr ⟨atLeast, below⟩

theorem Digit.mem_characters_of_digitValue? {char : Char} {value : Nat}
    (found : digitValue? char = some value) : char ∈ characters := by
  have listed : characters =
      (List.range' 0x30 10).map Char.ofNat ++
        ((List.range' 0x61 6).map Char.ofNat ++
          (List.range' 0x41 6).map Char.ofNat) := by decide
  rw [listed]
  revert found
  fun_cases digitValue? char with
  | case1 bounds =>
      intro _
      exact List.mem_append_left _
        (mem_map_ofNat_range' bounds.1 (Nat.lt_succ_of_le bounds.2))
  | case2 _ bounds =>
      intro _
      exact List.mem_append_right _ (List.mem_append_left _
        (mem_map_ofNat_range' bounds.1 (Nat.lt_succ_of_le bounds.2)))
  | case3 _ _ bounds =>
      intro _
      exact List.mem_append_right _ (List.mem_append_right _
        (mem_map_ofNat_range' bounds.1 (Nat.lt_succ_of_le bounds.2)))
  | case4 => simp

/-- A character with a value in a base is the character of a digit. -/
theorem exists_digit_of_digit? {base : Nat} {char : Char} {value : Nat}
    (found : digit? base char = some value) :
    ∃ digit : Digit base, digit.char = char ∧ digit.value = value := by
  rcases Option.filter_eq_some_iff.mp found with ⟨valued, small⟩
  have every : (Digit.characters.all fun char => decide
      (∃ value : Fin 16, ∃ upper : Bool,
        (Digit.mk value.val upper value.isLt).char = char)) = true := by
    decide
  have written := List.all_eq_true.mp every char
    (Digit.mem_characters_of_digitValue? valued)
  rcases of_decide_eq_true written with ⟨digit, upper, same⟩
  have sameValue : digit.val = value := by
    have read := Digit.digitValue?_char le_rfl (Digit.mk digit.val upper digit.isLt)
    rw [same, valued] at read
    exact (Option.some.inj read).symm
  subst sameValue
  exact ⟨⟨digit.val, upper, of_decide_eq_true small⟩, same, rfl⟩

theorem exists_digits_of_readFrom? {base value result : Nat}
    {text : List Char} (read : readFrom? base value text = some result) :
    ∃ digits : List (Digit base), digits.map Digit.char = text := by
  induction text generalizing value with
  | nil => exact ⟨[], rfl⟩
  | cons char rest induction =>
      rw [readFrom?] at read
      split at read
      case h_1 found =>
        rcases exists_digit_of_digit? found with ⟨first, sameFirst, _⟩
        rcases induction read with ⟨others, sameOthers⟩
        exact ⟨first :: others, by rw [List.map_cons, sameFirst, sameOthers]⟩
      case h_2 => cases read

/-- What is read as digits consists of digits and has their value. -/
theorem natural?_eq_some_iff {base : Nat} (small : base ≤ 16)
    {text : List Char} {value : Nat} :
    natural? base text = some value ↔
      ∃ digits : List (Digit base), digits ≠ [] ∧
        digits.map Digit.char = text ∧ Digit.valueOf digits = value := by
  constructor
  · intro read
    cases text with
    | nil => cases read
    | cons char rest =>
        rcases exists_digits_of_readFrom? read with ⟨digits, same⟩
        have nonempty : digits ≠ [] := by
          rintro rfl
          cases same
        rw [← same, natural?_map_char small nonempty] at read
        exact ⟨digits, nonempty, same, Option.some.inj read⟩
  · rintro ⟨digits, nonempty, rfl, rfl⟩
    exact natural?_map_char small nonempty

/-! ## From texts to numerals -/

theorem exists_mark_of_splitBase (text : List Char) :
    ∃ mark : Mark, mark.base = (splitBase text).1 ∧
      mark.text ++ (splitBase text).2 = text := by
  fun_cases splitBase text with
  | case1 rest => exact ⟨.hexLower, rfl, rfl⟩
  | case2 rest => exact ⟨.hexUpper, rfl, rfl⟩
  | case3 => exact ⟨.decimal, rfl, rfl⟩

theorem exists_sign_of_dropSign (text : List Char) :
    ∃ signed : Bool,
      (if signed then ['+'] else []) ++ dropSign text = text := by
  fun_cases dropSign text with
  | case1 rest => exact ⟨true, rfl⟩
  | case2 => exact ⟨false, rfl⟩

/-- The texts that are read as a value are the numerals with that value. -/
theorem read?_eq_some_iff {text : List Char} {value : Nat} :
    read? text = some value ↔
      ∃ spelling : Spelling, spelling.text = text ∧
        spelling.value = value := by
  constructor
  · intro read
    rcases exists_mark_of_splitBase text with ⟨mark, base_eq, marked⟩
    rcases exists_sign_of_dropSign (splitBase text).2 with ⟨signed, isSigned⟩
    have read : (natural? (splitBase text).1
        (dropSign (splitBase text).2)).filter (· ≤ maxValue) = some value :=
      read
    rw [← base_eq] at read
    rcases Option.filter_eq_some_iff.mp read with ⟨natural, fits⟩
    rcases (natural?_eq_some_iff mark.base_le).mp natural with
      ⟨digits, nonempty, written, valued⟩
    have bounded : Digit.valueOf digits ≤ maxValue := by
      rw [valued]
      exact of_decide_eq_true fits
    refine ⟨⟨mark, signed, digits, nonempty, bounded⟩, ?_, valued⟩
    rw [Spelling.text, Spelling.sign, written, isSigned, marked]
  · rintro ⟨spelling, rfl, rfl⟩
    exact spelling.read?_text

/-! ## Zeros in front -/

theorem Digit.valueOf_replicate_zero_append {base : Nat} (zero : Digit base)
    (isZero : zero.value = 0) (zeros : Nat) (digits : List (Digit base)) :
    valueOf (List.replicate zeros zero ++ digits) = valueOf digits := by
  induction zeros with
  | zero => rfl
  | succ zeros induction =>
      rw [List.replicate_succ, List.cons_append, valueOf_cons, induction,
        isZero, Nat.mul_zero, Nat.add_zero]

namespace Spelling

/-- The digit zero in the base of a numeral. -/
def zero (spelling : Spelling) : Digit spelling.mark.base where
  value := 0
  upper := false
  value_lt := by cases spelling.mark <;> decide

/-- The numeral with more zeros before its digits. -/
def padded (spelling : Spelling) (zeros : Nat) : Spelling where
  mark := spelling.mark
  signed := spelling.signed
  digits := List.replicate zeros spelling.zero ++ spelling.digits
  nonempty := by simp [spelling.nonempty]
  fits := by
    rw [Digit.valueOf_replicate_zero_append _ rfl]
    exact spelling.fits

theorem value_padded (spelling : Spelling) (zeros : Nat) :
    (spelling.padded zeros).value = spelling.value :=
  Digit.valueOf_replicate_zero_append _ rfl zeros spelling.digits

theorem text_padded (spelling : Spelling) (zeros : Nat) :
    (spelling.padded zeros).text = spelling.mark.text ++
      (spelling.sign ++
        (List.replicate zeros '0' ++ spelling.digits.map Digit.char)) := by
  have zeroDigits : (List.replicate zeros spelling.zero).map Digit.char =
      List.replicate zeros '0' :=
    List.map_replicate
  have allDigits : (spelling.padded zeros).digits.map Digit.char =
      List.replicate zeros '0' ++ spelling.digits.map Digit.char := by
    rw [← zeroDigits]
    exact List.map_append
  rw [text, allDigits]
  rfl

end Spelling

/-! ## Numbers as they are printed -/

/-- The character of a digit in the case that is asked for. -/
def Digit.inCase (upper : Bool) (char : Char) : Char :=
  if upper then char.toUpper else char

theorem readFrom?_append (base value : Nat) (front back : List Char) :
    readFrom? base value (front ++ back) =
      (readFrom? base value front).bind fun next =>
        readFrom? base next back := by
  induction front generalizing value with
  | nil => rfl
  | cons char rest induction =>
      simp only [List.cons_append, readFrom?]
      cases digit? base char with
      | none => rfl
      | some digit => exact induction _

section Printing

variable {base : Nat} (large : 1 < base) (small : base ≤ 16) (upper : Bool)
include large small

theorem readFrom?_toDigits (number : Nat) :
    readFrom? base 0 ((Nat.toDigits base number).map (Digit.inCase upper)) =
      some number := by
  have reads : ∀ digit, digit < base →
      digit? base (Digit.inCase upper (Nat.digitChar digit)) = some digit :=
    fun digit below => Digit.digit?_char small ⟨digit, upper, below⟩
  induction number using Nat.strong_induction_on with
  | _ number induction =>
      by_cases single : number < base
      · rw [Nat.toDigits_of_lt_base single]
        simp [readFrom?, reads number single]
      · have least : base ≤ number := Nat.le_of_not_lt single
        have smaller : number / base < number :=
          Nat.div_lt_self (by omega) large
        have last := reads _ (Nat.mod_lt number (by omega : 0 < base))
        rw [Nat.toDigits_of_base_le large least, List.map_append,
          readFrom?_append, induction _ smaller, Option.bind_some]
        simp only [List.map_singleton, readFrom?, last]
        rw [Nat.mul_comm, Nat.div_add_mod]

/-- The digits of a number are read back, in whichever case they are written. -/
theorem natural?_toDigits (number : Nat) :
    natural? base ((Nat.toDigits base number).map (Digit.inCase upper)) =
      some number := by
  have read := readFrom?_toDigits large small upper number
  cases digits : (Nat.toDigits base number).map (Digit.inCase upper) with
  | nil => exact absurd digits (by simp [Nat.toDigits_ne_nil])
  | cons char rest => rwa [digits] at read

end Printing

/-- Digits after a mark are a numeral without a sign. -/
theorem read?_mark_append (mark : Mark) {digits : List Char} {value : Nat}
    (natural : natural? mark.base digits = some value)
    (fits : value ≤ maxValue) : read? (mark.text ++ digits) = some value := by
  rcases (natural?_eq_some_iff mark.base_le).mp natural with
    ⟨written, nonempty, rfl, rfl⟩
  exact read?_eq_some_iff.mpr
    ⟨⟨mark, false, written, nonempty, fits⟩, rfl, rfl⟩

section Printed

variable {number : Nat} (fits : number ≤ maxValue)
include fits

theorem ofString?_toString : ofString? (toString number) = some number := by
  have read := natural?_toDigits (by decide : 1 < 10) (by decide) false number
  have plain : (Nat.toDigits 10 number).map (Digit.inCase false) =
      Nat.toDigits 10 number := List.map_id _
  rw [plain] at read
  rw [ofString?, Nat.toString_eq_ofList_toDigits, String.toList_ofList]
  exact read?_mark_append .decimal read fits

theorem ofString?_hexLower :
    ofString? ("0x" ++ Hex.lower number) = some number := by
  have read := natural?_toDigits (by decide : 1 < 16) (by decide) false number
  have plain : (Nat.toDigits 16 number).map (Digit.inCase false) =
      Nat.toDigits 16 number := List.map_id _
  have written : ("0x" ++ Hex.lower number).toList =
      Mark.hexLower.text ++ Nat.toDigits 16 number := by
    simp [Hex.lower, Mark.text]
  rw [plain] at read
  rw [ofString?, written]
  exact read?_mark_append .hexLower read fits

theorem ofString?_hexUpper :
    ofString? ("0X" ++ Hex.upper number) = some number := by
  have read := natural?_toDigits (by decide : 1 < 16) (by decide) true number
  have written : ("0X" ++ Hex.upper number).toList =
      Mark.hexUpper.text ++
        (Nat.toDigits 16 number).map (Digit.inCase true) := by
    simp [Hex.upper, Mark.text, Digit.inCase]
  rw [ofString?, written]
  exact read?_mark_append .hexUpper read fits

end Printed

/-! ## Reading in 32 bits -/

/-- The product of two words, if it is a word. -/
def multiply? (left right : UInt32) : Option UInt32 :=
  if left.toNat * right.toNat < UInt32.size then some (left * right) else none

/-- The sum of two words, if it is a word. -/
def add? (left right : UInt32) : Option UInt32 :=
  if left.toNat + right.toNat < UInt32.size then some (left + right) else none

/-- Append a digit to those that make up a word. -/
def appendDigit? (base : Nat) (word : UInt32) (digit : Nat) :
    Option UInt32 :=
  (multiply? word (UInt32.ofNat base)).bind fun product =>
    add? product (UInt32.ofNat digit)

/-- Read digits after those that make up a word, as long as the value fits in one. -/
def readWordFrom? (base : Nat) (word : UInt32) : List Char → Option UInt32
  | [] => some word
  | char :: rest =>
      match digit? base char with
      | some digit =>
          match appendDigit? base word digit with
          | some next => readWordFrom? base next rest
          | none => none
      | none => none

/-- The value of a numeral, held in a word all the time. -/
def readWord? (text : List Char) : Option UInt32 :=
  match dropSign (splitBase text).2 with
  | [] => none
  | digits => readWordFrom? (splitBase text).1 0 digits

section Words

variable {base : Nat} {word : UInt32} {digit : Nat}

theorem toNat_ofNat_of_le_sixteen {number : Nat} (small : number ≤ 16) :
    (UInt32.ofNat number).toNat = number :=
  UInt32.toNat_ofNat_of_lt' (small.trans_lt (by decide))

theorem toNat_mul_of_lt {left right : UInt32}
    (fits : left.toNat * right.toNat < UInt32.size) :
    (left * right).toNat = left.toNat * right.toNat :=
  (UInt32.toNat_mul left right).trans (Nat.mod_eq_of_lt fits)

theorem toNat_add_of_lt {left right : UInt32}
    (fits : left.toNat + right.toNat < UInt32.size) :
    (left + right).toNat = left.toNat + right.toNat :=
  (UInt32.toNat_add left right).trans (Nat.mod_eq_of_lt fits)

theorem appendDigit?_of_le (smallBase : base ≤ 16) (smallDigit : digit ≤ 16)
    (fits : word.toNat * base + digit ≤ maxValue) :
    ∃ next, appendDigit? base word digit = some next ∧
      next.toNat = word.toNat * base + digit := by
  have sumFits : word.toNat * base + digit < UInt32.size :=
    Nat.lt_succ_of_le fits
  have productFits : word.toNat * base < UInt32.size :=
    (Nat.le_add_right _ _).trans_lt sumFits
  rw [← toNat_ofNat_of_le_sixteen smallBase,
    ← toNat_ofNat_of_le_sixteen smallDigit] at sumFits
  rw [← toNat_ofNat_of_le_sixteen smallBase] at productFits
  have product_eq := toNat_mul_of_lt productFits
  rw [← product_eq] at sumFits
  have sum_eq := toNat_add_of_lt sumFits
  refine ⟨word * UInt32.ofNat base + UInt32.ofNat digit, ?_, ?_⟩
  · rw [appendDigit?, multiply?, if_pos productFits, Option.bind_some, add?,
      if_pos sumFits]
  · rw [sum_eq, product_eq, toNat_ofNat_of_le_sixteen smallBase,
      toNat_ofNat_of_le_sixteen smallDigit]

theorem appendDigit?_of_lt (smallBase : base ≤ 16) (smallDigit : digit ≤ 16)
    (overflows : maxValue < word.toNat * base + digit) :
    appendDigit? base word digit = none := by
  rw [← toNat_ofNat_of_le_sixteen smallBase,
    ← toNat_ofNat_of_le_sixteen smallDigit] at overflows
  rw [appendDigit?, multiply?]
  split
  case isTrue productFits =>
    rw [← toNat_mul_of_lt productFits] at overflows
    have tooLarge : ¬ (word * UInt32.ofNat base).toNat +
        (UInt32.ofNat digit).toNat < UInt32.size := Nat.not_lt.mpr overflows
    rw [Option.bind_some, add?, if_neg tooLarge]
  case isFalse => rfl

end Words

/-- The value of the digits read so far never gets smaller. -/
theorem le_of_readFrom? {base value result : Nat} (positive : 0 < base)
    {text : List Char} (read : readFrom? base value text = some result) :
    value ≤ result := by
  induction text generalizing value with
  | nil => exact (Option.some.inj read).le
  | cons char rest induction =>
      rw [readFrom?] at read
      split at read
      case h_1 digit _ =>
        calc value ≤ value * base := Nat.le_mul_of_pos_right value positive
          _ ≤ value * base + digit := Nat.le_add_right _ _
          _ ≤ result := induction read
      case h_2 => cases read

theorem filter_readFrom?_of_lt {base value : Nat} (positive : 0 < base)
    (tooLarge : maxValue < value) (text : List Char) :
    (readFrom? base value text).filter (· ≤ maxValue) = none := by
  cases read : readFrom? base value text with
  | none => rfl
  | some result =>
      have larger := tooLarge.trans_le (le_of_readFrom? positive read)
      simp [Option.filter_some, larger]

/-- A word holds every value on the way to one that fits. -/
theorem readWordFrom?_eq {base : Nat} (positive : 0 < base)
    (small : base ≤ 16) (word : UInt32) (text : List Char) :
    (readWordFrom? base word text).map UInt32.toNat =
      (readFrom? base word.toNat text).filter (· ≤ maxValue) := by
  induction text generalizing word with
  | nil =>
      have fits : word.toNat ≤ maxValue := Nat.le_of_lt_succ word.toNat_lt
      simp [readWordFrom?, readFrom?, Option.filter_some, fits]
  | cons char rest induction =>
      rw [readWordFrom?, readFrom?]
      cases found : digit? base char with
      | none => rfl
      | some digit =>
          rcases exists_digit_of_digit? found with ⟨written, _, rfl⟩
          have smallDigit := written.value_lt.le.trans small
          dsimp only
          rcases Nat.lt_or_ge maxValue
            (word.toNat * base + written.value) with overflows | fits
          · rw [appendDigit?_of_lt small smallDigit overflows]
            exact (filter_readFrom?_of_lt positive overflows rest).symm
          · rcases appendDigit?_of_le small smallDigit fits with
              ⟨next, appended, next_eq⟩
            rw [appended, ← next_eq]
            exact induction next

theorem map_toNat_readWord? (text : List Char) :
    (readWord? text).map UInt32.toNat = read? text := by
  rcases exists_mark_of_splitBase text with ⟨mark, base_eq, _⟩
  have positive : 0 < (splitBase text).1 := by
    rw [← base_eq]
    cases mark <;> decide
  have small : (splitBase text).1 ≤ 16 := by
    rw [← base_eq]
    exact mark.base_le
  rw [readWord?]
  change _ = (natural? (splitBase text).1
    (dropSign (splitBase text).2)).filter (· ≤ maxValue)
  cases dropSign (splitBase text).2 with
  | nil => rfl
  | cons char rest =>
      exact readWordFrom?_eq positive small 0 (char :: rest)

/-! ## The grammar -/

/--
The reader of numerals accepts exactly the numerals.  A text has a value if
and only if it consists of a mark `0x` or `0X` and hexadecimal digits, or of
decimal digits without a mark, with at most one plus sign before them; the
value is that of the digits and fits in 32 bits.  A word of 32 bits is enough
to read it.  Zeros may be put before the digits.  The decimal digits of every
word are read back to it, and so are its hexadecimal digits in lower case
after `0x` and in upper case after `0X`.
-/
theorem ofString?_eq_some_iff_spelling :
    (∀ text value, ofString? text = some value ↔
      value ≤ maxValue ∧ ∃ spelling : Spelling,
        spelling.text = text.toList ∧ spelling.value = value) ∧
      (∀ text : String,
        (readWord? text.toList).map UInt32.toNat = ofString? text) ∧
      (∀ (spelling : Spelling) (zeros : Nat),
        read? (spelling.mark.text ++ (spelling.sign ++
          (List.replicate zeros '0' ++ spelling.digits.map Digit.char))) =
            some spelling.value) ∧
      ∀ word : UInt32,
        ofString? (toString word.toNat) = some word.toNat ∧
          ofString? ("0x" ++ Hex.lower word.toNat) = some word.toNat ∧
          ofString? ("0X" ++ Hex.upper word.toNat) = some word.toNat := by
  refine ⟨?_, ?_, ?_, ?_⟩
  · intro text value
    rw [ofString?, read?_eq_some_iff]
    constructor
    · rintro ⟨spelling, written, rfl⟩
      exact ⟨spelling.fits, spelling, written, rfl⟩
    · rintro ⟨_, spelling⟩
      exact spelling
  · intro text
    exact map_toNat_readWord? text.toList
  · intro spelling zeros
    rw [← spelling.text_padded, Spelling.read?_text, Spelling.value_padded]
  · intro word
    have fits : word.toNat ≤ maxValue := Nat.le_of_lt_succ word.toNat_lt
    exact ⟨ofString?_toString fits, ofString?_hexLower fits,
      ofString?_hexUpper fits⟩

/-- The greatest value with a sign and zeros, the next value, and two signs. -/
example : read? "0X+00fFfFfFfF".toList = some 0xFFFFFFFF ∧
    read? "4294967296".toList = none ∧ read? "0x".toList = none ∧
    read? "++1".toList = none ∧ read? "+0x1".toList = none := by
  decide

end Lexicon.Numeral
