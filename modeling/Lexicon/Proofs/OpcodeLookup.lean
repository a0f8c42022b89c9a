import Lexicon.Command
import Lexicon.Proofs.NumeralGrammar
import Lexicon.Proofs.OpcodeNames
import Mathlib.Data.List.Forall2

/-!
# Looking up opcodes

A query is a numeral for a code, or else the name of an opcode.  Numerals are
looked at first, so a name that is a numeral is never looked for.  How a
numeral is written does not matter, and neither does the case of letters: the
letters of a mark and of hexadecimal digits are read in both cases, and a name
is looked for in lower case.

What is answered is always an opcode of the table.  By its code it is the
first one declared with it, and by its name the one with that name, of which
tables have only one.
-/

namespace Lexicon

/-! ## Letters in both cases -/

/-- The characters are equal, or one is the other one in its other case. -/
def SameLetter (left right : Char) : Prop :=
  left = right ∨ left = right.toUpper ∨ left = right.toLower

/-- The texts differ at most in the case of letters of ASCII. -/
def CaseVariant (left right : String) : Prop :=
  List.Forall₂ SameLetter left.toList right.toList

/-- The character is a capital letter of ASCII. -/
def IsCapital (char : Char) : Prop :=
  'A' ≤ char ∧ char ≤ 'Z'

namespace Letter

/-- The capital letters of ASCII. -/
def capitals : List Char :=
  (List.range' 0x41 26).map Char.ofNat

/-- The small letters of ASCII. -/
def small : List Char :=
  (List.range' 0x61 26).map Char.ofNat

theorem toLower_eq_self {char : Char} (notCapital : ¬ IsCapital char) :
    char.toLower = char :=
  dif_neg notCapital

theorem toLower_eq_self_or_mem_capitals (char : Char) :
    char.toLower = char ∨ char ∈ capitals := by
  by_cases capital : IsCapital char
  · exact Or.inr (Numeral.mem_map_ofNat_range' capital.1
      (Nat.lt_succ_of_le capital.2))
  · exact Or.inl (toLower_eq_self capital)

theorem toUpper_eq_self_or_mem_small (char : Char) :
    char.toUpper = char ∨ char ∈ small := by
  by_cases isSmall : 'a' ≤ char ∧ char ≤ 'z'
  · exact Or.inr (Numeral.mem_map_ofNat_range' isSmall.1
      (Nat.lt_succ_of_le isSmall.2))
  · exact Or.inl (dif_neg isSmall)

theorem toLower_toLower (char : Char) :
    char.toLower.toLower = char.toLower := by
  rcases toLower_eq_self_or_mem_capitals char with same | capital
  · rw [same, same]
  · have every : (capitals.all fun char =>
        char.toLower.toLower == char.toLower) = true := by decide
    exact beq_iff_eq.mp (List.all_eq_true.mp every char capital)

theorem toLower_toUpper (char : Char) :
    char.toUpper.toLower = char.toLower := by
  rcases toUpper_eq_self_or_mem_small char with same | isSmall
  · rw [same]
  · have every : (small.all fun char =>
        char.toUpper.toLower == char.toLower) = true := by decide
    exact beq_iff_eq.mp (List.all_eq_true.mp every char isSmall)

/-- Of the characters of marks and signs, only `x` is another one in lower case. -/
theorem eq_or_of_toLower_eq {char lower : Char} (same : char.toLower = lower)
    (listed : lower ∈ ['0', '+', 'x', 'X']) :
    char = lower ∨ char = 'X' ∧ lower = 'x' := by
  subst same
  rcases toLower_eq_self_or_mem_capitals char with unchanged | capital
  · exact Or.inl unchanged.symm
  · have every : (capitals.all fun char =>
        !(['0', '+', 'x', 'X'].contains char.toLower) ||
          (char == 'X' && char.toLower == 'x')) = true := by decide
    have tested := List.all_eq_true.mp every char capital
    simp only [List.contains_iff_mem.mpr listed, Bool.not_true,
      Bool.false_or, Bool.and_eq_true, beq_iff_eq] at tested
    exact Or.inr tested

end Letter

theorem SameLetter.toLower_eq {left right : Char}
    (same : SameLetter left right) : left.toLower = right.toLower := by
  rcases same with rfl | rfl | rfl
  · rfl
  · exact Letter.toLower_toUpper right
  · exact Letter.toLower_toLower right

theorem map_toLower_eq_of_forall₂ {left right : List Char}
    (variant : List.Forall₂ SameLetter left right) :
    left.map Char.toLower = right.map Char.toLower := by
  induction variant with
  | nil => rfl
  | cons here _ induction =>
      rw [List.map_cons, List.map_cons, here.toLower_eq, induction]

namespace OpcodeTable

theorem toList_lowercase (text : String) :
    (lowercase text).toList = text.toList.map Char.toLower :=
  String.toList_ofList

/-- Texts that differ in the case of letters only are the same in lower case. -/
theorem lowercase_eq_of_caseVariant {left right : String}
    (variant : CaseVariant left right) : lowercase left = lowercase right :=
  congrArg String.ofList (map_toLower_eq_of_forall₂ variant)

theorem lowercase_eq_self {text : String}
    (noCapital : ∀ char ∈ text.toList, ¬ IsCapital char) :
    lowercase text = text := by
  have same : text.toList.map Char.toLower = text.toList := by
    calc text.toList.map Char.toLower
        = text.toList.map id := List.map_congr_left fun char member =>
          Letter.toLower_eq_self (noCapital char member)
      _ = text.toList := List.map_id _
  rw [lowercase, same, String.ofList_toList]

end OpcodeTable

/-! ## Numerals in both cases -/

namespace Numeral

theorem digitValue?_toLower (char : Char) :
    digitValue? char.toLower = digitValue? char := by
  rcases Letter.toLower_eq_self_or_mem_capitals char with same | capital
  · rw [same]
  · have every : (Letter.capitals.all fun char =>
        digitValue? char.toLower == digitValue? char) = true := by decide
    exact beq_iff_eq.mp (List.all_eq_true.mp every char capital)

theorem readFrom?_map_toLower (base value : Nat) (text : List Char) :
    readFrom? base value (text.map Char.toLower) =
      readFrom? base value text := by
  induction text generalizing value with
  | nil => rfl
  | cons char rest induction =>
      simp only [List.map_cons, readFrom?, digit?, digitValue?_toLower,
        induction]

theorem natural?_map_toLower (base : Nat) (text : List Char) :
    natural? base (text.map Char.toLower) = natural? base text := by
  cases text with
  | nil => rfl
  | cons char rest => exact readFrom?_map_toLower base 0 (char :: rest)

theorem dropSign_map_toLower (text : List Char) :
    dropSign (text.map Char.toLower) = (dropSign text).map Char.toLower := by
  fun_cases dropSign text with
  | case1 rest => rfl
  | case2 text unsigned =>
      rw [dropSign]
      intro rest starts
      rcases List.map_eq_cons_iff.mp starts with ⟨char, others, rfl, isPlus, _⟩
      rcases Letter.eq_or_of_toLower_eq isPlus (by simp) with rfl | ⟨_, isMark⟩
      · exact unsigned others rfl
      · cases isMark

theorem splitBase_map_toLower (text : List Char) :
    splitBase (text.map Char.toLower) =
      ((splitBase text).1, (splitBase text).2.map Char.toLower) := by
  fun_cases splitBase text with
  | case1 rest => rfl
  | case2 rest => rfl
  | case3 text noLower noUpper =>
      have unmarked : ∀ letter rest, letter = 'x' ∨ letter = 'X' →
          text.map Char.toLower ≠ '0' :: letter :: rest := by
        intro letter rest isMark starts
        rcases List.map_eq_cons_iff.mp starts with
          ⟨first, others, rfl, isZero, next⟩
        rcases List.map_eq_cons_iff.mp next with
          ⟨second, remaining, rfl, isLetter, _⟩
        rcases Letter.eq_or_of_toLower_eq isZero (by simp) with
          rfl | ⟨_, other⟩
        · rcases Letter.eq_or_of_toLower_eq isLetter (by simp [isMark]) with
            rfl | ⟨rfl, _⟩
          · rcases isMark with rfl | rfl
            · exact noLower remaining rfl
            · exact noUpper remaining rfl
          · exact noUpper remaining rfl
        · cases other
      rw [splitBase]
      · exact fun rest => unmarked 'x' rest (Or.inl rfl)
      · exact fun rest => unmarked 'X' rest (Or.inr rfl)

/-- A numeral is read alike in lower case. -/
theorem ofString?_lowercase (text : String) :
    ofString? (OpcodeTable.lowercase text) = ofString? text := by
  rw [ofString?, OpcodeTable.toList_lowercase]
  change (natural? (splitBase (text.toList.map Char.toLower)).1
    (dropSign (splitBase (text.toList.map Char.toLower)).2)).filter _ = _
  rw [splitBase_map_toLower, dropSign_map_toLower, natural?_map_toLower]
  rfl

end Numeral

/-! ## Finding an opcode -/

namespace OpcodeTable

/-- The line of an opcode: its name, and its code in two digits in lower case. -/
def lineOf (name : String) (code : UInt8) : String :=
  name ++ " 0x" ++ String.ofList
    [Nat.digitChar (code.toNat / 16), Nat.digitChar (code.toNat % 16)]

section Finding

variable {table : OpcodeTable} {query : String}

theorem mem_of_code?_eq_some {name : String} {code : UInt8}
    (found : table.code? name = some code) : (name, code) ∈ table.pairs := by
  rcases Option.map_eq_some_iff.mp found with ⟨⟨other, _⟩, first, rfl⟩
  have sameName : other = name := by simpa using List.find?_some first
  subst sameName
  exact List.mem_reverse.mp (List.mem_of_find?_eq_some first)

theorem find_of_no_numeral (noNumeral : Numeral.ofString? query = none) :
    table.find query =
      match table.code? (lowercase query) with
      | some code => .ok (lowercase query, code)
      | none => .error (.unknownName query) := by
  cases coded : table.code? (lowercase query) with
  | none => simp only [find, noNumeral, coded]
  | some code => simp only [find, noNumeral, coded]

theorem find_of_fits {value : Nat}
    (numeral : Numeral.ofString? query = some value)
    (fits : value < UInt8.size) :
    table.find query =
      match table.name? (UInt8.ofNat value) with
      | some name => .ok (name, UInt8.ofNat value)
      | none => .error (.unusedCode (UInt8.ofNat value)) := by
  rw [find, numeral]
  exact if_pos fits

theorem find_of_not_fits {value : Nat}
    (numeral : Numeral.ofString? query = some value)
    (tooLarge : ¬ value < UInt8.size) :
    table.find query = .error (.outOfRange value) := by
  rw [find, numeral]
  exact if_neg tooLarge

/-- An opcode is found by a numeral for its code, or else by its name in lower case. -/
theorem find_eq_ok_iff {name : String} {code : UInt8} :
    table.find query = .ok (name, code) ↔
      (Numeral.ofString? query = some code.toNat ∧
          table.name? code = some name) ∨
        (Numeral.ofString? query = none ∧ lowercase query = name ∧
          table.code? name = some code) := by
  constructor
  · intro found
    cases numeral : Numeral.ofString? query with
    | none =>
        rw [find_of_no_numeral numeral] at found
        split at found
        case h_1 coded =>
          cases found
          exact Or.inr ⟨rfl, rfl, coded⟩
        case h_2 => cases found
    | some value =>
        by_cases fits : value < UInt8.size
        · rw [find_of_fits numeral fits] at found
          split at found
          case h_1 named =>
            cases found
            rw [UInt8.toNat_ofNat_of_lt' fits]
            exact Or.inl ⟨rfl, named⟩
          case h_2 => cases found
        · rw [find_of_not_fits numeral fits] at found
          cases found
  · rintro (⟨numeral, named⟩ | ⟨noNumeral, rfl, coded⟩)
    · rw [find_of_fits numeral code.toNat_lt, UInt8.ofNat_toNat, named]
    · rw [find_of_no_numeral noNumeral, coded]

theorem mem_of_find {pair : String × UInt8}
    (found : table.find query = .ok pair) : pair ∈ table.pairs := by
  rcases find_eq_ok_iff.mp found with ⟨_, named⟩ | ⟨_, _, coded⟩
  · exact (name?_eq_some_iff_isFirst.mp named).mem
  · exact mem_of_code?_eq_some coded

theorem find_of_unused {value : Nat}
    (numeral : Numeral.ofString? query = some value)
    (unused : ∀ pair ∈ table.pairs, pair.2.toNat ≠ value) :
    ∃ error, table.find query = .error error := by
  cases found : table.find query with
  | error error => exact ⟨error, rfl⟩
  | ok pair =>
      rcases find_eq_ok_iff.mp found with ⟨coded, _⟩ | ⟨noNumeral, _⟩
      · rw [numeral] at coded
        exact absurd (Option.some.inj coded).symm
          (unused pair (mem_of_find found))
      · rw [numeral] at noNumeral
        cases noNumeral

/-- Numerals for one value have one answer, or one error. -/
theorem find_eq_of_numeral {other : String} {value : Nat}
    (numeral : Numeral.ofString? query = some value)
    (otherNumeral : Numeral.ofString? other = some value) :
    table.find query = table.find other := by
  rw [find, numeral, find, otherNumeral]

theorem toOption_eq_some_iff {ε α : Type} {result : Except ε α} {value : α} :
    result.toOption = some value ↔ result = .ok value := by
  cases result with
  | error _ => simp [Except.toOption]
  | ok _ => simp [Except.toOption]

/-- The answer does not depend on the case of letters. -/
theorem find_caseVariant {other : String} (variant : CaseVariant query other) :
    (table.find query).toOption = (table.find other).toOption := by
  have same := lowercase_eq_of_caseVariant variant
  have sameNumeral : Numeral.ofString? query = Numeral.ofString? other := by
    rw [← Numeral.ofString?_lowercase query, same,
      Numeral.ofString?_lowercase]
  ext pair
  rw [toOption_eq_some_iff, toOption_eq_some_iff, find_eq_ok_iff,
    find_eq_ok_iff, same, sameNumeral]

end Finding

/-- Where a code is used, some opcode is the first with it. -/
theorem exists_isFirst_of_mem {table : OpcodeTable} {name : String}
    {code : UInt8} (member : (name, code) ∈ table.pairs) :
    ∃ first, IsFirst (fun pair => pair.2 = code) table.pairs
      (first, code) := by
  cases named : table.name? code with
  | none =>
      have nothing := List.find?_eq_none.mp (Option.map_eq_none_iff.mp named)
      exact absurd (beq_self_eq_true code) (nothing _ member)
  | some first => exact ⟨first, name?_eq_some_iff_isFirst.mp named⟩

end OpcodeTable

/-! ## The line of a query -/

namespace Command

open OpcodeTable

theorem lineOf_eq (name : String) (code : UInt8) :
    name ++ " " ++ Hex.byte code = lineOf name code := by
  have joined : name ++ " " ++ "0x" = name ++ " 0x" := by
    rw [String.append_assoc]
    rfl
  rw [Hex.byte, ← String.append_assoc, joined]
  rfl

section Lines

variable {tokenizer : Tokenizer} {query : String}

theorem opcodeLine_of_find {name : String} {code : UInt8}
    (found : (ofCatalog tokenizer.catalog).find query = .ok (name, code)) :
    opcodeLine tokenizer query = .ok (lineOf name code) := by
  rw [opcodeLine, found, ← lineOf_eq]
  rfl

theorem exists_mem_of_opcodeLine {line : String}
    (answered : opcodeLine tokenizer query = .ok line) :
    ∃ name code, (name, code) ∈ (ofCatalog tokenizer.catalog).pairs ∧
      line = lineOf name code := by
  cases found : (ofCatalog tokenizer.catalog).find query with
  | error error =>
      rw [opcodeLine, found] at answered
      cases answered
  | ok pair =>
      rw [opcodeLine_of_find found] at answered
      cases answered
      exact ⟨pair.1, pair.2, mem_of_find found, rfl⟩

theorem toOption_opcodeLine (tokenizer : Tokenizer) (query : String) :
    (opcodeLine tokenizer query).toOption =
      ((ofCatalog tokenizer.catalog).find query).toOption.map fun pair =>
        lineOf pair.1 pair.2 := by
  cases found : (ofCatalog tokenizer.catalog).find query with
  | error error =>
      rw [opcodeLine, found]
      rfl
  | ok pair =>
      rw [opcodeLine_of_find found]
      rfl

end Lines

/--
Queries for opcodes are answered soundly, in either case of letters and for
every way to write a code.  An answer is the line of an opcode of the table.
Queries that differ in the case of letters only have the same answer, or none
of them has one.  Numerals with the same value are answered alike: with the
first opcode declared with that code if there is one, and otherwise with an
error.  An opcode whose name has no capital letter and is not a numeral is
found by its name in any case.
-/
theorem opcodeLine_sound_and_caseless {tables : List Table}
    {tokenizer : Tokenizer}
    (built : Tokenizer.ofTables tables = .ok tokenizer) :
    (∀ query line, opcodeLine tokenizer query = .ok line →
      ∃ name code, (name, code) ∈ (ofCatalog tokenizer.catalog).pairs ∧
        line = lineOf name code) ∧
      (∀ left right, CaseVariant left right →
        (opcodeLine tokenizer left).toOption =
          (opcodeLine tokenizer right).toOption) ∧
      (∀ left right value, Numeral.ofString? left = some value →
        Numeral.ofString? right = some value →
          opcodeLine tokenizer left = opcodeLine tokenizer right) ∧
      (∀ query value, Numeral.ofString? query = some value →
        (∀ name code, (name, code) ∈ (ofCatalog tokenizer.catalog).pairs →
          code.toNat = value →
            ∃ first, IsFirst (fun pair => pair.2 = code)
                (ofCatalog tokenizer.catalog).pairs (first, code) ∧
              opcodeLine tokenizer query = .ok (lineOf first code)) ∧
        ((∀ pair ∈ (ofCatalog tokenizer.catalog).pairs,
            pair.2.toNat ≠ value) →
          ∃ error, opcodeLine tokenizer query = .error error)) ∧
      ∀ name code, (name, code) ∈ (ofCatalog tokenizer.catalog).pairs →
        (∀ char ∈ name.toList, ¬ IsCapital char) →
        Numeral.ofString? name = none →
          ∀ query, CaseVariant query name →
            opcodeLine tokenizer query = .ok (lineOf name code) := by
  refine ⟨?_, ?_, ?_, ?_, ?_⟩
  · intro query line answered
    exact exists_mem_of_opcodeLine answered
  · intro left right variant
    rw [toOption_opcodeLine, toOption_opcodeLine, find_caseVariant variant]
  · intro left right value numeral otherNumeral
    rw [opcodeLine, opcodeLine, find_eq_of_numeral numeral otherNumeral]
  · intro query value numeral
    constructor
    · rintro name code member rfl
      rcases exists_isFirst_of_mem member with ⟨first, isFirst⟩
      have named := name?_eq_some_iff_isFirst.mpr isFirst
      exact ⟨first, isFirst, opcodeLine_of_find
        (find_eq_ok_iff.mpr (Or.inl ⟨numeral, named⟩))⟩
    · intro unused
      rcases find_of_unused numeral unused with ⟨error, failed⟩
      exact ⟨error, by rw [opcodeLine, failed]; rfl⟩
  · intro name code member noCapital noNumeral query variant
    have distinct := nodup_names_of_ofTables
      (Tokenizer.catalog_of_ofTables built)
    have same : lowercase query = name :=
      (lowercase_eq_of_caseVariant variant).trans (lowercase_eq_self noCapital)
    apply opcodeLine_of_find
    apply find_eq_ok_iff.mpr
    refine Or.inr ⟨?_, same, code?_eq_some_of_mem distinct member⟩
    rw [← Numeral.ofString?_lowercase query, same, noNumeral]

/-- Two names share a code: each is found by its name, and the first one by the code. -/
theorem opcodeLine_sound_and_caseless_shared :
    ∃ tokenizer,
      Tokenizer.ofTables [⟨.opcode, "codes", "add 0x01\nplus 1",
        .wordValue, .wholeWord⟩] = .ok tokenizer ∧
        opcodeLine tokenizer "PLUS" = .ok "plus 0x01" ∧
        (opcodeLine tokenizer "Plus").toOption =
          (opcodeLine tokenizer "pLUS").toOption ∧
        opcodeLine tokenizer "0X1" = opcodeLine tokenizer "+01" ∧
        opcodeLine tokenizer "0X1" = .ok "add 0x01" ∧
        (∃ error, opcodeLine tokenizer "256" = .error error) := by
  have runs : ∃ tokenizer,
      Tokenizer.ofTables [⟨.opcode, "codes", "add 0x01\nplus 1",
        .wordValue, .wholeWord⟩] = .ok tokenizer ∧
        (ofCatalog tokenizer.catalog).pairs = [("add", 1), ("plus", 1)] :=
    ⟨_, rfl, rfl⟩
  rcases runs with ⟨tokenizer, built, pairs_eq⟩
  rcases opcodeLine_sound_and_caseless built with
    ⟨sound, caseless, alike, byCode, byName⟩
  rw [pairs_eq] at byCode byName
  refine ⟨tokenizer, built, ?_, ?_, ?_, ?_, ?_⟩
  · refine byName "plus" 1 (by simp) ?_ ?_ "PLUS" ?_
    · simp [IsCapital]
    · decide
    · simp [CaseVariant, SameLetter]
  · apply caseless
    simp [CaseVariant, SameLetter]
  · exact alike "0X1" "+01" 1 (by decide) (by decide)
  · rcases (byCode "0X1" 1 (by decide)).1 "plus" 1 (by simp) rfl with
      ⟨first, ⟨before, after, split, _, earlier⟩, answered⟩
    cases before with
    | nil =>
        cases split
        exact answered
    | cons other rest =>
        have isAdd : other = ("add", 1) := (List.cons.inj split).1.symm
        exact absurd (congrArg Prod.snd isAdd)
          (earlier other List.mem_cons_self)
  · exact (byCode "256" 256 (by decide)).2 (by simp)

end Command

end Lexicon
