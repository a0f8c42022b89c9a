import Lexicon.Proofs.NumericTokens

/-!
# Names and codes of opcodes

The table of opcodes maps names to codes and codes to names.  Two opcodes may
share a name or a code, and the two directions settle this in opposite ways:
the code of a name is the one declared last, and the name of a code is the one
declared first.  Both answers come from maps that are filled in one pass over
the opcodes, the first of which overwrites what it holds and the second keeps
it.

So in general a name need not have a code that leads back to it.  With tables
it does, up to names that share a code.  An opcode of a table has a value, so
its name is its literal, and no two opcodes have the same literal.
-/

namespace Lexicon

/-! ## First and last elements -/

section Ends

variable {α : Type} {holds : α → Prop} {list : List α} {element : α}

/-- The element is the first one of a list with a property. -/
def IsFirst (holds : α → Prop) (list : List α) (element : α) : Prop :=
  ∃ before after, list = before ++ element :: after ∧ holds element ∧
    ∀ other ∈ before, ¬ holds other

/-- The element is the last one of a list with a property. -/
def IsLast (holds : α → Prop) (list : List α) (element : α) : Prop :=
  ∃ before after, list = before ++ element :: after ∧ holds element ∧
    ∀ other ∈ after, ¬ holds other

theorem IsFirst.mem (first : IsFirst holds list element) :
    element ∈ list := by
  rcases first with ⟨before, after, rfl, _⟩
  simp

theorem find?_eq_some_iff_isFirst {test : α → Bool} :
    list.find? test = some element ↔
      IsFirst (fun candidate => test candidate = true) list element := by
  rw [List.find?_eq_some_iff_append, IsFirst]
  simp only [Bool.not_eq_true', Bool.not_eq_true]
  constructor
  · rintro ⟨here, before, after, split, earlier⟩
    exact ⟨before, after, split, here, earlier⟩
  · rintro ⟨before, after, split, here, earlier⟩
    exact ⟨here, before, after, split, earlier⟩

/-- Whether an element is the first depends on the members of the list alone. -/
theorem IsFirst.congr {other : α → Prop}
    (same : ∀ candidate ∈ list, holds candidate ↔ other candidate)
    (first : IsFirst holds list element) : IsFirst other list element := by
  rcases first with ⟨before, after, rfl, here, earlier⟩
  refine ⟨before, after, rfl, (same element (by simp)).mp here, ?_⟩
  intro candidate member alike
  exact earlier candidate member
    ((same candidate (List.mem_append_left _ member)).mpr alike)

theorem isLast_iff_isFirst_reverse :
    IsLast holds list element ↔ IsFirst holds list.reverse element := by
  constructor
  · rintro ⟨before, after, rfl, here, later⟩
    exact ⟨after.reverse, before.reverse, by simp, here, by simpa using later⟩
  · rintro ⟨before, after, split, here, earlier⟩
    refine ⟨after.reverse, before.reverse, ?_, here, by simpa using earlier⟩
    rw [← List.reverse_reverse list, split]
    simp

end Ends

/-! ## The two maps -/

/-- The opcodes listed so far and the maps that are filled on the way. -/
structure OpcodeMaps where
  pairs : List (String × UInt8) := []
  byName : Std.HashMap String UInt8 := ∅
  /-- The place of the opcode that was first declared for a code. -/
  byCode : Std.HashMap UInt8 Nat := ∅

namespace OpcodeMaps

/-- List one more opcode.  Its name is mapped anew, its code only if it is new. -/
def add (maps : OpcodeMaps) (pair : String × UInt8) : OpcodeMaps where
  pairs := maps.pairs ++ [pair]
  byName := maps.byName.insert pair.1 pair.2
  byCode := maps.byCode.insertIfNew pair.2 maps.pairs.length

/-- The maps of a table. -/
def ofTable (table : OpcodeTable) : OpcodeMaps :=
  table.pairs.foldl add {}

/-- The code of a name. -/
def code? (maps : OpcodeMaps) (name : String) : Option UInt8 :=
  maps.byName[name]?

/-- The name of a code. -/
def name? (maps : OpcodeMaps) (code : UInt8) : Option String :=
  (maps.byCode[code]?.bind fun place => maps.pairs[place]?).map Prod.fst

/-- The maps hold the last code of every name and the first place of every code. -/
structure Sound (maps : OpcodeMaps) : Prop where
  byName_eq : ∀ name, maps.byName[name]? =
    (maps.pairs.reverse.find? fun pair => pair.1 == name).map Prod.snd
  byCode_eq : ∀ code, maps.byCode[code]? =
    maps.pairs.findIdx? fun pair => pair.2 == code

theorem sound_empty : Sound {} where
  byName_eq := by simp
  byCode_eq := by simp

theorem Sound.add {maps : OpcodeMaps} (sound : maps.Sound)
    (pair : String × UInt8) : (maps.add pair).Sound where
  byName_eq := by
    intro name
    have before := sound.byName_eq name
    simp only [OpcodeMaps.add, Std.HashMap.getElem?_insert,
      List.reverse_append, List.reverse_singleton, List.singleton_append,
      List.find?_cons]
    split
    case isTrue same => simp [same]
    case isFalse differs => simpa [differs] using before
  byCode_eq := by
    intro code
    have before := sound.byCode_eq code
    have held_iff : code ∈ maps.byCode ↔
        (maps.pairs.findIdx? fun other => other.2 == code).isSome = true := by
      rw [Std.HashMap.mem_iff_isSome_getElem?, before]
    simp only [OpcodeMaps.add, Std.HashMap.getElem?_insertIfNew,
      List.findIdx?_append, before]
    by_cases same : pair.2 = code
    · subst same
      cases found : maps.pairs.findIdx? fun other => other.2 == pair.2 with
      | none => simp [held_iff, found]
      | some place => simp [held_iff, found]
    · simp [same]

theorem sound_foldl {maps : OpcodeMaps} (sound : maps.Sound)
    (pairs : List (String × UInt8)) :
    (pairs.foldl OpcodeMaps.add maps).Sound ∧
      (pairs.foldl OpcodeMaps.add maps).pairs = maps.pairs ++ pairs := by
  induction pairs generalizing maps with
  | nil => exact ⟨sound, (List.append_nil _).symm⟩
  | cons pair rest induction =>
      rcases induction (sound.add pair) with ⟨restSound, listed⟩
      exact ⟨restSound, listed.trans (List.append_assoc _ [pair] rest)⟩

/-- The maps answer as searches from the end and from the start do. -/
theorem lookups_ofTable (table : OpcodeTable) :
    (∀ name, (ofTable table).code? name = table.code? name) ∧
      ∀ code, (ofTable table).name? code = table.name? code := by
  rcases sound_foldl sound_empty table.pairs with ⟨sound, listed⟩
  constructor
  · intro name
    rw [code?, ofTable, sound.byName_eq, listed]
    rfl
  · intro code
    rw [name?, ofTable, sound.byCode_eq, listed, OpcodeTable.name?,
      List.find?_eq_bind_findIdx?_getElem?]
    rfl

end OpcodeMaps

/-! ## Opcodes of a catalog -/

namespace OpcodeTable

/-- The table lists the opcodes among the entries and looks them up in both directions. -/
structure Lists (table : OpcodeTable) (entries : List Entry) : Prop where
  /-- No opcode is left out, and each has the value that it is declared with. -/
  pairs_eq : (table.pairs.map fun pair => (pair.1, some pair.2.toNat)) =
    (entries.filter fun entry => entry.category = .opcode).map fun entry =>
      (entry.name, entry.value)
  name?_eq_some_iff : ∀ code name, table.name? code = some name ↔
    ∃ entry, entry.name = name ∧
      IsFirst (fun entry => entry.value = some code.toNat)
        (entries.filter fun entry => entry.category = .opcode) entry
  name?_eq_none_iff : ∀ code, table.name? code = none ↔
    ∀ entry ∈ entries, entry.category = .opcode →
      entry.value ≠ some code.toNat
  code?_eq_some_iff : ∀ name code, table.code? name = some code ↔
    ∃ entry, entry.value = some code.toNat ∧
      IsLast (fun entry => entry.name = name)
        (entries.filter fun entry => entry.category = .opcode) entry
  code?_eq_none_iff : ∀ name, table.code? name = none ↔
    ∀ entry ∈ entries, entry.category = .opcode → entry.name ≠ name

section Catalogs

variable (catalog : Catalog)

/-- The code of an opcode is its value. -/
theorem codeOf_eq_iff {catalog : Catalog} {entry : Entry}
    (listed : entry ∈ catalog.table .opcode) {code : UInt8} :
    Token.codeOf entry.value = code ↔ entry.value = some code.toNat := by
  rcases Catalog.mem_table.mp listed with ⟨declared, isOpcode⟩
  rcases Catalog.code_of_mem declared isOpcode with ⟨value, valued, bound⟩
  have fits : value < UInt8.size := Nat.lt_succ_of_le bound
  rw [valued, Token.codeOf_some fits, Option.some_inj, ← UInt8.toNat_inj,
    UInt8.toNat_ofNat_of_lt' fits]

theorem name?_ofCatalog (code : UInt8) :
    (ofCatalog catalog).name? code =
      ((catalog.table .opcode).find? fun entry =>
        Token.codeOf entry.value == code).map Entry.name := by
  rw [name?, pairs_ofCatalog, List.find?_map, Option.map_map]
  rfl

theorem code?_ofCatalog (name : String) :
    (ofCatalog catalog).code? name =
      ((catalog.table .opcode).reverse.find? fun entry =>
        entry.name == name).map fun entry => Token.codeOf entry.value := by
  rw [code?, pairs_ofCatalog, ← List.map_reverse, List.find?_map,
    Option.map_map]
  rfl

theorem lists_of_load {entries : List Entry} {catalog : Catalog}
    (loaded : Catalog.load entries = .ok catalog) :
    (ofCatalog catalog).Lists entries where
  pairs_eq := by
    rw [← (Catalog.divides_of_load loaded).table_eq, pairs_ofCatalog,
      List.map_map]
    apply List.map_congr_left
    intro entry listed
    have same := (codeOf_eq_iff listed).mp rfl
    exact Prod.ext rfl same.symm
  name?_eq_some_iff := by
    intro code name
    rw [name?_ofCatalog, Option.map_eq_some_iff,
      ← (Catalog.divides_of_load loaded).table_eq]
    constructor
    · rintro ⟨entry, found, rfl⟩
      refine ⟨entry, rfl, (find?_eq_some_iff_isFirst.mp found).congr ?_⟩
      intro other listed
      exact beq_iff_eq.trans (codeOf_eq_iff listed)
    · rintro ⟨entry, rfl, first⟩
      refine ⟨entry, find?_eq_some_iff_isFirst.mpr (first.congr ?_), rfl⟩
      intro other listed
      exact (beq_iff_eq.trans (codeOf_eq_iff listed)).symm
  name?_eq_none_iff := by
    intro code
    rw [name?_ofCatalog, Option.map_eq_none_iff, List.find?_eq_none]
    constructor
    · intro nothing entry declared isOpcode valued
      have listed :=
        (Catalog.mem_table_of_load loaded).mpr ⟨declared, isOpcode⟩
      exact nothing entry listed
        (beq_iff_eq.mpr ((codeOf_eq_iff listed).mpr valued))
    · intro nothing entry listed same
      rcases (Catalog.mem_table_of_load loaded).mp listed with
        ⟨declared, isOpcode⟩
      exact nothing entry declared isOpcode
        ((codeOf_eq_iff listed).mp (beq_iff_eq.mp same))
  code?_eq_some_iff := by
    intro name code
    rw [code?_ofCatalog, Option.map_eq_some_iff,
      ← (Catalog.divides_of_load loaded).table_eq]
    constructor
    · rintro ⟨entry, found, same⟩
      have listed := List.mem_reverse.mp (List.mem_of_find?_eq_some found)
      refine ⟨entry, (codeOf_eq_iff listed).mp same, ?_⟩
      apply isLast_iff_isFirst_reverse.mpr
      apply (find?_eq_some_iff_isFirst.mp found).congr
      intro other _
      exact beq_iff_eq
    · rintro ⟨entry, valued, last⟩
      have first := isLast_iff_isFirst_reverse.mp last
      refine ⟨entry, find?_eq_some_iff_isFirst.mpr (first.congr ?_), ?_⟩
      · intro other _
        exact beq_iff_eq.symm
      · exact (codeOf_eq_iff (List.mem_reverse.mp first.mem)).mpr valued
  code?_eq_none_iff := by
    intro name
    rw [code?_ofCatalog, Option.map_eq_none_iff, List.find?_eq_none]
    constructor
    · intro nothing entry declared isOpcode same
      have listed :=
        (Catalog.mem_table_of_load loaded).mpr ⟨declared, isOpcode⟩
      exact nothing entry (List.mem_reverse.mpr listed) (beq_iff_eq.mpr same)
    · intro nothing entry listed same
      rcases (Catalog.mem_table_of_load loaded).mp
          (List.mem_reverse.mp listed) with ⟨declared, isOpcode⟩
      exact nothing entry declared isOpcode (beq_iff_eq.mp same)

end Catalogs

/-! ## Opcodes of tables -/

/-- The code of every name leads back to it, or to the name declared before it. -/
structure TwoWay (table : OpcodeTable) : Prop where
  code?_of_mem : ∀ name code, (name, code) ∈ table.pairs →
    table.code? name = some code
  code?_of_name? : ∀ code name, table.name? code = some name →
    table.code? name = some code
  /-- A name is got back exactly if it is the first one declared with its code. -/
  name?_code?_iff : ∀ name,
    (table.code? name).bind table.name? = some name ↔
      ∃ code, IsFirst (fun pair => pair.2 = code) table.pairs (name, code)

theorem name?_eq_some_iff_isFirst {table : OpcodeTable} {code : UInt8}
    {name : String} :
    table.name? code = some name ↔
      IsFirst (fun pair => pair.2 = code) table.pairs (name, code) := by
  rw [name?, Option.map_eq_some_iff]
  simp only [find?_eq_some_iff_isFirst, beq_iff_eq]
  constructor
  · rintro ⟨⟨_, found⟩, first, rfl⟩
    rcases first with ⟨before, after, split, rfl, earlier⟩
    exact ⟨before, after, split, rfl, earlier⟩
  · intro first
    exact ⟨_, first, rfl⟩

/-- Where names are distinct, a code and its name belong together. -/
theorem twoWay_of_nodup {table : OpcodeTable}
    (distinct : (table.pairs.map Prod.fst).Nodup) : table.TwoWay where
  code?_of_mem := by
    intro name code member
    exact code?_eq_some_of_mem distinct member
  code?_of_name? := by
    intro code name named
    exact code?_eq_some_of_mem distinct
      (name?_eq_some_iff_isFirst.mp named).mem
  name?_code?_iff := by
    intro name
    rw [Option.bind_eq_some_iff]
    constructor
    · rintro ⟨code, _, named⟩
      exact ⟨code, name?_eq_some_iff_isFirst.mp named⟩
    · rintro ⟨code, first⟩
      exact ⟨code, code?_eq_some_of_mem distinct first.mem,
        name?_eq_some_iff_isFirst.mpr first⟩

/--
The table of opcodes maps names to codes and back.  For every loaded catalog
it lists all opcodes with their values in the order of declaration; the name
of a code is that of the first opcode with it, and the code of a name is that
of the last opcode so named.  The answers are those of two maps that are
filled in one pass, one of which overwrites and the other keeps what it holds.
If the catalog is one of tables, every listed name has the code it is listed
with and the name of a code has that code, while a name is got back from its
code exactly if it is the first one declared with it.
-/
theorem ofCatalog_lists_twoWay :
    (∀ entries catalog, Catalog.load entries = .ok catalog →
      (ofCatalog catalog).Lists entries ∧
        (∀ name, (OpcodeMaps.ofTable (ofCatalog catalog)).code? name =
          (ofCatalog catalog).code? name) ∧
        ∀ code, (OpcodeMaps.ofTable (ofCatalog catalog)).name? code =
          (ofCatalog catalog).name? code) ∧
      ∀ tables catalog, Catalog.ofTables tables = .ok catalog →
        (ofCatalog catalog).TwoWay := by
  constructor
  · intro entries catalog loaded
    exact ⟨lists_of_load loaded, OpcodeMaps.lookups_ofTable _⟩
  · intro tables catalog built
    exact twoWay_of_nodup (nodup_names_of_ofTables built)

/-- The second of two names with one code has that code, which leads to the first name. -/
theorem ofCatalog_lists_twoWay_shared :
    ∃ catalog,
      Catalog.load
          [⟨.opcode, "first", [0x66, 0x69, 0x72, 0x73, 0x74], some 68⟩,
            ⟨.opcode, "second", [0x73, 0x65, 0x63, 0x6F, 0x6E, 0x64],
              some 68⟩] = .ok catalog ∧
        Catalog.ofTables [⟨.opcode, "codes", "first 0x44\nsecond 68",
          .wordValue, .wholeWord⟩] = .ok catalog ∧
        (ofCatalog catalog).name? 68 = some "first" ∧
        ((ofCatalog catalog).code? "first").bind (ofCatalog catalog).name? =
          some "first" ∧
        (ofCatalog catalog).code? "second" = some 68 ∧
        (ofCatalog catalog).code? "third" = none := by
  have runs : ∃ catalog,
      Catalog.load
          [⟨.opcode, "first", [0x66, 0x69, 0x72, 0x73, 0x74], some 68⟩,
            ⟨.opcode, "second", [0x73, 0x65, 0x63, 0x6F, 0x6E, 0x64],
              some 68⟩] = .ok catalog ∧
        Catalog.ofTables [⟨.opcode, "codes", "first 0x44\nsecond 68",
          .wordValue, .wholeWord⟩] = .ok catalog ∧
        (ofCatalog catalog).pairs = [("first", 68), ("second", 68)] :=
    ⟨_, rfl, rfl, rfl⟩
  rcases runs with ⟨catalog, loaded, built, pairs_eq⟩
  rcases ofCatalog_lists_twoWay with ⟨loads, fromTables⟩
  have lists := (loads _ _ loaded).1
  have twoWay := fromTables _ _ built
  refine ⟨catalog, loaded, built, ?_, ?_, ?_, ?_⟩
  · exact (lists.name?_eq_some_iff 68 "first").mpr
      ⟨_, rfl, [], _, rfl, rfl, by simp⟩
  · exact (twoWay.name?_code?_iff "first").mpr
      ⟨68, [], _, pairs_eq, rfl, by simp⟩
  · apply twoWay.code?_of_mem
    rw [pairs_eq]
    simp
  · apply (lists.code?_eq_none_iff "third").mpr
    simp

/-- Without tables a name may have two codes, and the first of them leads astray. -/
example : ∃ catalog,
    Catalog.load [⟨.opcode, "twice", [0x61], some 1⟩,
      ⟨.opcode, "twice", [0x62], some 2⟩] = .ok catalog ∧
    (ofCatalog catalog).name? 1 = some "twice" ∧
    (ofCatalog catalog).code? "twice" = some 2 :=
  ⟨_, rfl, rfl, rfl⟩

end OpcodeTable

end Lexicon
