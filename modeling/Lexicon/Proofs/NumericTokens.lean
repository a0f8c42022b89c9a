import Lexicon.Opcode
import Lexicon.Proofs.TableLiterals

/-!
# Numbers that tokens carry

Widths and codes are checked when a catalog is loaded and made narrower twice
afterwards: once for the token that an entry stands for, and once for the
table of opcodes.  Both have a way out for a number that does not fit, and
neither takes it, since the checked ranges lie within the narrower types.

A token with a number therefore stands for the one entry that is written by
the bytes it was read from, with that entry's number.  The table of opcodes
holds every opcode.  With a catalog of tables it gives a name its own code,
because there an entry with a value is named by how it is written, and no two
opcodes are written alike.
-/

namespace Lexicon

/-! ## The entry behind a token -/

/-- The entry of a category that is written by a word.  There is no other one. -/
structure Spells (entries : List Entry) (category : Category) (word : Bytes)
    (entry : Entry) : Prop where
  mem_entries : entry ∈ entries
  category_eq : entry.category = category
  literal_eq : entry.literal = word
  unique : ∀ other ∈ entries, other.category = category →
    other.literal = word → other = entry

theorem Spells.congr {left right : List Entry}
    (same : ∀ entry, entry ∈ left ↔ entry ∈ right) {category : Category}
    {word : Bytes} {entry : Entry} (spells : Spells left category word entry) :
    Spells right category word entry where
  mem_entries := (same entry).mp spells.mem_entries
  category_eq := spells.category_eq
  literal_eq := spells.literal_eq
  unique := by
    intro other member
    exact spells.unique other ((same other).mpr member)

theorem Catalog.spells_of_mem (catalog : Catalog) {entry : Entry}
    (declared : entry ∈ catalog.entries) :
    Spells catalog.entries entry.category entry.literal entry := by
  refine ⟨declared, rfl, rfl, ?_⟩
  intro other otherDeclared sameCategory sameLiteral
  exact List.inj_on_of_nodup_map (catalog.distinct entry.category)
    (mem_table.mpr ⟨otherDeclared, sameCategory⟩)
    (mem_table.mpr ⟨declared, rfl⟩) sameLiteral

/-- A token stands for the entry of its category that is written by the bytes it takes. -/
theorem Tokenizer.exists_spells_of_classifyAt {tokenizer : Tokenizer}
    {source : Bytes} {offset : Nat} {recognition : Recognition}
    (classified : tokenizer.classifyAt source offset = .ok recognition) :
    ∃ entry, recognition.token = Token.ofEntry entry ∧
      Spells tokenizer.catalog.entries recognition.token.category
        ((source.drop offset).take recognition.length) entry := by
  rcases exists_chosen_of_classifyAt classified with
    ⟨entry, chosen, sameToken, slice⟩
  refine ⟨entry, sameToken, ?_⟩
  rw [slice, sameToken, Token.category_ofEntry]
  exact tokenizer.catalog.spells_of_mem chosen.mem_declared

/-! ## Widths and codes fit -/

namespace Catalog

variable {catalog : Catalog} {entry : Entry}

theorem width_of_mem (declared : entry ∈ catalog.entries)
    (isUint : entry.category = .uint) :
    ∃ width, entry.value = some width ∧ 1 ≤ width ∧ width ≤ 256 :=
  (Entry.wellFormed_iff.mp (catalog.wellFormed entry declared)).2.1 isUint

theorem code_of_mem (declared : entry ∈ catalog.entries)
    (isOpcode : entry.category = .opcode) :
    ∃ code, entry.value = some code ∧ code ≤ 255 :=
  (Entry.wellFormed_iff.mp (catalog.wellFormed entry declared)).2.2 isOpcode

end Catalog

namespace Token

theorem bitsOf_some {width : Nat} (fits : width < UInt16.size) :
    bitsOf (some width) = UInt16.ofNat width :=
  if_pos fits

theorem codeOf_some {code : Nat} (fits : code < UInt8.size) :
    codeOf (some code) = UInt8.ofNat code :=
  if_pos fits

theorem ofEntry_of_uint {entry : Entry} (isUint : entry.category = .uint) :
    ofEntry entry = .uint (bitsOf entry.value) := by
  rw [ofEntry, isUint]

theorem ofEntry_of_opcode {entry : Entry}
    (isOpcode : entry.category = .opcode) :
    ofEntry entry = .opcode entry.name (codeOf entry.value) := by
  rw [ofEntry, isOpcode]

end Token

namespace OpcodeTable

theorem pair?_of_value {entry : Entry} {code : Nat}
    (valued : entry.value = some code) (fits : code < UInt8.size) :
    pair? entry = some (entry.name, UInt8.ofNat code) := by
  rw [pair?, valued, Option.bind_some, if_pos fits]

/--
The table of a catalog holds every opcode in the order of declaration, with
the code that its token carries.
-/
theorem pairs_ofCatalog (catalog : Catalog) :
    (ofCatalog catalog).pairs =
      (catalog.table .opcode).map fun entry =>
        (entry.name, Token.codeOf entry.value) := by
  apply List.filterMap_eq_map_iff_forall_eq_some.mpr
  intro entry member
  rcases Catalog.mem_table.mp member with ⟨declared, isOpcode⟩
  rcases Catalog.code_of_mem declared isOpcode with ⟨code, valued, bound⟩
  have fits : code < UInt8.size := Nat.lt_succ_of_le bound
  rw [pair?_of_value valued fits, valued, Token.codeOf_some fits]

/-- Where names are distinct, the code of a name is the one it is declared with. -/
theorem code?_eq_some_of_mem {table : OpcodeTable}
    (distinct : (table.pairs.map Prod.fst).Nodup) {name : String}
    {code : UInt8} (member : (name, code) ∈ table.pairs) :
    table.code? name = some code := by
  have distinctReversed : (table.pairs.reverse.map Prod.fst).Nodup := by
    rw [List.map_reverse, List.nodup_reverse]
    exact distinct
  have found := (find?_key_eq_some_iff distinctReversed).mpr
    ⟨List.mem_reverse.mpr member, rfl⟩
  rw [code?, found]
  rfl

end OpcodeTable

/-! ## Names of opcodes in tables -/

/-- No two opcodes of tables have one name. -/
theorem OpcodeTable.nodup_names_of_ofTables {tables : List Table}
    {catalog : Catalog} (built : Catalog.ofTables tables = .ok catalog) :
    ((OpcodeTable.ofCatalog catalog).pairs.map Prod.fst).Nodup := by
  -- An opcode has a value, so its name and its literal are one field of a row.
  have written : (catalog.table .opcode).map Entry.literal =
      ((catalog.table .opcode).map Entry.name).map Utf8.ofString := by
    rw [List.map_map]
    apply List.map_congr_left
    intro entry member
    rcases Catalog.mem_table.mp member with ⟨declared, isOpcode⟩
    rcases Catalog.code_of_mem declared isOpcode with ⟨code, valued, _⟩
    rcases (Catalog.mem_entries_iff built).mp declared with
      ⟨table, _, declares⟩
    exact declares.literal_eq_of_value (by rw [valued]; rfl)
  have distinct : ((catalog.table .opcode).map Entry.literal).Nodup :=
    catalog.distinct .opcode
  rw [written] at distinct
  rw [OpcodeTable.pairs_ofCatalog, List.map_map]
  exact distinct.of_map

/-! ## Tokens with numbers -/

/--
The widths and codes of a catalog fit the tokens that carry them, and the
table of opcodes leaves none out.
-/
structure Catalog.KeepsNumbers (catalog : Catalog) : Prop where
  width : ∀ entry ∈ catalog.table .uint, ∃ width,
    entry.value = some width ∧ width < UInt16.size ∧
      Token.ofEntry entry = .uint (UInt16.ofNat width)
  code : ∀ entry ∈ catalog.table .opcode, ∃ code,
    entry.value = some code ∧ code < UInt8.size ∧
      Token.ofEntry entry = .opcode entry.name (UInt8.ofNat code) ∧
      OpcodeTable.pair? entry = some (entry.name, UInt8.ofNat code)
  size : (OpcodeTable.ofCatalog catalog).size =
    (catalog.table .opcode).length

theorem Catalog.keepsNumbers (catalog : Catalog) :
    catalog.KeepsNumbers where
  width := by
    intro entry member
    rcases mem_table.mp member with ⟨declared, isUint⟩
    rcases width_of_mem declared isUint with ⟨width, valued, _, bound⟩
    have fits : width < UInt16.size :=
      Nat.lt_of_le_of_lt bound (by decide)
    refine ⟨width, valued, fits, ?_⟩
    rw [Token.ofEntry_of_uint isUint, valued, Token.bitsOf_some fits]
  code := by
    intro entry member
    rcases mem_table.mp member with ⟨declared, isOpcode⟩
    rcases code_of_mem declared isOpcode with ⟨code, valued, bound⟩
    have fits : code < UInt8.size := Nat.lt_succ_of_le bound
    refine ⟨code, valued, fits, ?_, OpcodeTable.pair?_of_value valued fits⟩
    rw [Token.ofEntry_of_opcode isOpcode, valued, Token.codeOf_some fits]
  size := by
    rw [OpcodeTable.size, OpcodeTable.pairs_ofCatalog, List.length_map]

namespace Tokenizer

section Numbers

variable {tokenizer : Tokenizer} {source : Bytes} {offset : Nat}
  {recognition : Recognition}

theorem exists_uint_of_classifyAt
    (classified : tokenizer.classifyAt source offset = .ok recognition)
    {bits : UInt16} (isUint : recognition.token = .uint bits) :
    ∃ entry, Spells tokenizer.catalog.entries .uint
        ((source.drop offset).take recognition.length) entry ∧
      entry.value = some bits.toNat := by
  rcases exists_spells_of_classifyAt classified with
    ⟨entry, sameToken, spells⟩
  rw [isUint] at spells sameToken
  rcases tokenizer.catalog.keepsNumbers.width entry
      (Catalog.mem_table.mpr ⟨spells.mem_entries, spells.category_eq⟩) with
    ⟨width, valued, fits, narrowed⟩
  cases sameToken.trans narrowed
  exact ⟨entry, spells, by rw [valued, UInt16.toNat_ofNat_of_lt' fits]⟩

theorem exists_opcode_of_classifyAt
    (classified : tokenizer.classifyAt source offset = .ok recognition)
    {name : String} {code : UInt8}
    (isOpcode : recognition.token = .opcode name code) :
    ∃ entry, Spells tokenizer.catalog.entries .opcode
        ((source.drop offset).take recognition.length) entry ∧
      entry.name = name ∧ entry.value = some code.toNat ∧
      (name, code) ∈ (OpcodeTable.ofCatalog tokenizer.catalog).pairs := by
  rcases exists_spells_of_classifyAt classified with
    ⟨entry, sameToken, spells⟩
  rw [isOpcode] at spells sameToken
  have listed : entry ∈ tokenizer.catalog.table .opcode :=
    Catalog.mem_table.mpr ⟨spells.mem_entries, spells.category_eq⟩
  rcases tokenizer.catalog.keepsNumbers.code entry listed with
    ⟨value, valued, fits, narrowed, paired⟩
  cases sameToken.trans narrowed
  refine ⟨entry, spells, rfl, ?_, ?_⟩
  · rw [valued, UInt8.toNat_ofNat_of_lt' fits]
  · exact List.mem_filterMap.mpr ⟨entry, listed, paired⟩

end Numbers

/--
Numbers are neither lost nor replaced.  Every width and every code of a
loaded catalog fits, so nothing is made up for it.  A token with a width or a
code stands for the one entry of its category that is written by the bytes it
takes, and carries that entry's value, a width between 1 and 256.  The name
and code of an opcode are a pair of the table of opcodes, which gives this
code for the name if the tokenizer is built from tables.
-/
theorem classifyAt_keepsNumbers {entries : List Entry} {rules : List Rule}
    {catalog : Catalog} {tokenizer : Tokenizer}
    (loaded : Catalog.load entries = .ok catalog)
    (built : build catalog rules = .ok tokenizer) :
    catalog.KeepsNumbers ∧
      ∀ source offset recognition,
        tokenizer.classifyAt source offset = .ok recognition →
          (∀ bits, recognition.token = .uint bits →
            1 ≤ bits.toNat ∧ bits.toNat ≤ 256 ∧
              ∃ entry, Spells entries .uint
                  ((source.drop offset).take recognition.length) entry ∧
                entry.value = some bits.toNat) ∧
          ∀ name code, recognition.token = .opcode name code →
            (∃ entry, Spells entries .opcode
                ((source.drop offset).take recognition.length) entry ∧
              entry.name = name ∧ entry.value = some code.toNat) ∧
            (name, code) ∈ (OpcodeTable.ofCatalog catalog).pairs ∧
            ∀ tables, ofTables tables = .ok tokenizer →
              (OpcodeTable.ofCatalog catalog).code? name = some code := by
  rcases parts_of_build built with ⟨rfl, _⟩
  have members := Catalog.mem_entries_of_load loaded
  refine ⟨tokenizer.catalog.keepsNumbers, ?_⟩
  intro source offset recognition classified
  constructor
  · intro bits isUint
    rcases exists_uint_of_classifyAt classified isUint with
      ⟨entry, spells, valued⟩
    rcases Catalog.width_of_mem spells.mem_entries spells.category_eq with
      ⟨width, found, least, greatest⟩
    cases valued.symm.trans found
    exact ⟨least, greatest, entry, spells.congr members, valued⟩
  · intro name code isOpcode
    rcases exists_opcode_of_classifyAt classified isOpcode with
      ⟨entry, spells, sameName, valued, paired⟩
    refine ⟨⟨entry, spells.congr members, sameName, valued⟩, paired, ?_⟩
    intro tables fromTables
    exact OpcodeTable.code?_eq_some_of_mem
      (OpcodeTable.nodup_names_of_ofTables
        (catalog_of_ofTables fromTables)) paired

/--
The greatest width does not fit in a byte, and the least code is what a code
that does not fit would be replaced by.  Both are read as they are declared.
-/
theorem classifyAt_keepsNumbers_ends :
    ∃ catalog tokenizer,
      Catalog.load
          [⟨.uint, "u", [0x75], some 256⟩,
            ⟨.opcode, "stop", [0x73, 0x74, 0x6F, 0x70], some 0⟩] =
        .ok catalog ∧
        ofTables
            [⟨.uint, "widths", "u 256", .wordValue, .wholeWord⟩,
              ⟨.opcode, "codes", "stop 0x00", .wordValue, .wholeWord⟩] =
          .ok tokenizer ∧
        tokenizer.classifyAt [0x75, 0x20, 0x73, 0x74, 0x6F, 0x70] 0 =
          .ok ⟨.uint 256, 1, [0x20, 0x73, 0x74, 0x6F, 0x70]⟩ ∧
        (∃ entry, Spells
            [⟨.uint, "u", [0x75], some 256⟩,
              ⟨.opcode, "stop", [0x73, 0x74, 0x6F, 0x70], some 0⟩]
            .uint [0x75] entry ∧ entry.value = some 256) ∧
        tokenizer.classifyAt [0x75, 0x20, 0x73, 0x74, 0x6F, 0x70] 2 =
          .ok ⟨.opcode "stop" 0, 4, []⟩ ∧
        ("stop", 0) ∈ (OpcodeTable.ofCatalog catalog).pairs ∧
        (OpcodeTable.ofCatalog catalog).code? "stop" = some 0 := by
  have runs : ∃ catalog tokenizer,
      Catalog.load
          [⟨.uint, "u", [0x75], some 256⟩,
            ⟨.opcode, "stop", [0x73, 0x74, 0x6F, 0x70], some 0⟩] =
        .ok catalog ∧
        build catalog [⟨.uint, some Boundary.word⟩,
          ⟨.opcode, some Boundary.word⟩] = .ok tokenizer ∧
        ofTables
            [⟨.uint, "widths", "u 256", .wordValue, .wholeWord⟩,
              ⟨.opcode, "codes", "stop 0x00", .wordValue, .wholeWord⟩] =
          .ok tokenizer ∧
        tokenizer.classifyAt [0x75, 0x20, 0x73, 0x74, 0x6F, 0x70] 0 =
          .ok ⟨.uint 256, 1, [0x20, 0x73, 0x74, 0x6F, 0x70]⟩ ∧
        tokenizer.classifyAt [0x75, 0x20, 0x73, 0x74, 0x6F, 0x70] 2 =
          .ok ⟨.opcode "stop" 0, 4, []⟩ :=
    ⟨_, _, rfl, rfl, rfl, by decide +kernel, by decide +kernel⟩
  rcases runs with
    ⟨catalog, tokenizer, loaded, built, fromTables, width, code⟩
  rcases classifyAt_keepsNumbers loaded built with ⟨_, tokens⟩
  rcases (tokens _ _ _ width).1 256 rfl with ⟨_, _, found⟩
  rcases (tokens _ _ _ code).2 "stop" 0 rfl with ⟨_, paired, named⟩
  exact ⟨catalog, tokenizer, loaded, fromTables, width, found, code, paired,
    named _ fromTables⟩

end Tokenizer

end Lexicon
