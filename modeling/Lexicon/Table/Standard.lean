import Lexicon.Table

/-!
# The standard tables

The literals of the language, in the priority order of their categories.
Keywords come before opcodes, so `return` is a keyword.  Type names come
before opcodes, so `address` and `byte` are types.  Assignment operators come
before delimiters, so `:=` is one token.
-/

namespace Lexicon.Standard

/-- The keywords of the language. -/
def keywords : Table where
  category := .keyword
  file := "keywords.txt"
  format := .word
  adjacency := .wholeWord
  text :=
    "# Keywords. One literal per line; the literal is also the token name.\n" ++
    "pragma\nimport\nas\nfrom\ncontract\ninterface\nlibrary\nis\nusing\nstruct\n" ++
    "enum\nevent\nmodifier\nfunction\nconstructor\nreturns\nreturn\nif\nelse\n" ++
    "for\nwhile\ndo\nbreak\ncontinue\nthrow\nemit\nnew\ndelete\npublic\nprivate\n" ++
    "external\ninternal\npure\nview\npayable\nconstant\nanonymous\nindexed\n" ++
    "mapping\nassembly\nvar\ntrue\nfalse\n"

/-- Words that have no meaning yet. -/
def reservedWords : Table where
  category := .reserved
  file := "reserved_words.txt"
  format := .word
  adjacency := .wholeWord
  text :=
    "# Reserved for future use.\nabstract\nafter\nalias\napply\nauto\ncase\n" ++
    "catch\ncopyof\ndefault\ndefine\nfinal\nimmutable\nimplements\nin\ninline\n" ++
    "let\nmacro\nmatch\nmutable\nnull\nof\noverride\npartial\npromise\n" ++
    "reference\nrelocatable\nsealed\nsizeof\nstatic\nsupports\nswitch\ntry\n" ++
    "typedef\ntypeof\nunchecked\n"

/-- The names of elementary types. -/
def elementaryTypes : Table where
  category := .elementaryType
  file := "elementary_type_names.txt"
  format := .word
  adjacency := .wholeWord
  text :=
    "# Elementary type names. Sized integers are listed in uints.txt.\naddress\n" ++
    "bool\nstring\nint\nbyte\nbytes\nfixed\nufixed\n"

/-- The unsigned integer types with their widths in bits. -/
def uints : Table where
  category := .uint
  file := "uints.txt"
  format := .wordValue
  adjacency := .wholeWord
  text :=
    "# Unsigned integer types: literal and bit width.\nuint 256\nuint8 8\n" ++
    "uint16 16\nuint24 24\nuint32 32\nuint40 40\nuint48 48\nuint56 56\n" ++
    "uint64 64\nuint72 72\nuint80 80\nuint88 88\nuint96 96\nuint104 104\n" ++
    "uint112 112\nuint120 120\nuint128 128\nuint136 136\nuint144 144\n" ++
    "uint152 152\nuint160 160\nuint168 168\nuint176 176\nuint184 184\n" ++
    "uint192 192\nuint200 200\nuint208 208\nuint216 216\nuint224 224\n" ++
    "uint232 232\nuint240 240\nuint248 248\nuint256 256\n"

/-- Where data is kept. -/
def storageLocations : Table where
  category := .storageLocation
  file := "storage_locations.txt"
  format := .word
  adjacency := .wholeWord
  text :=
    "# Data location qualifiers.\nmemory\nstorage\ncalldata\n"

/-- The units that follow numbers. -/
def numberUnits : Table where
  category := .numberUnit
  file := "units.txt"
  format := .word
  adjacency := .wholeWord
  text :=
    "# Number literal unit suffixes.\nwei\nszabo\nfinney\nether\nseconds\n" ++
    "minutes\nhours\ndays\nweeks\nyears\n"

/-- The instructions of the machine with their codes. -/
def opcodes : Table where
  category := .opcode
  file := "opcodes.txt"
  format := .wordValue
  adjacency := .wholeWord
  text :=
    "# EVM opcodes: mnemonic and numeric code.\nstop 0x00\nadd 0x01\nmul 0x02\n" ++
    "sub 0x03\ndiv 0x04\nsdiv 0x05\nmod 0x06\nsmod 0x07\naddmod 0x08\n" ++
    "mulmod 0x09\nexp 0x0a\nsignextend 0x0b\nlt 0x10\ngt 0x11\nslt 0x12\n" ++
    "sgt 0x13\neq 0x14\niszero 0x15\nand 0x16\nor 0x17\nxor 0x18\nnot 0x19\n" ++
    "byte 0x1a\nshl 0x1b\nshr 0x1c\nsar 0x1d\nkeccak256 0x20\naddress 0x30\n" ++
    "balance 0x31\norigin 0x32\ncaller 0x33\ncallvalue 0x34\ncalldataload 0x35\n" ++
    "calldatasize 0x36\ncalldatacopy 0x37\ncodesize 0x38\ncodecopy 0x39\n" ++
    "gasprice 0x3a\nextcodesize 0x3b\nextcodecopy 0x3c\nreturndatasize 0x3d\n" ++
    "returndatacopy 0x3e\nextcodehash 0x3f\nblockhash 0x40\ncoinbase 0x41\n" ++
    "timestamp 0x42\nnumber 0x43\ndifficulty 0x44\ngaslimit 0x45\npop 0x50\n" ++
    "mload 0x51\nmstore 0x52\nmstore8 0x53\nsload 0x54\nsstore 0x55\njump 0x56\n" ++
    "jumpi 0x57\npc 0x58\nmsize 0x59\ngas 0x5a\njumpdest 0x5b\npush1 0x60\n" ++
    "push2 0x61\npush3 0x62\npush4 0x63\npush5 0x64\npush6 0x65\npush7 0x66\n" ++
    "push8 0x67\npush9 0x68\npush10 0x69\npush11 0x6a\npush12 0x6b\npush13 0x6c\n" ++
    "push14 0x6d\npush15 0x6e\npush16 0x6f\npush17 0x70\npush18 0x71\n" ++
    "push19 0x72\npush20 0x73\npush21 0x74\npush22 0x75\npush23 0x76\n" ++
    "push24 0x77\npush25 0x78\npush26 0x79\npush27 0x7a\npush28 0x7b\n" ++
    "push29 0x7c\npush30 0x7d\npush31 0x7e\npush32 0x7f\ndup1 0x80\ndup2 0x81\n" ++
    "dup3 0x82\ndup4 0x83\ndup5 0x84\ndup6 0x85\ndup7 0x86\ndup8 0x87\n" ++
    "dup9 0x88\ndup10 0x89\ndup11 0x8a\ndup12 0x8b\ndup13 0x8c\ndup14 0x8d\n" ++
    "dup15 0x8e\ndup16 0x8f\nswap1 0x90\nswap2 0x91\nswap3 0x92\nswap4 0x93\n" ++
    "swap5 0x94\nswap6 0x95\nswap7 0x96\nswap8 0x97\nswap9 0x98\nswap10 0x99\n" ++
    "swap11 0x9a\nswap12 0x9b\nswap13 0x9c\nswap14 0x9d\nswap15 0x9e\n" ++
    "swap16 0x9f\nlog0 0xa0\nlog1 0xa1\nlog2 0xa2\nlog3 0xa3\nlog4 0xa4\n" ++
    "create 0xf0\ncall 0xf1\ncallcode 0xf2\nreturn 0xf3\ndelegatecall 0xf4\n" ++
    "create2 0xf5\nstaticcall 0xfa\nrevert 0xfd\ninvalid 0xfe\n" ++
    "selfdestruct 0xff\n"

/-- The assignment operators. -/
def assignments : Table where
  category := .assignment
  file := "assignment_operators.txt"
  format := .namedLiteral
  adjacency := .free
  text :=
    "# Assignment operators: token name and literal.\nassign =\n" ++
    "assign_bitwise_or |=\nassign_bitwise_xor ^=\nassign_bitwise_and &=\n" ++
    "assign_left_shift <<=\nassign_right_shift >>=\n" ++
    "assign_arithmetic_right_shift >>>=\nassign_add +=\nassign_sub -=\n" ++
    "assign_mul *=\nassign_div /=\nassign_mod %=\nassign_assembly :=\n"

/-- The delimiters. -/
def delimiters : Table where
  category := .delimiter
  file := "delimiters.txt"
  format := .namedLiteral
  adjacency := .free
  text :=
    "# Delimiters: token name and literal.\nPERIOD .\nSEMICOLON ;\nCOMMA ,\n" ++
    "COLON :\nQUOTATION \"\nLPAREN (\nRPAREN )\nLBRACE \x7b\nRBRACE \x7d\n" ++
    "LBRACKET [\nRBRACKET ]\n"

/-- All tables in priority order. -/
def tables : List Table :=
  [keywords, reservedWords, elementaryTypes, uints, storageLocations, numberUnits, opcodes,
    assignments, delimiters]

/-- The table of a category. -/
def table? (category : Category) : Option Table :=
  tables.find? fun table => table.category == category

/-- The catalog of the standard tables. -/
def catalog : Except SetupError Catalog :=
  Catalog.ofTables tables

/-- The tokenizer of the standard tables. -/
def tokenizer : Except SetupError Tokenizer :=
  Tokenizer.ofTables tables

end Lexicon.Standard
