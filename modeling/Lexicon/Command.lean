import Lexicon.Opcode
import Lexicon.Report.Listing
import Lexicon.Report.Overview
import Lexicon.Table.Standard

/-!
# The command line

The arguments name a command.  Running it needs the contents of files and
gives the text for both output channels and the exit code.
-/

namespace Lexicon

/-- What the arguments ask for. -/
inductive Command
  | help
  | lex (paths : List String)
  | catalog
  | opcode (query : Option String)
  | unknown (name : String)
deriving DecidableEq

/-- What a program run leaves behind. -/
structure Outcome where
  stdout : String := ""
  stderr : String := ""
  exitCode : UInt32 := 0
deriving DecidableEq

namespace Command

/-- The text that explains the program. -/
def usage : String :=
  "solex - lexical front-end for contract sources\n" ++
    "\n" ++
    "Usage: solex <command> [args]\n" ++
    "\n" ++
    "Commands:\n" ++
    "  lex <file>...          Print the tokens of each file\n" ++
    "  catalog                List token categories in priority order\n" ++
    "  opcode <name|code>     Look up an opcode by mnemonic or code\n" ++
    "  help                   Show this message\n" ++
    "\n" ++
    "Set RUST_LOG (e.g. RUST_LOG=debug) for tracing output.\n"

/-- The command that the arguments name. -/
def ofArguments : List String → Command
  | [] => .help
  | "lex" :: paths => .lex paths
  | "catalog" :: _ => .catalog
  | "opcode" :: rest => .opcode rest.head?
  | "help" :: _ => .help
  | "--help" :: _ => .help
  | "-h" :: _ => .help
  | name :: _ => .unknown name

/-- The files that a command reads. -/
def paths : Command → List String
  | .lex paths => paths
  | _ => []

/-- The line of an opcode: its name and its code. -/
def opcodeLine (tokenizer : Tokenizer) (query : String) : Except OpcodeError String :=
  ((OpcodeTable.ofCatalog tokenizer.catalog).find query).map fun (name, code) =>
    name ++ " " ++ Hex.byte code

/-- Run a command with a tokenizer.  The function gives the contents of files. -/
def run (tokenizer : Tokenizer) (read : String → Except ReadError Bytes) : Command → Outcome
  | .help => { stdout := usage }
  | .lex [] => { stderr := "Usage: solex lex <file>...\n", exitCode := 1 }
  | .lex paths =>
      let listing := Listing.ofFiles tokenizer read paths
      { stdout := listing.output, exitCode := if listing.failed then 1 else 0 }
  | .catalog => { stdout := tokenizer.overview }
  | .opcode none => { stderr := "Usage: solex opcode <name|code>\n", exitCode := 1 }
  | .opcode (some query) =>
      match opcodeLine tokenizer query with
      | .ok line => { stdout := line ++ "\n" }
      | .error error => { stderr := "error: " ++ error.message ++ "\n", exitCode := 1 }
  | .unknown name =>
      { stdout := usage, stderr := "error: unknown command '" ++ name ++ "'\n\n", exitCode := 1 }

/--
Run the program.  Without arguments it explains itself.  Otherwise it first
needs a tokenizer.
-/
def execute (tokenizer : Except SetupError Tokenizer) (read : String → Except ReadError Bytes)
    (arguments : List String) : Outcome :=
  if arguments.isEmpty then { stdout := usage }
  else match tokenizer with
    | .ok tokenizer => run tokenizer read (ofArguments arguments)
    | .error error =>
        { stderr := "error: invalid token tables: " ++ error.message ++ "\n", exitCode := 2 }

end Command

end Lexicon
