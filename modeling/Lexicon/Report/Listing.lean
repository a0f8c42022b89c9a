import Lexicon.Lexing
import Lexicon.Position

/-!
# Listings

The listing of a source has a line for each lexeme and then a line for each
run that was skipped.  Several sources are listed one after the other, each
under a line with its path.
-/

namespace Lexicon

/-- A text for the user, and whether it reports a failure. -/
structure Listing where
  output : String
  failed : Bool
deriving DecidableEq

/-- Why a file has no contents. -/
inductive ReadError
  | missing
  | notDirectory
  | isDirectory
  | nameTooLong
  | nulInPath
  /-- Any other cause, with the words and the number that the system gives for it. -/
  | system (description : String) (number : Nat)
deriving DecidableEq

/-- The message for a reader. -/
def ReadError.message : ReadError → String
  | .missing => "No such file or directory (os error 2)"
  | .notDirectory => "Not a directory (os error 20)"
  | .isDirectory => "Is a directory (os error 21)"
  | .nameTooLong => "File name too long (os error 36)"
  | .nulInPath => "file name contained an unexpected NUL byte"
  | .system description number => s!"{description} (os error {number})"

/-- The line of a lexeme. -/
def Lexeme.line (lexeme : Lexeme) : String :=
  lexeme.token.text ++ " @ " ++ lexeme.span.text ++ "\n"

/-- The bytes of a skipped run. -/
def SkippedRun.bytes (run : SkippedRun) (source : Bytes) : Bytes :=
  (source.drop run.span.start).take (run.span.stop - run.span.start)

/-- The line of a skipped run: where it starts, and the text that was skipped. -/
def SkippedRun.line (run : SkippedRun) (path : String) (source : Bytes) : String :=
  let position := Position.ofOffset source run.error.offset
  path ++ ":" ++ toString position.line ++ ":" ++ toString position.column ++
    ": unrecognized token `" ++ Utf8.text (run.bytes source) ++ "`\n"

namespace Listing

/-- The listing of a source that has been lexed. -/
def ofLexed (path : String) (source : Bytes) (lexed : Lexed) : Listing :=
  ⟨String.join (lexed.lexemes.map Lexeme.line) ++
      String.join (lexed.skipped.map fun run => run.line path source),
    lexed.hasErrors⟩

/-- The listing of a source. -/
def ofSource (tokenizer : Tokenizer) (path : String) (source : Bytes) : Listing :=
  match lex tokenizer source with
  | .ok lexed => ofLexed path source lexed
  | .error error => ⟨path ++ ": error: " ++ error.message ++ "\n", true⟩

/-- The listing of a file, or the reason why it cannot be read. -/
def ofFile (tokenizer : Tokenizer) (path : String) (contents : Except ReadError Bytes) :
    Listing :=
  match contents with
  | .ok source => ofSource tokenizer path source
  | .error error => ⟨path ++ ": error: cannot read file: " ++ error.message ++ "\n", true⟩

/-- The line above a listing that is one of several. -/
def header (path : String) : String :=
  "==> " ++ path ++ " <==\n"

/-- The listings of files in their order.  Headers stand only above several of them. -/
def ofFiles (tokenizer : Tokenizer) (read : String → Except ReadError Bytes)
    (paths : List String) : Listing :=
  let several := 1 < paths.length
  let listings := paths.map fun path => (path, ofFile tokenizer path (read path))
  ⟨String.join (listings.map fun (path, listing) =>
      (if several then header path else "") ++ listing.output),
    listings.any fun (_, listing) => listing.failed⟩

end Listing

end Lexicon
