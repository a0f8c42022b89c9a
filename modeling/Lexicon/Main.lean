import Lexicon.Command

/-!
# The program

Reads the files that the arguments name, runs the command and writes its
outcome.
-/

namespace Lexicon

/--
The cause with the number and the words of the system.  Some calls give the
number with its sign changed and the words in lower case.
-/
def ReadError.ofNumber (number : UInt32) (details : String) : ReadError :=
  let number := if 0x80000000 ≤ number then -number else number
  if number == 2 then .missing
  else if number == 20 then .notDirectory
  else if number == 21 then .isDirectory
  else if number == 36 then .nameTooLong
  else .system details.capitalize number.toNat

/-- The cause of a failed read. -/
def ReadError.ofSystem : IO.Error → ReadError
  | .noFileOrDirectory _ number details
  | .inappropriateType _ number details
  | .permissionDenied _ number details
  | .invalidArgument _ number details
  | .resourceExhausted _ number details
  | .noSuchThing _ number details
  | .alreadyExists _ number details
  | .interrupted _ number details
  | .resourceBusy number details
  | .resourceVanished number details
  | .unsupportedOperation number details
  | .hardwareFault number details
  | .unsatisfiedConstraints number details
  | .illegalOperation number details
  | .protocolError number details
  | .timeExpired number details
  | .otherError number details => .ofNumber number details
  | .unexpectedEof => .ofNumber 0 "Unexpected end of file"
  | .userError details => .ofNumber 0 details

/-- The contents of a file. -/
def readSource (path : String) : IO (Except ReadError Bytes) := do
  match ← (IO.FS.readBinFile path).toBaseIO with
  | .ok contents => return .ok contents.toList
  | .error error => return .error (ReadError.ofSystem error)

end Lexicon

/-- Run the command that the arguments name. -/
def main (arguments : List String) : IO UInt32 := do
  let paths := (Lexicon.Command.ofArguments arguments).paths
  let sources ← paths.mapM fun path => return (path, ← Lexicon.readSource path)
  let read (path : String) := (sources.lookup path).getD (.error .missing)
  let outcome := Lexicon.Command.execute Lexicon.Standard.tokenizer read arguments
  (← IO.getStdout).putStr outcome.stdout
  (← IO.getStderr).putStr outcome.stderr
  return outcome.exitCode
