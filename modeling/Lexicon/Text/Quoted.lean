import Lexicon.Text.DefaultIgnorable
import Lexicon.Text.ExtendingMark
import Lexicon.Text.Hex
import Lexicon.Text.Printable

/-!
# Quoted text

Two ways to write text so that every character can be seen.  `quote` puts a
string between double quotes and spells out what would not show on its own.
`spell` writes a single character within printable ASCII.
-/

namespace Lexicon.Quoted

/-- A character by its number, as `\u` and the hexadecimal digits in braces. -/
def byNumber (char : Char) : String :=
  "\\u\x7b" ++ Hex.lower char.toNat ++ "\x7d"

/-- The character shows as itself wherever it stands. -/
def isVisible (char : Char) : Bool :=
  isPrintable char && !isExtendingMark char && !isDefaultIgnorable char

/-- A character as it stands between double quotes. -/
def escape (char : Char) : String :=
  if char == '\x00' then "\\0"
  else if char == '\t' then "\\t"
  else if char == '\r' then "\\r"
  else if char == '\n' then "\\n"
  else if char == '\\' then "\\\\"
  else if char == '"' then "\\\""
  else if isVisible char then char.toString
  else byNumber char

/-- The text between double quotes. -/
def quote (text : String) : String :=
  "\"" ++ String.join (text.toList.map escape) ++ "\""

/-- A character within printable ASCII: both quotes and the backslash are escaped too. -/
def spell (char : Char) : String :=
  if char == '\t' then "\\t"
  else if char == '\r' then "\\r"
  else if char == '\n' then "\\n"
  else if char == '\x27' then "\\'"
  else if char == '"' then "\\\""
  else if char == '\\' then "\\\\"
  else if 0x20 ≤ char.toNat && char.toNat ≤ 0x7E then char.toString
  else byNumber char

end Lexicon.Quoted
