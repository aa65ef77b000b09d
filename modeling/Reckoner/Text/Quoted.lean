import Reckoner.Text.Blank

/-!
Quoted text, as the log shows a source.

The text stands between double quotes. Tab, newline and carriage return have
short escapes, every other white space character except the space is written as
`\u{…}` with its code point in hexadecimal, and quotes and backslashes are
escaped, so the quoted form of a text never spans two lines.
-/

namespace Reckoner.Text

/-- A character as it stands inside quotes. -/
def escape (c : Char) : String :=
  if c = '\t' then "\\t"
  else if c = '\n' then "\\n"
  else if c = '\r' then "\\r"
  else if c = '"' then "\\\""
  else if c = '\\' then "\\\\"
  else if isBlank c && c != ' ' then
    "\\u\x7b" ++ String.ofList (Nat.toDigits 16 c.toNat) ++ "\x7d"
  else c.toString

def quoted (s : String) : String :=
  "\"" ++ String.join (s.toList.map escape) ++ "\""

end Reckoner.Text
