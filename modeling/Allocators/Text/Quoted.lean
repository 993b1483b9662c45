import Allocators.Text.Hex
import Allocators.Text.Printable
/-!
# Quoted text

A text between double quotes. Quotes and backslashes inside it are marked
by a backslash, the three usual controls and zero have letters, and what
does not show by itself is written by its code point.
-/

namespace Allocators

namespace Quoted

/-- One character inside quotes. -/
def escape (c : Char) : String :=
  if c = '"' then "\\\""
  else if c = '\\' then "\\\\"
  else if c = '\n' then "\\n"
  else if c = '\r' then "\\r"
  else if c = '\t' then "\\t"
  else if c.toNat = 0 then "\\0"
  else if Printable.shows c then c.toString
  else "\\u\x7b" ++ Hex.digits c.toNat ++ "\x7d"

/-- The text between quotes. -/
def text (s : String) : String := "\"" ++ String.join (s.toList.map escape) ++ "\""

end Quoted

end Allocators
