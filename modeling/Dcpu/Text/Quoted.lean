import Dcpu.Text.Numeral
import Dcpu.Text.Printable

/-!
# Quoted texts

How names appear in messages: between single quotes, or between double quotes when the name has a
single quote and no double one. The backslash, the enclosing quote and the characters that are not
printable are escaped.
-/

namespace Dcpu.Text

/-- The quote that encloses a text. -/
def quoteMark (cs : List Char) : Char :=
  if cs.contains '\'' && !cs.contains '"' then '"' else '\''

/-- One character between quotes `mark`. -/
def escape (mark c : Char) : List Char :=
  if c == '\\' || c == mark then ['\\', c]
  else if c == '\n' then ['\\', 'n']
  else if c == '\r' then ['\\', 'r']
  else if c == '\t' then ['\\', 't']
  else if isPrintable c then [c]
  else if c.toNat < 0x100 then "\\x".toList ++ (hex 2 c.toNat).toList
  else if c.toNat < 0x10000 then "\\u".toList ++ (hex 4 c.toNat).toList
  else "\\U".toList ++ (hex 8 c.toNat).toList

/-- A text between quotes. -/
def quote (s : String) : String :=
  let cs := s.toList
  let mark := quoteMark cs
  String.ofList (mark :: cs.flatMap (escape mark) ++ [mark])

end Dcpu.Text
