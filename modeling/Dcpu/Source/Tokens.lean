import Dcpu.Text.Blank

/-!
# Lines and tokens

The first two cuts of a source: into lines at the line feeds, and of each line into tokens. What
follows a semicolon is a comment. Tokens are separated by blanks and commas, in any number and
mixture: `normalize` writes a line with one space between its tokens, and the tokens are what stands
between these spaces.
-/

namespace Dcpu.Source

/-- The lines of a source. A line feed at the very end does not start another line. -/
def lines (source : String) : List String :=
  let pieces := source.toList.splitOn '\n'
  (if pieces.getLast? = some [] then pieces.dropLast else pieces).map String.ofList

/-- The part of a line before its comment, as characters. -/
def code (line : List Char) : List Char :=
  line.takeWhile (· != ';')

/-- A line without its comment. -/
def stripComment (line : String) : String :=
  String.ofList (code line.toList)

/-- The words of a line before its comment with one space between neighbours. A comma counts as a
blank. -/
def cleaned (line : List Char) : List Char :=
  [' '].intercalate (Text.words ((code line).map fun c => if c == ',' then ' ' else c))

/-- A line without its comment and with single spaces in place of blanks and commas. -/
def normalize (line : String) : String :=
  String.ofList (cleaned line.toList)

/-- The tokens of a line. -/
def tokens (line : String) : List String :=
  let cs := cleaned line.toList
  if cs.isEmpty then [] else (cs.splitOn ' ').map String.ofList

end Dcpu.Source
