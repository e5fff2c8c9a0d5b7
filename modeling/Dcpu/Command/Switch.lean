import Dcpu.Text.Quoted

/-!
# Switches

The switches of the command line, their spellings, and what can be wrong with a list of arguments.
-/

namespace Dcpu.Command

/-- The switches. -/
inductive Switch where
  | help | output | noOutput | quiet | verbose | version
  deriving DecidableEq, Repr

namespace Switch

/-- All switches in the order in which they are listed. -/
def all : List Switch :=
  [help, output, noOutput, quiet, verbose, version]

/-- The spellings of a switch, the short one first. -/
def spellings : Switch → List String
  | help => ["-h", "--help"]
  | output => ["-o", "--output"]
  | noOutput => ["--no-output"]
  | quiet => ["-q", "--quiet"]
  | verbose => ["-v", "--verbose"]
  | version => ["--version"]

/-- The name of a switch in messages. -/
def name (s : Switch) : String :=
  "/".intercalate s.spellings

/-- All spellings with their switches. -/
def table : List (String × Switch) :=
  all.flatMap fun s => s.spellings.map (·, s)

/-- The switch with a spelling. -/
def ofSpelling? (spelling : String) : Option Switch :=
  table.lookup spelling

end Switch

/-- What is wrong with a list of arguments. -/
inductive UsageError where
  | ambiguous (argument : String) (candidates : List String)
  | missingValue (switch : Switch)
  | ignoredValue (switch : Switch) (value : String)
  | unrecognized (arguments : List String)
  deriving DecidableEq, Repr

/-- The words for a usage error. -/
def UsageError.message : UsageError → String
  | ambiguous argument candidates =>
    let list := ", ".intercalate candidates
    s!"ambiguous option: {argument} could match {list}"
  | missingValue switch => s!"argument {switch.name}: expected one argument"
  | ignoredValue switch value =>
    s!"argument {switch.name}: ignored explicit argument {Text.quote value}"
  | unrecognized arguments =>
    let list := " ".intercalate arguments
    s!"unrecognized arguments: {list}"

end Dcpu.Command
