import Dcpu.Assembly.Session
import Dcpu.Command.Options
import Dcpu.Command.Usage

/-!
# Running the command

The effect of the command as a function: from the files, the standard input and the arguments to the
exit status, what is printed, and the files afterwards. A run breaks off without a report if the
system refuses to tell whether the input is there.
-/

namespace Dcpu.Command

/-- What a run of the command leaves behind. -/
structure Report where
  exit : Nat := 0
  output : String := ""
  errors : String := ""
  files : Files.Tree
  deriving DecidableEq, Repr

/-- The input name that stands for the standard input. -/
def standardInput : String := "-"

/-- The file to which the program goes if no other is named: the name of the input, or `out.s` for
the standard input, and `.o` behind it. -/
def defaultOutput (input : Option String) : String :=
  let base := (input.filter (· != standardInput)).getD "out.s"
  base ++ ".o"

/-- The file to which the program goes. -/
def Options.target (o : Options) : Option String :=
  if o.noOutput then none else some (o.output.getD (defaultOutput (some o.input)))

/-- Assembles the standard input and writes the program to a file, if one is named. -/
def assembleInput (s : Session) (input : List UInt8) (target : Option String) :
    Outcome Session SessionError Program :=
  match decodeInput input with
  | .error e => { state := s, result := .error (.input e) }
  | .ok source => (s.assemble source).andThen fun s program =>
    match target with
    | none => { state := s, result := .ok program }
    | some target => (s.write target).andThen fun s () => { state := s, result := .ok program }

/-- The listing with its line feed, unless it is not wanted. -/
def Options.listing (o : Options) (a : Assembler) : Except SessionError String :=
  if o.quiet then .ok "" else a.listing.map (· ++ "\n")

/-- The number of instructions and words, if it is wanted. -/
def Options.summary (o : Options) (p : Program) : String :=
  if o.verbose then
    let count := Text.decimal p.instructions.length
    s!"\nAssembly successful: {count} instructions, {Text.decimal p.size} words\n"
  else ""

/-- Assembles as the options say. The result is what is printed: the listing and the summary. -/
def Options.assemble (o : Options) (files : Files.Tree) (input : List UInt8) :
    Outcome Session SessionError (String × String) :=
  let s : Session := { assembler := { verbose := o.verbose }, files }
  let outcome :=
    if o.input = standardInput then assembleInput s input o.target
    else s.assembleFile o.input o.target
  outcome.andThen fun s program =>
    { state := s, result := (o.listing s.assembler).map (·, o.summary program) }

/-- How an error is announced: faults of the source and refusals of the system are expected. -/
def announce : SessionError → String
  | .failure (.diagnostic d) => s!"Error: {d.message}\n"
  | .file (.system problem name) => s!"Error: {(Files.Error.system problem name).message}\n"
  | error => s!"Unexpected error: {error.message}\n"

/-- What assembling as the options say leaves behind. The trace of calls that follows the
announcement of an unexpected error, if the run is verbose, is left out. -/
def Options.report (o : Options) (files : Files.Tree) (input : List UInt8) : Report :=
  let outcome := o.assemble files input
  let told := String.join (outcome.events.map (·.text ++ "\n"))
  match outcome.result with
  | .error e => { exit := 1, errors := told ++ announce e, files := outcome.state.files }
  | .ok (listing, summary) =>
    { output := listing, errors := told ++ summary, files := outcome.state.files }

/-- Tells whether the input is there: the standard input always is. -/
def Options.inputIsThere (o : Options) (files : Files.Tree) : Except Files.Error Bool :=
  if o.input = standardInput then .ok true else files.contains o.input

/-- Runs the command with options. -/
def Options.run (o : Options) (files : Files.Tree) (input : List UInt8) :
    Except Files.Error Report := do
  if ← o.inputIsThere files then return o.report files input
  else return { exit := 1, errors := s!"Error: Input file not found: {o.input}\n", files }

/-- Runs the command. -/
def run (files : Files.Tree) (input : List UInt8) (arguments : List String) :
    Except Files.Error Report :=
  match Request.ofArguments arguments with
  | .error e =>
    .ok { exit := 2, errors := s!"{usageText}{programName}: error: {e.message}\n", files }
  | .ok .help => .ok { output := helpText, files }
  | .ok .version => .ok { output := versionText, files }
  | .ok (.run options) => options.run files input

end Dcpu.Command
