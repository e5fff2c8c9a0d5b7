import Dcpu.Command.Argument

/-!
# Options

The options of a run, read from the arguments in order. The first value that belongs to no switch is
the input; what is left over is an error at the end. A request for help or for the version ends the
reading at once.
-/

namespace Dcpu.Command

/-- The options of a run. -/
structure Options where
  input : String := "-"
  output : Option String := none
  noOutput : Bool := false
  quiet : Bool := false
  verbose : Bool := false
  deriving DecidableEq, Repr

/-- What the arguments ask for. -/
inductive Request where
  | run (options : Options)
  | help
  | version
  deriving DecidableEq, Repr

/-- What has been read so far: the options, whether the input has been named, and what is left
over. -/
structure Reading where
  options : Options := {}
  hasInput : Bool := false
  extra : List String := []
  deriving DecidableEq, Repr

namespace Reading

/-- Takes a value as the input, or as left over if there is an input. -/
def input (r : Reading) (value : String) : Reading :=
  if r.hasInput then { r with extra := r.extra ++ [value] }
  else { r with options := { r.options with input := value }, hasInput := true }

/-- Sets the output file. An empty value counts as none. So does `--`, which can only be attached
to its switch: older readers of command lines drop it there like a separator, and newer ones keep
it. -/
def output (r : Reading) (value : String) : Reading :=
  let output := if value = "--" || value.isEmpty then none else some value
  { r with options := { r.options with output } }

/-- Takes a switch without a value; a request for help or for the version ends the reading. -/
def switch (r : Reading) : Switch → Except Request Reading
  | .help => .error .help
  | .version => .error .version
  | .output => .ok r
  | .noOutput => .ok { r with options := { r.options with noOutput := true } }
  | .quiet => .ok { r with options := { r.options with quiet := true } }
  | .verbose => .ok { r with options := { r.options with verbose := true } }

/-- The request at the end of the arguments. -/
def finish (r : Reading) : Except UsageError Request :=
  if r.extra.isEmpty then .ok (.run r.options) else .error (.unrecognized r.extra)

/-- Takes a group of switches, and the output file if the group ends with one. -/
def group (r : Reading) (switches : List Switch) (value : Option String) :
    Except Request Reading := do
  let r ← switches.foldlM switch r
  return value.elim r r.output

/-- Takes the arguments in order. A separator next to the input is dropped with it. -/
def run (r : Reading) : List Argument → Except UsageError Request
  | [] => r.finish
  | .unknown text :: rest => { r with extra := r.extra ++ [text] }.run rest
  | .value text :: .separator :: rest =>
    if r.hasInput then { r with extra := r.extra ++ [text, "--"] }.run rest
    else (r.input text).run rest
  | .value text :: rest => (r.input text).run rest
  | .separator :: .value text :: rest =>
    if r.hasInput then { r with extra := r.extra ++ ["--", text] }.run rest
    else (r.input text).run rest
  | .separator :: rest =>
    if r.hasInput then { r with extra := r.extra ++ ["--"] }.run rest
    else { r with hasInput := true }.run rest
  | .switch s long attached :: rest =>
    match expand s long attached with
    | .error e => .error e
    | .ok (switches, .next) =>
      match rest with
      | .value text :: rest =>
        match r.group switches (some text) with
        | .error request => .ok request
        | .ok r => r.run rest
      | _ => .error (.missingValue .output)
    | .ok (switches, .attached text) =>
      match r.group switches (some text) with
      | .error request => .ok request
      | .ok r => r.run rest
    | .ok (switches, .plain) =>
      match r.group switches none with
      | .error request => .ok request
      | .ok r => r.run rest

end Reading

/-- What a list of arguments asks for. -/
def Request.ofArguments (arguments : List String) : Except UsageError Request := do
  Reading.run {} (← Argument.classifyAll arguments)

end Dcpu.Command
