import Dcpu.Command.Switch
import Dcpu.Text.Digit

/-!
# Arguments

What an argument of the command line is: a switch, a value, the separator `--`, after which all is a
value, or something that looks like a switch and is none.

A long switch may be shortened to any beginning that no other long switch has. Short switches may be
joined behind one dash, and a value may be attached to a switch.
-/

namespace Dcpu.Command

/-- What an argument is. A switch is short or long and may have a text attached to it. -/
inductive Argument where
  | value (text : String)
  | separator
  | switch (switch : Switch) (long : Bool) (attached : Option String)
  | unknown (text : String)
  deriving DecidableEq, Repr

namespace Argument

/-- The two parts of a text around its first equals sign. -/
def splitAtEquals? (cs : List Char) : Option (List Char × List Char) :=
  match cs.dropWhile (· != '=') with
  | _ :: right => some (cs.takeWhile (· != '='), right)
  | [] => none

/-- Tells whether a text is one or more decimal digits. -/
def isNumeral (cs : List Char) : Bool :=
  (Text.digits? Text.decimalDigit? cs).isSome

/-- Tells whether a text, less a line feed at its end, is a negative number: a minus sign, and an
integer or a fraction with a point. -/
def isNegativeNumber (cs : List Char) : Bool :=
  match if cs.getLast? = some '\n' then cs.dropLast else cs with
  | '-' :: rest =>
    isNumeral rest ||
      match rest.splitOn '.' with
      | [whole, fraction] => (whole.isEmpty || isNumeral whole) && isNumeral fraction
      | _ => false
  | _ => false

/-- The switches that an argument with two dashes can stand for, with the attached text. -/
def longCandidates (cs : List Char) : List (String × Switch × Option String) :=
  let (stem, attached) :=
    match splitAtEquals? cs with
    | some (left, right) => (left, some (String.ofList right))
    | none => (cs, none)
  (Switch.table.filter fun entry => stem.isPrefixOf entry.1.toList).map
    fun entry => (entry.1, entry.2, attached)

/-- What an argument is that starts with a dash and is no spelling of a switch. -/
def guess (argument : String) (cs : List Char) : Except UsageError Argument :=
  let other :=
    if isNegativeNumber cs || cs.contains ' ' then value argument else unknown argument
  match cs with
  | '-' :: '-' :: _ =>
    match longCandidates cs with
    | [] => .ok other
    | [(_, s, attached)] => .ok (switch s true attached)
    | candidates => .error (.ambiguous argument (candidates.map (·.1)))
  | '-' :: letter :: attached =>
    match Switch.ofSpelling? (String.ofList ['-', letter]) with
    | some s => .ok (switch s false (some (String.ofList attached)))
    | none => .ok other
  | _ => .ok (value argument)

/-- Tells whether a spelling has two dashes. -/
def isLong (spelling : List Char) : Bool :=
  ['-', '-'].isPrefixOf spelling

/-- What an argument before the separator is. -/
def classify (argument : String) : Except UsageError Argument :=
  let cs := argument.toList
  if cs.head? ≠ some '-' then .ok (value argument)
  else
    match Switch.ofSpelling? argument with
    | some s => .ok (switch s (isLong cs) none)
    | none =>
      match splitAtEquals? cs with
      | none => guess argument cs
      | some (spelling, attached) =>
        match Switch.ofSpelling? (String.ofList spelling) with
        | some s => .ok (switch s (isLong spelling) (some (String.ofList attached)))
        | none => guess argument cs

/-- Classifies a list of arguments. -/
def classifyAll : List String → Except UsageError (List Argument)
  | [] => .ok []
  | argument :: rest =>
    if argument = "--" then .ok (separator :: rest.map value)
    else do return (← classify argument) :: (← classifyAll rest)

end Argument

/-- How a group of joined switches ends: with a switch that takes no value, with `output` and a
value attached to it, or with `output` and its value in the next argument. -/
inductive Ending where
  | plain
  | attached (value : String)
  | next
  deriving DecidableEq, Repr

/-- The switches in a group of short switches, of which the first is given and the others are the
characters after it. As older readers of command lines have it, the equals sign in `-qo=x` belongs
to the value, and what follows a switch in `-qx` and is no switch is a value that the switch
ignores. -/
def expandShort (s : Switch) : List Char → Except UsageError (List Switch × Ending)
  | [] => .ok (if s = .output then ([], .next) else ([s], .plain))
  | letter :: rest =>
    if s = .output then .ok ([], .attached (String.ofList (letter :: rest)))
    else
      match Switch.ofSpelling? (String.ofList ['-', letter]) with
      | none => .error (.ignoredValue s (String.ofList (letter :: rest)))
      | some following => do
        let (switches, ending) ← expandShort following rest
        return (s :: switches, ending)

/-- The switches that an argument stands for. -/
def expand (s : Switch) (long : Bool) : Option String → Except UsageError (List Switch × Ending)
  | none => expandShort s []
  | some value =>
    if s = .output then .ok ([], .attached value)
    else if long || value.isEmpty then .error (.ignoredValue s value)
    else expandShort s value.toList

end Dcpu.Command
