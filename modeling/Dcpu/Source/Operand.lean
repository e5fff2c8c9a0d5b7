import Dcpu.Source.Line
import Dcpu.Source.Literal

/-!
# Operands

The forms of an operand. A direct operand is an integer, a register name or a label. Between
brackets stands a direct operand or a sum of an offset and a register. Any other token is invalid.

The forms do not overlap, and one line feed at the end of the token is tolerated in each of them.
Names are taken as they are written, line feed included; whether a register of that name exists is
not decided here.
-/

namespace Dcpu.Source

/-- An operand that stands without brackets. -/
inductive Direct where
  | integer (value : Nat)
  | register (name : String)
  | label (name : String)
  deriving DecidableEq, Repr

/-- The operands. -/
inductive Operand where
  | direct (operand : Direct)
  /-- A direct operand between brackets. -/
  | indirect (target : Direct)
  /-- A sum between brackets: its text, the value of its first part if that is an integer, and its
  second part, both without blanks around them. -/
  | offset (text : String) (value : Option Nat) (register : String)
  | invalid (token : String)
  deriving DecidableEq, Repr

/-- Tells whether a text has the form of a register name: one or more capital letters. -/
def isRegisterName (cs : List Char) : Bool :=
  !cs.isEmpty && cs.all Char.isUpper

/-- The direct operand that a text denotes. -/
def Direct.ofToken? (token : List Char) : Except Failure (Option Direct) := do
  match ← integer? token with
  | some value => return some (.integer value)
  | none =>
    let cs := dropFinalNewline token
    if isRegisterName cs then return some (.register (String.ofList token))
    else if isLabelName cs then return some (.label (String.ofList token))
    else return none

/-- What stands between the outermost brackets of a text: something without a line feed. -/
def bracketed? (cs : List Char) : Option (List Char) :=
  match cs with
  | '[' :: rest =>
    let inner := rest.dropLast
    if rest.getLast? = some ']' ∧ inner ≠ [] ∧ '\n' ∉ inner then some inner else none
  | _ => none

/-- The two parts of a text with exactly one plus sign and something on either side of it. -/
def sum? (cs : List Char) : Option (List Char × List Char) :=
  match cs.splitOn '+' with
  | [left, right] => if left ≠ [] ∧ right ≠ [] then some (left, right) else none
  | _ => none

namespace Operand

/-- The operand between brackets that a text denotes. -/
def ofInner? (inner : List Char) : Except Failure (Option Operand) := do
  match ← Direct.ofToken? inner with
  | some target => return some (.indirect target)
  | none =>
    match sum? inner with
    | some (left, right) =>
      let value ← integer? (Text.trim left)
      return some (.offset (String.ofList inner) value (String.ofList (Text.trim right)))
    | none => return none

/-- The operand that a token denotes. It fails only where a decimal literal is too long. -/
def ofToken (token : String) : Except Failure Operand := do
  let cs := token.toList
  match ← Direct.ofToken? cs with
  | some operand => return .direct operand
  | none =>
    match bracketed? (dropFinalNewline cs) with
    | some inner => return (← ofInner? inner).getD (.invalid token)
    | none => return .invalid token

end Operand

end Dcpu.Source
