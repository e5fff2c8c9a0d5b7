import Dcpu.Diagnostic
import Dcpu.Source.Tokens

/-!
# Source lines

A line holds a label, a mnemonic with its operands, both or nothing. A label stands first, behind a
colon. `Line.ofTokens` takes the tokens of a line apart and checks their number and the name of the
label; whether the mnemonic and the operands mean anything is not decided here.
-/

namespace Dcpu.Source

/-- A source line: where it stands and what its tokens say. -/
structure Line where
  location : Location := {}
  label : Option String := none
  mnemonic : Option String := none
  operands : List String := []
  deriving DecidableEq, Repr

/-- Tells whether a text can be the name of a label: one or more lower-case letters. -/
def isLabelName (cs : List Char) : Bool :=
  !cs.isEmpty && cs.all Char.isLower

namespace Line

/-- The characters after the colon if a token defines a label. -/
def labelPart? (token : String) : Option (List Char) :=
  match token.toList with
  | ':' :: name => some name
  | _ => none

/-- The line without a label that consists of a mnemonic and its operands. -/
def statement (location : Location) : List String → Line
  | [] => { location }
  | mnemonic :: operands => { location, mnemonic := some mnemonic, operands }

/-- The line with the given tokens. A label may stand alone; otherwise there are two to four tokens,
the label among them. -/
def ofTokens (location : Location) : List String → Except Failure Line
  | [] => .ok { location }
  | first :: rest =>
    let count := rest.length + 1
    let inRange := 2 ≤ count && count ≤ 4
    match labelPart? first with
    | none =>
      if inRange then .ok (statement location (first :: rest))
      else .error (location.failure (.tokenCount count))
    | some name =>
      if !(rest.isEmpty || inRange) then .error (location.failure (.tokenCount count))
      else if name.isEmpty then .error (location.failure .emptyLabel)
      else if !isLabelName name then
        .error (location.failure (.labelName (String.ofList name)))
      else .ok { statement location rest with label := some (String.ofList name) }

/-- The line with a text and a number. -/
def parse (text : String) (number : Option Int) : Except Failure Line :=
  ofTokens { line := number, text := some text } (tokens text)

end Line

end Dcpu.Source
