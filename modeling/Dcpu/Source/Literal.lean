import Dcpu.Diagnostic
import Dcpu.Text.Digit

/-!
# Integer literals

An integer is written as `0x` and hexadecimal digits, or as decimal digits of any script. One line
feed after the last digit is tolerated. A decimal literal has at most `Text.digitLimit` digits,
leading zeros included.
-/

namespace Dcpu.Source

/-- A text without the line feed at its end, if it has one there. -/
def dropFinalNewline (cs : List Char) : List Char :=
  if cs.getLast? = some '\n' then cs.dropLast else cs

/-- The digits of a hexadecimal literal. -/
def hexDigits? : List Char → Option (List Nat)
  | '0' :: 'x' :: cs => Text.digits? Text.hexDigit? cs
  | _ => none

/-- The digits of a decimal literal. -/
def decimalDigits? (cs : List Char) : Option (List Nat) :=
  Text.digits? Text.decimalDigit? cs

/-- The value of an integer literal, or nothing if the text is none. -/
def integer? (token : List Char) : Except Failure (Option Nat) :=
  let cs := dropFinalNewline token
  match hexDigits? cs with
  | some digits => .ok (some (Text.ofDigits 16 digits))
  | none =>
    match decimalDigits? cs with
    | some digits =>
      if digits.length ≤ Text.digitLimit then .ok (some (Text.ofDigits 10 digits))
      else .error (.longLiteral digits.length)
    | none => .ok none

end Dcpu.Source
