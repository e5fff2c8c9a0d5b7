/-!
# Writing numbers

The forms in which numbers appear in listings and messages: decimal, bare hexadecimal padded with
zeros, and hexadecimal behind `0x`. A minus sign comes first and counts towards the width.
-/

namespace Dcpu.Text

/-- Fills a text with zeros on the left up to a width. -/
def zeroPad (width : Nat) (cs : List Char) : List Char :=
  List.replicate (width - cs.length) '0' ++ cs

/-- An integer in decimal. -/
def decimal (n : Int) : String :=
  let digits := Nat.toDigits 10 n.natAbs
  String.ofList (if n < 0 then '-' :: digits else digits)

/-- An integer in hexadecimal, at least `width` characters wide, the sign included. -/
def hex (width : Nat) (n : Int) : String :=
  let digits := Nat.toDigits 16 n.natAbs
  String.ofList (if n < 0 then '-' :: zeroPad (width - 1) digits else zeroPad width digits)

/-- An integer as a hexadecimal literal such as `0x1f` or `-0x1`. -/
def hexLiteral (n : Int) : String :=
  (if n < 0 then "-0x" else "0x") ++ hex 0 n.natAbs

/-- An address in hexadecimal behind `0x`, with four digits or more. -/
def address (n : Nat) : String :=
  "0x" ++ hex 4 n

/-- An address as `address` writes it, with capital letters as digits. -/
def capitalAddress (n : Nat) : String :=
  "0x" ++ String.ofList ((hex 4 n).toList.map Char.toUpper)

/-- The largest number of decimal digits that is read from a literal or written into a message. -/
def digitLimit : Nat := 4300

/-- Tells whether an integer has at most `digitLimit` decimal digits. -/
@[irreducible]
def isWritable (n : Int) : Bool :=
  n.natAbs < Nat.pow 10 digitLimit

end Dcpu.Text
