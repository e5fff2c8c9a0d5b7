import Dcpu.Machine.Word

/-!
# Decoding

The way back from a stream of words to instructions. The codes of the operands say how many words
follow an instruction word; a stream that ends before them is truncated.
-/

namespace Dcpu

/-- An instruction found in a stream of words. -/
structure Decoded where
  address : Nat
  fields : Fields
  trailing : List Int
  deriving DecidableEq, Repr

namespace Decoded

/-- The number of words of an instruction. -/
def size (d : Decoded) : Nat :=
  1 + d.trailing.length

/-- The operation of an instruction. -/
def operation? (d : Decoded) : Option Operation :=
  Operation.ofFields? d.fields.opcode d.fields.a

end Decoded

/-- What a stream of words holds: its instructions, and the address of one that is cut off. -/
structure Decoding where
  items : List Decoded
  truncated : Option Nat := none
  deriving DecidableEq, Repr

namespace Decoding

/-- Why a stream could not be decoded to its end. -/
def failure? (d : Decoding) : Option Failure :=
  d.truncated.map fun address => .diagnostic { fault := .truncated address }

/-- Decodes words of which the first stands at `address`, after the instructions `done` in reverse
order. -/
def decodeFrom (done : List Decoded) (address : Nat) : List Int → Decoding
  | [] => { items := done.reverse }
  | word :: rest =>
    let fields := Fields.ofWord word
    match fields.trailingCount with
    | 0 => decodeFrom (⟨address, fields, []⟩ :: done) (address + 1) rest
    | 1 =>
      match rest with
      | x :: rest => decodeFrom (⟨address, fields, [x]⟩ :: done) (address + 2) rest
      | [] => { items := done.reverse, truncated := some address }
    | _ =>
      match rest with
      | x :: y :: rest => decodeFrom (⟨address, fields, [x, y]⟩ :: done) (address + 3) rest
      | _ => { items := done.reverse, truncated := some address }

/-- Decodes a stream of words. -/
def ofWords (words : List Int) : Decoding :=
  decodeFrom [] 0 words

end Decoding

end Dcpu
