import Dcpu.Code.Labels
import Dcpu.Machine.Word

/-!
# Instructions

An instruction is an instruction word, given by its fields, and the words that follow it. A
following word is a slot: a value that is known, or a reference to a label whose address is not yet
known. `Instruction.resolve` fills in the references.

Nothing is checked when an instruction is made. `Instruction.words` fails if a reference is left or
a field does not fit, and `Instruction.bytes` also if a value is no word.
-/

namespace Dcpu

/-- A word that follows an instruction word. -/
inductive Slot where
  | literal (value : Int)
  | reference (label : String)
  deriving DecidableEq, Repr

namespace Slot

/-- The label to which a slot refers. -/
def label? : Slot → Option String
  | literal _ => none
  | reference label => some label

/-- The slot with the address of its label filled in; a label without an address is given back. -/
def resolve (labels : Labels) : Slot → Except String Slot
  | literal value => .ok (literal value)
  | reference label =>
    match labels.get? label with
    | some address => .ok (literal address)
    | none => .error label

/-- The value of a slot; a label without an address is given back. -/
def value : Slot → Except String Int
  | literal value => .ok value
  | reference label => .error label

end Slot

/-- An encoded instruction and the source line from which it comes. -/
structure Instruction where
  location : Location := {}
  fields : Fields := {}
  trailing : List Slot := []
  deriving DecidableEq, Repr

namespace Instruction

/-- The number of words of an instruction. -/
def size (i : Instruction) : Nat :=
  1 + i.trailing.length

/-- The instruction word. -/
def word (i : Instruction) : Except Failure Int :=
  i.fields.pack

/-- The references of an instruction, each with the index of its slot. -/
def references (i : Instruction) : List (Nat × String) :=
  i.trailing.zipIdx.filterMap fun (slot, index) => slot.label?.map (index, ·)

/-- Tells whether an instruction refers to no label. -/
def isResolved (i : Instruction) : Bool :=
  i.references.isEmpty

/-- The instruction with the addresses of all its labels filled in. If it refers to none, it is
given back as it is. -/
def resolve (i : Instruction) (labels : Labels) : Except Failure Instruction :=
  if i.isResolved then .ok i
  else
    match i.trailing.mapM (Slot.resolve labels) with
    | .ok trailing => .ok { i with trailing }
    | .error label => .error (i.location.failure (.missingLabel label labels.names))

/-- The instruction word and the words that follow it. -/
def words (i : Instruction) : Except Failure (List Int) :=
  match i.trailing.mapM Slot.value with
  | .ok values => i.word.map (· :: values)
  | .error label => .error (i.location.failure (.unresolved label))

/-- The octets of an instruction. -/
def bytes (i : Instruction) : Except Failure (List UInt8) :=
  i.words.bind wordsToBytes

/-- The number of the source line as it stands in a listing. -/
def lineNumber (i : Instruction) : String :=
  (i.location.line.map Text.decimal).getD "None"

/-- A line of a listing: the number of the source line, a colon, and the words in hexadecimal. The
number is written first. -/
def render (i : Instruction) : Except Failure String :=
  if i.location.isWritable then
    i.words.map fun words => i.lineNumber ++ ": " ++ " ".intercalate (words.map (Text.hex 4))
  else .error .longValue

/-- Fills in the references of a list of instructions. -/
def resolveAll (instructions : List Instruction) (labels : Labels) :
    Except Failure (List Instruction) :=
  instructions.mapM (·.resolve labels)

end Instruction

end Dcpu
