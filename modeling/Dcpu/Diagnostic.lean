import Dcpu.Text.Blank
import Dcpu.Text.Numeral

/-!
# Diagnostics

What can be wrong with an assembly source, with an instruction or with a stream of words. A `Fault`
is a cause, a `Location` says where it was found, and a `Diagnostic` is the two together. Every
fault belongs to a `Category`, and the categories form a tree with the root `Category.assembly`.

A `Failure` is a diagnostic or one of the two ways in which a number has too many digits. A
diagnostic is made with its message, so all numbers in the message have to be short enough to be
written (`Location.failure`).
-/

namespace Dcpu

/-- A place in a source: the number and the text of a line, each of which may be unknown. -/
structure Location where
  line : Option Int := none
  text : Option String := none
  deriving DecidableEq, Repr

/-- Tells whether the number of the line can be written, if it is known. -/
def Location.isWritable (location : Location) : Bool :=
  location.line.all Text.isWritable

/-- The kinds of faults, from the general to the special. -/
inductive Category where
  | assembly
  | parse
  | encoding
  | symbol
  | malformedLine
  | unknownInstruction
  | unrecognizedOperand
  | invalidIndirectRegister
  | malformedIndirectOffset
  | valueRange
  | undefinedLabel
  | duplicateLabel
  deriving DecidableEq, Repr

/-- The more general kinds to which a kind belongs, the nearest one first. -/
def Category.ancestors : Category → List Category
  | .assembly => []
  | .parse | .encoding | .symbol => [.assembly]
  | .malformedLine | .unknownInstruction => [.parse, .assembly]
  | .unrecognizedOperand | .invalidIndirectRegister | .malformedIndirectOffset | .valueRange =>
    [.encoding, .assembly]
  | .undefinedLabel | .duplicateLabel => [.symbol, .assembly]

/-- The causes of a diagnostic. -/
inductive Fault where
  /-- A fault described in free words. -/
  | remark (category : Category) (text : String)
  /-- A line has a number of tokens that no line can have. -/
  | tokenCount (count : Nat)
  /-- A colon with no name after it. -/
  | emptyLabel
  /-- A label that is not made of lower-case letters. -/
  | labelName (label : String)
  /-- An operation with the wrong number of operands. -/
  | operandCount (mnemonic : String) (expected given : Nat)
  /-- A source with an octet beyond ASCII. -/
  | nonAscii (octet : UInt8)
  /-- A mnemonic, if there is any, that names no operation. -/
  | unknownInstruction (mnemonic : Option String)
  /-- A token that is no operand. -/
  | unrecognizedOperand (token : String)
  /-- A register that cannot stand between brackets. -/
  | invalidIndirectRegister (register : String)
  /-- A sum between brackets that is not an integer plus a register. -/
  | malformedIndirectOffset (operand : String)
  /-- A value that is no word. -/
  | valueRange (value : Int)
  /-- A label with no definition, and the labels that have one. -/
  | undefinedLabel (label : String) (known : List String)
  /-- A label defined twice, and the line of its first definition. -/
  | duplicateLabel (label : String) (first : Option Int)
  /-- An opcode wider than its field. -/
  | opcodeWidth (opcode : Int)
  /-- An operand code wider than its field. -/
  | operandWidth (code : Int)
  /-- An instruction that still refers to a label. -/
  | unresolved (label : String)
  /-- A stream of octets that does not consist of whole words. -/
  | oddBytes (count : Nat)
  /-- A stream of words that stops inside the instruction at an address. -/
  | truncated (address : Nat)
  deriving DecidableEq, Repr

namespace Fault

/-- The kind of a fault. -/
def category : Fault → Category
  | remark category _ => category
  | tokenCount _ | emptyLabel | labelName _ | operandCount .. => .malformedLine
  | nonAscii _ => .parse
  | unknownInstruction _ => .unknownInstruction
  | unrecognizedOperand _ => .unrecognizedOperand
  | invalidIndirectRegister _ => .invalidIndirectRegister
  | malformedIndirectOffset _ => .malformedIndirectOffset
  | valueRange _ => .valueRange
  | undefinedLabel .. => .undefinedLabel
  | duplicateLabel .. => .duplicateLabel
  | opcodeWidth _ | operandWidth _ | unresolved _ | oddBytes _ | truncated _ => .encoding

/-- What stands for a mnemonic that is missing. -/
def missingMnemonic : String := "None"

/-- The words for a fault. -/
def message : Fault → String
  | remark _ text => text
  | tokenCount count => s!"Wrong number of tokens ({Text.decimal count})"
  | emptyLabel => "Empty label name"
  | labelName label => s!"Invalid label name {label} (lowercase letters only)"
  | operandCount mnemonic expected given =>
    s!"{mnemonic} requires {Text.decimal expected} operand(s), got {Text.decimal given}"
  | nonAscii octet => s!"Non-ASCII byte 0x{Text.hex 2 octet.toNat} in source"
  | unknownInstruction mnemonic => s!"No such instruction: {mnemonic.getD missingMnemonic}"
  | unrecognizedOperand token => s!"Unrecognized value {token}"
  | invalidIndirectRegister register =>
    s!"Can't use indirect addressing on non-basic register {register}"
  | malformedIndirectOffset operand => s!"Malformed indirect offset value {operand}"
  | valueRange value => s!"Value {Text.decimal value} out of range [0, 65535] for 16-bit word"
  | undefinedLabel label known =>
    let names := if known.isEmpty then "(none)" else ", ".intercalate known
    s!"Cannot find label {label} in {names}"
  | duplicateLabel label none => s!"Duplicate label: {label}"
  | duplicateLabel label (some first) =>
    s!"Duplicate label: {label} (first defined on line {Text.decimal first})"
  | opcodeWidth opcode => s!"Opcode {Text.hexLiteral opcode} does not fit in 4 bits"
  | operandWidth code => s!"Operand code {Text.hexLiteral code} does not fit in 6 bits"
  | unresolved label => s!"Unresolved instruction: label {label} has no address"
  | oddBytes count => s!"Odd byte count {Text.decimal count} in word stream"
  | truncated address => s!"Word stream ends inside instruction at address {Text.address address}"

/-- Tells whether the numbers in the words for a fault can be written. A count cannot be too
long. -/
def isWritable : Fault → Bool
  | valueRange value => Text.isWritable value
  | duplicateLabel _ first => first.all Text.isWritable
  | _ => true

/-- A reference to a label that is not among the given names, which are listed in order. -/
def missingLabel (label : String) (names : List String) : Fault :=
  undefinedLabel label (names.mergeSort fun a b => decide (a ≤ b))

end Fault

/-- A fault and the place where it was found. -/
structure Diagnostic where
  fault : Fault
  location : Location := {}
  deriving DecidableEq, Repr

/-- The message of a diagnostic. The line number comes first and the text of the line last; without
a line number the text is not shown either. -/
def Diagnostic.message (d : Diagnostic) : String :=
  match d.location.line with
  | none => d.fault.message
  | some line =>
    let text := (d.location.text.getD "").toList
    let excerpt := if text.isEmpty then [] else "\n  ".toList ++ Text.trimEnd text
    s!"Line {Text.decimal line}: {d.fault.message}{String.ofList excerpt}"

/-- Why assembling, encoding or decoding did not succeed. -/
inductive Failure where
  | diagnostic (diagnostic : Diagnostic)
  /-- A decimal literal has too many digits to be read. -/
  | longLiteral (digits : Nat)
  /-- A value has too many digits to be written into a message. -/
  | longValue
  deriving DecidableEq, Repr

/-- The failure with a fault at this place, unless a number in the message is too long. -/
def Location.failure (location : Location) (fault : Fault) : Failure :=
  if location.isWritable && fault.isWritable then .diagnostic { fault, location } else .longValue

namespace Location

/-- A fault is reported by a diagnostic if all numbers in the message can be written. -/
theorem failure_of_isWritable {location : Location} {fault : Fault}
    (place : location.isWritable = true) (words : fault.isWritable = true) :
    location.failure fault = .diagnostic { fault, location } :=
  if_pos (Bool.and_eq_true_iff.2 ⟨place, words⟩)

/-- A fault is not reported if it has a number that cannot be written. -/
theorem failure_of_words (location : Location) (fault : Fault) (long : fault.isWritable = false) :
    location.failure fault = .longValue := by
  rw [failure, long, Bool.and_false]
  rfl

end Location

namespace Failure

/-- The failure for a value that is no word. -/
def valueRange (value : Int) (location : Location := {}) : Failure :=
  location.failure (.valueRange value)

/-- What the messages on long numbers begin with. -/
def limitExceeded : String :=
  s!"Exceeds the limit ({Text.decimal Text.digitLimit} digits) for integer string conversion"

/-- How the limit on long numbers can be changed. -/
def limitAdvice : String := "use sys.set_int_max_str_digits() to increase the limit"

/-- The message of a failure. -/
def message : Failure → String
  | diagnostic d => d.message
  | longLiteral digits =>
    s!"{limitExceeded}: value has {Text.decimal digits} digits; {limitAdvice}"
  | longValue => s!"{limitExceeded}; {limitAdvice}"

end Failure

end Dcpu
