import Dcpu.Code.Instruction
import Dcpu.Machine.Register
import Dcpu.Source.Operand

/-!
# Instructions under construction

A draft collects the fields and the following words of an instruction while its operands are
encoded. `Drafting` is work on a draft: it changes the draft step by step and may fail on the way.
`Drafting.operand` gives the code of an operand and adds the word the operand needs, if it needs
one.
-/

namespace Dcpu

open Source (Direct Operand)

/-- An instruction under construction. -/
structure Draft where
  location : Location := {}
  fields : Fields := {}
  trailing : List Slot := []
  deriving DecidableEq, Repr

namespace Draft

/-- Adds a value, which has to be a word. -/
def extend (d : Draft) (value : Int) : Except Failure Draft :=
  (checkWord value d.location).map fun value =>
    { d with trailing := d.trailing ++ [.literal value] }

/-- Adds a reference to a label. -/
def refer (d : Draft) (label : String) : Draft :=
  { d with trailing := d.trailing ++ [.reference label] }

/-- The finished instruction. -/
def build (d : Draft) : Instruction :=
  { location := d.location, fields := d.fields, trailing := d.trailing }

end Draft

/-- Work on a draft. A change that was made before a failure is not taken back. -/
abbrev Drafting := EStateM Failure Draft

namespace Drafting

/-- Fails with a fault at the place of the draft. -/
def refuse {α : Type} (fault : Fault) : Drafting α := do
  throw ((← get).location.failure fault)

/-- Adds a value to the draft. -/
def extend (value : Int) : Drafting Unit := do
  set (← ofExcept ((← get).extend value))

/-- Adds a reference to the draft. -/
def refer (label : String) : Drafting Unit :=
  modify (·.refer label)

/-- Encodes a direct operand. Small values and registers stand for themselves, any other value or a
label takes the next word. -/
def direct : Direct → Drafting Nat
  | .integer value => do
    if value ≤ OperandCode.maxSmall then return OperandCode.small + value
    extend value
    return OperandCode.nextWord
  | .register name =>
    match Register.ofName? name with
    | some register => return register.code
    | none => refuse (.unrecognizedOperand name)
  | .label name => do
    refer name
    return OperandCode.nextWord

/-- Encodes a direct operand between brackets. Only general registers can stand there. -/
def indirect : Direct → Drafting Nat
  | .integer value => do
    extend value
    return OperandCode.indirectNextWord
  | .register name =>
    match (Register.ofName? name).filter Register.isGeneral with
    | some register => return OperandCode.indirect + register.code
    | none => refuse (.invalidIndirectRegister name)
  | .label name => do
    refer name
    return OperandCode.indirectNextWord

/-- Encodes a sum between brackets. The code does not depend on the register. -/
def offset (text : String) (value : Option Nat) (register : String) : Drafting Nat :=
  match value, Register.ofName? register with
  | some value, some _ => do
    extend value
    return OperandCode.indirectOffset
  | _, _ => refuse (.malformedIndirectOffset text)

/-- Encodes the operand that a token denotes. -/
def operand (token : String) : Drafting Nat := do
  match ← ofExcept (Operand.ofToken token) with
  | .direct operand => direct operand
  | .indirect target => indirect target
  | .offset text value register => offset text value register
  | .invalid token => refuse (.unrecognizedOperand token)

end Drafting

/-- The code of the operand that a token denotes, and the draft with the word it takes. -/
def Draft.operand (d : Draft) (token : String) : Except Failure (Nat × Draft) :=
  match Drafting.operand token d with
  | .ok code d => .ok (code, d)
  | .error f _ => .error f

end Dcpu
