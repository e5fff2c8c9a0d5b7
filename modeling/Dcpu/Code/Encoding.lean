import Dcpu.Code.Draft

/-!
# Encoding lines

The instruction that a source line denotes. The operands are encoded in the order in which they are
written, so their following words are in that order too.
-/

namespace Dcpu

/-- The instruction for a basic operation: both operands are encoded. -/
def Draft.basic (d : Draft) (op : Operation) (a b : String) : Except Failure Instruction := do
  let (codeA, d) ← d.operand a
  let (codeB, d) ← d.operand b
  return { d with fields := { opcode := op.code, a := codeA, b := codeB } }.build

/-- The instruction for an extended operation: its code stands in the field of operand A. -/
def Draft.extended (d : Draft) (op : Operation) (operand : String) :
    Except Failure Instruction := do
  let (code, d) ← d.operand operand
  return { d with fields := { opcode := Operation.extendedOpcode, a := op.code, b := code } }.build

namespace Source

/-- The instruction with an operation and operands at a place. -/
def Line.encodeAs (location : Location) (op : Operation) (operands : List String) :
    Except Failure Instruction :=
  match op.format, operands with
  | .basic, [a, b] => Draft.basic { location } op a b
  | .extended, [operand] => Draft.extended { location } op operand
  | format, operands =>
    .error (location.failure (.operandCount op.mnemonic format.operandCount operands.length))

/-- The instruction on a line. A line without a mnemonic has none. -/
def Line.encode (line : Line) : Except Failure Instruction :=
  match line.mnemonic.bind Operation.ofMnemonic? with
  | some op => Line.encodeAs line.location op line.operands
  | none => .error (line.location.failure (.unknownInstruction line.mnemonic))

end Source

end Dcpu
