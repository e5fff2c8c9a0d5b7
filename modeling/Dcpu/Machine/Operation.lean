/-!
# Operations

The operations of the machine. A basic operation has two operands and its code stands in the opcode
field of the instruction word. An extended operation has the opcode 0, one operand, and its own code
in the field of operand A.
-/

namespace Dcpu

/-- The two shapes of an instruction word. -/
inductive Format where
  | basic
  | extended
  deriving DecidableEq, Repr

/-- The number of operands of a format. -/
def Format.operandCount : Format → Nat
  | basic => 2
  | extended => 1

/-- The operations. -/
inductive Operation where
  | set | add | sub | mul | div | mod | shl | shr | and | bor | xor | ife | ifn | ifg | ifb
  | jsr
  deriving DecidableEq, Repr

namespace Operation

/-- The opcode that announces an extended operation. -/
def extendedOpcode : Nat := 0

/-- All operations, the basic ones first. -/
def all : List Operation :=
  [set, add, sub, mul, div, mod, shl, shr, and, bor, xor, ife, ifn, ifg, ifb, jsr]

/-- The name of an operation in a source. -/
def mnemonic : Operation → String
  | set => "SET" | add => "ADD" | sub => "SUB" | mul => "MUL" | div => "DIV" | mod => "MOD"
  | shl => "SHL" | shr => "SHR" | and => "AND" | bor => "BOR" | xor => "XOR"
  | ife => "IFE" | ifn => "IFN" | ifg => "IFG" | ifb => "IFB"
  | jsr => "JSR"

/-- The format of an operation. -/
def format : Operation → Format
  | jsr => .extended
  | _ => .basic

/-- The code of an operation within its format. -/
def code : Operation → Nat
  | set => 1 | add => 2 | sub => 3 | mul => 4 | div => 5 | mod => 6 | shl => 7 | shr => 8
  | and => 9 | bor => 10 | xor => 11 | ife => 12 | ifn => 13 | ifg => 14 | ifb => 15
  | jsr => 1

/-- The operation with a mnemonic. -/
def ofMnemonic? (mnemonic : String) : Option Operation :=
  all.find? (·.mnemonic == mnemonic)

/-- The operation of an instruction word with an opcode and an operand code A. -/
def ofFields? (opcode a : Int) : Option Operation :=
  if opcode = extendedOpcode then
    all.find? fun op => op.format == .extended && (op.code : Int) == a
  else
    all.find? fun op => op.format == .basic && (op.code : Int) == opcode

/-- The list of all operations is complete. -/
theorem mem_all (op : Operation) : op ∈ all := by
  cases op <;> decide

/-- An operation is found by its mnemonic. -/
@[simp]
theorem ofMnemonic?_mnemonic (op : Operation) : ofMnemonic? op.mnemonic = some op := by
  cases op <;> decide

end Operation

end Dcpu
