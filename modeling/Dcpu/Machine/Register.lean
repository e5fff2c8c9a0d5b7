import Dcpu.Text.Numeral

/-!
# Registers

The names that stand for an operand of their own: eight general registers with the codes 0 to 7, and
the stack accesses, the stack pointer, the program counter and the overflow register with the codes
0x18 to 0x1d.
-/

namespace Dcpu

/-- The registers and stack accesses of the machine. -/
inductive Register where
  | a | b | c | x | y | z | i | j
  | pop | peek | push | sp | pc | o
  deriving DecidableEq, Repr

namespace Register

/-- All registers in the order of their codes. -/
def all : List Register :=
  [a, b, c, x, y, z, i, j, pop, peek, push, sp, pc, o]

/-- The name of a register in a source. -/
def name : Register → String
  | a => "A" | b => "B" | c => "C" | x => "X" | y => "Y" | z => "Z" | i => "I" | j => "J"
  | pop => "POP" | peek => "PEEK" | push => "PUSH" | sp => "SP" | pc => "PC" | o => "O"

/-- The operand code of a register. -/
def code : Register → Nat
  | a => 0 | b => 1 | c => 2 | x => 3 | y => 4 | z => 5 | i => 6 | j => 7
  | pop => 0x18 | peek => 0x19 | push => 0x1a | sp => 0x1b | pc => 0x1c | o => 0x1d

/-- Tells whether a register is general, so that it can stand between brackets. -/
def isGeneral (r : Register) : Bool :=
  r.code ≤ j.code

/-- A name or a code that belongs to no register. -/
inductive Unknown where
  | name (name : String)
  | code (code : Int)
  deriving DecidableEq, Repr

/-- The words for an unknown register. -/
def Unknown.message : Unknown → String
  | name text => s!"Invalid register name: {text}"
  | code number => s!"Invalid register code: {Text.hexLiteral number}"

/-- The register with a name. -/
def ofName? (name : String) : Option Register :=
  all.find? (·.name == name)

/-- The register with a code. -/
def ofCode? (code : Int) : Option Register :=
  all.find? fun r => (r.code : Int) == code

/-- The register with a name, or the reason why there is none. -/
def ofName (name : String) : Except Unknown Register :=
  (ofName? name).elim (.error (.name name)) .ok

/-- The register with a code, or the reason why there is none. -/
def ofCode (code : Int) : Except Unknown Register :=
  (ofCode? code).elim (.error (.code code)) .ok

/-- The list of all registers is complete. -/
theorem mem_all (r : Register) : r ∈ all := by
  cases r <;> decide

/-- A register is found by its name. -/
@[simp]
theorem ofName?_name (r : Register) : ofName? r.name = some r := by
  cases r <;> decide

/-- A register is found by its code. -/
@[simp]
theorem ofCode?_code (r : Register) : ofCode? r.code = some r := by
  cases r <;> decide

end Register

end Dcpu
