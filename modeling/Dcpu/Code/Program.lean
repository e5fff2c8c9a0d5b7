import Dcpu.Code.Instruction

/-!
# Programs

A program is a list of instructions and the labels of its source. Its words are the words of its
instructions one after the other, so the address of an instruction is the sum of the sizes before
it.
-/

namespace Dcpu

/-- An assembled program. -/
structure Program where
  instructions : List Instruction := []
  labels : Labels := []
  deriving DecidableEq, Repr

namespace Program

/-- The number of words of a program. -/
def size (p : Program) : Nat :=
  p.instructions.foldr (fun i size => i.size + size) 0

/-- The addresses of instructions of which the first stands at `address`, after the addresses
`done` in reverse order. -/
def addressesFrom : List Nat → Nat → List Instruction → List Nat
  | done, _, [] => done.reverse
  | done, address, i :: rest => addressesFrom (address :: done) (address + i.size) rest

/-- The address of every instruction. -/
def addresses (p : Program) : List Nat :=
  addressesFrom [] 0 p.instructions

/-- Addresses are added behind those that are there. -/
theorem addressesFrom_eq_append (done : List Nat) (address : Nat) (is : List Instruction) :
    addressesFrom done address is = done.reverse ++ addressesFrom [] address is := by
  induction is generalizing done address with
  | nil => simp [addressesFrom]
  | cons i is ih =>
    simp only [addressesFrom]
    rw [ih (address :: done), ih [address]]
    simp

/-- The words of a program. -/
def words (p : Program) : Except Failure (List Int) :=
  (p.instructions.mapM Instruction.words).map List.flatten

/-- The octets of a program. -/
def bytes (p : Program) : Except Failure (List UInt8) :=
  p.words.bind wordsToBytes

/-- The listing of a program, one line for every instruction. -/
def listing (p : Program) : Except Failure String :=
  (p.instructions.mapM Instruction.render).map ("\n".intercalate ·)

/-- The words of a program in hexadecimal, one to a line. -/
def hexDump (p : Program) : Except Failure String :=
  p.words.map fun words => "\n".intercalate (words.map (Text.hex 4))

end Program

end Dcpu
