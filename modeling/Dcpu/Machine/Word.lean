import Dcpu.Diagnostic
import Dcpu.Machine.Operation

/-!
# Words

The instruction word and its three fields, the operand codes, and the octets of a word stream.

An instruction word holds the opcode in its lowest four bits, then six bits for operand A and six
bits for operand B. Words are written as two octets, the higher one first. Fields and words are
integers without bound until they are checked, so that what does not fit can be reported.
-/

namespace Dcpu

/-- Tells whether a value fits into a word of sixteen bits. -/
def IsWord (value : Int) : Prop :=
  0 ≤ value ∧ value ≤ 0xffff

instance (value : Int) : Decidable (IsWord value) :=
  inferInstanceAs (Decidable (_ ∧ _))

/-- The value itself if it is a word. -/
def checkWord (value : Int) (location : Location := {}) : Except Failure Int :=
  if IsWord value then .ok value else .error (.valueRange value location)

/-! ### Operand codes -/

namespace OperandCode

/-- The first of the codes for a general register between brackets. -/
def indirect : Nat := 0x08

/-- The first of the codes for the next word plus a general register between brackets. -/
def indirectOffset : Nat := 0x10

/-- The code for the next word between brackets. -/
def indirectNextWord : Nat := 0x1e

/-- The code for the next word as a value. -/
def nextWord : Nat := 0x1f

/-- The first of the codes for a small value that stands for itself. -/
def small : Nat := 0x20

/-- The largest small value. -/
def maxSmall : Nat := 0x1f

/-- Tells whether an operand with a code takes the next word of the instruction. -/
def needsNextWord (code : Int) : Bool :=
  (indirectOffset ≤ code && code < indirectOffset + 8) || code == indirectNextWord ||
    code == nextWord

end OperandCode

/-! ### Instruction words -/

/-- The fields of an instruction word: the opcode and the codes of the two operands. -/
structure Fields where
  opcode : Int := 0
  a : Int := 0
  b : Int := 0
  deriving DecidableEq, Repr

namespace Fields

/-- Tells whether every field fits into its bits. -/
def Fits (f : Fields) : Prop :=
  (0 ≤ f.opcode ∧ f.opcode ≤ 0xf) ∧ (0 ≤ f.a ∧ f.a ≤ 0x3f) ∧ (0 ≤ f.b ∧ f.b ≤ 0x3f)

instance (f : Fields) : Decidable f.Fits :=
  inferInstanceAs (Decidable (_ ∧ _))

/-- The instruction word with the given fields. -/
def pack (f : Fields) : Except Failure Int :=
  if ¬(0 ≤ f.opcode ∧ f.opcode ≤ 0xf) then .error (.diagnostic { fault := .opcodeWidth f.opcode })
  else if ¬(0 ≤ f.a ∧ f.a ≤ 0x3f) then .error (.diagnostic { fault := .operandWidth f.a })
  else if ¬(0 ≤ f.b ∧ f.b ≤ 0x3f) then .error (.diagnostic { fault := .operandWidth f.b })
  else .ok (f.opcode + 0x10 * f.a + 0x400 * f.b)

/-- The fields of a word. Only the lowest sixteen bits of an integer count, and a negative integer
stands for its two's complement. -/
def ofWord (word : Int) : Fields where
  opcode := word % 0x10
  a := word / 0x10 % 0x40
  b := word / 0x400 % 0x40

/-- The operand codes of a word that belong to operands: operand A of an extended operation is the
code of the operation. -/
def operands (f : Fields) : List Int :=
  if f.opcode = Operation.extendedOpcode then [f.b] else [f.a, f.b]

/-- The number of words that follow an instruction word. -/
def trailingCount (f : Fields) : Nat :=
  f.operands.countP OperandCode.needsNextWord

/-- Fields that fit are packed into one word. -/
theorem pack_eq_ok_iff {f : Fields} {w : Int} :
    f.pack = .ok w ↔ f.Fits ∧ w = f.opcode + 0x10 * f.a + 0x400 * f.b := by
  unfold pack Fits
  split
  · next h => simp [h]
  · next h =>
    split
    · next h' => simp [h']
    · next h' =>
      split
      · next h'' => simp [h'']
      · next h'' =>
        simp only [Decidable.not_not] at h h' h''
        simp [h, h', h'', eq_comm]

/-- The fields of every integer fit. -/
theorem fits_ofWord (word : Int) : (ofWord word).Fits := by
  simp only [Fits, ofWord]
  omega

end Fields

/-! ### Word streams -/

/-- The two octets of a word, the higher one first. -/
def octets (word : Int) : List UInt8 :=
  [UInt8.ofNat (word.toNat / 0x100), UInt8.ofNat (word.toNat % 0x100)]

/-- The octets of a list of words; the first value that is no word is an error. -/
def wordsToBytes (words : List Int) : Except Failure (List UInt8) := do
  let words ← words.mapM fun word => checkWord word
  return words.flatMap octets

/-- Joins octets pairwise to words, after the words `done` in reverse order. -/
def joinOctets : List Int → List UInt8 → List Int
  | done, high :: low :: rest => joinOctets ((high.toNat * 0x100 + low.toNat : Nat) :: done) rest
  | done, _ => done.reverse

/-- The words of a list of octets, of which there has to be an even number. -/
def bytesToWords (bytes : List UInt8) : Except Failure (List Int) :=
  if bytes.length % 2 = 0 then .ok (joinOctets [] bytes)
  else .error (.diagnostic { fault := .oddBytes bytes.length })

end Dcpu
