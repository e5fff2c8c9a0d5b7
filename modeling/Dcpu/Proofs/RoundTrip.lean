import Dcpu.Proofs.Assembling
import Dcpu.Proofs.Decoding

/-!
# Decoding an assembled program

The octets of an assembled program can be decoded, and the decoded instructions are those of the
program. The encoder decides by the form of an operand whether a word follows and the decoder by its
code; that the two agree on every operand (`Statement.trailingCount_of_fields?`) makes every
instruction of the program valid for the decoder, and the addresses of the program are those at
which the decoder finds them.
-/

namespace Dcpu
open Results
open Source (body tokens)

namespace Instruction

/-- The instructions that a decoder should find, the first of them at an address. -/
def decodedFrom (address : Nat) : List Instruction → List Decoded
  | [] => []
  | i :: is => ⟨address, i.fields, i.values⟩ :: decodedFrom (address + i.size) is

lemma map_address_decodedFrom (address : Nat) (is : List Instruction) :
    (decodedFrom address is).map Decoded.address = Program.addressesFrom [] address is := by
  induction is generalizing address with
  | nil => rfl
  | cons i is ih =>
    rw [Program.addressesFrom, Program.addressesFrom_eq_append, ← ih]
    rfl

lemma forall₂_decodedFrom (address : Nat) (is : List Instruction) :
    List.Forall₂ (fun i d => d.fields = i.fields ∧ d.trailing = i.values) is
      (decodedFrom address is) := by
  induction is generalizing address with
  | nil => exact .nil
  | cons i is ih => exact .cons ⟨rfl, rfl⟩ (ih (address + i.size))

lemma flatMap_words_decodedFrom (address : Nat) (is : List Instruction) :
    (decodedFrom address is).flatMap Decoded.words =
      (is.map fun i => i.fields.word :: i.values).flatten := by
  induction is generalizing address with
  | nil => rfl
  | cons i is ih =>
    rw [List.map_cons, List.flatten_cons, ← ih (address + i.size)]
    rfl

/-- The instructions to be found are consecutive if all slots have values. -/
lemma consecutive_decodedFrom {is : List Instruction}
    (filled : ∀ i ∈ is, i.values.length = i.trailing.length) (address : Nat) :
    Decoded.Consecutive address (decodedFrom address is) := by
  induction is generalizing address with
  | nil => exact trivial
  | cons i is ih =>
    refine ⟨rfl, ?_⟩
    have size : Decoded.size ⟨address, i.fields, i.values⟩ = i.size := by
      rw [Decoded.size, Instruction.size, filled i List.mem_cons_self]
    rw [size]
    exact ih (fun j mem => filled j (List.mem_cons_of_mem _ mem)) (address + i.size)

end Instruction

/-- What decoding recovers of an instruction: its fields, its trailing words, and the mnemonic on
the line of the source from which it comes. -/
structure Recovers (source : String) (d : Decoded) (i : Instruction) : Prop where
  fields : d.fields = i.fields
  trailing : i.trailing = d.trailing.map .literal
  mnemonic : ∃ n text op, i.location = .ofLine (n + 1) text ∧
    (Source.lines source)[n]? = some text ∧ d.operation? = some op ∧
    Source.mnemonic? text = some op.mnemonic

/-- An instruction of an assembled program is recovered from its fields and its values. -/
lemma recovers_of_mem_assemble {source : String} {p : Program} {i : Instruction}
    (ok : assemble source = .ok p) (mem : i ∈ p.instructions) :
    (∃ st, Statement.Denotes st p.labels i) ∧
      ∀ d : Decoded, d.fields = i.fields ∧ d.trailing = i.values → Recovers source d i := by
  obtain ⟨⟨text, number⟩, line, location, st, statement, den⟩ :=
    exists_of_mem_right (forall₂_assemble ok) mem
  obtain ⟨le, line⟩ := List.mem_zipIdx_iff_le_and_getElem?_sub.1 (List.mem_filter.1 line).1
  refine ⟨⟨st, den⟩, ?_⟩
  rintro d ⟨fields, trailing⟩
  refine ⟨fields, by rw [trailing, ← den.filled], number - 1, text, st.operation, ?_, line, ?_, ?_⟩
  · rw [location, Nat.sub_add_cancel le]
  · rw [Decoded.operation?, fields]
    exact Statement.operation_of_fields? den.fields
  · exact (Statement.parts_of_ofTokens? statement).1

/-- The octets of an assembled program are decoded to its end, and there is one decoded instruction
for every instruction of the program, in order and at its address, from which the instruction is
recovered. -/
theorem decode_assembled_bytes {source : String} {p : Program} {bytes : List UInt8}
    (ok : assemble source = .ok p) (out : p.bytes = .ok bytes) :
    ∃ words items, bytesToWords bytes = .ok words ∧
      Decoding.ofWords words = { items, truncated := none } ∧
      items.map Decoded.address = p.addresses ∧
      List.Forall₂ (Recovers source) items p.instructions := by
  have denoted := fun i mem => (recovers_of_mem_assemble (i := i) ok mem).1
  have recovered := fun i mem => (recovers_of_mem_assemble (i := i) ok mem).2
  have found := Instruction.forall₂_decodedFrom 0 p.instructions
  rw [Program.bytes, Program.words_eq_ok fun i mem => (denoted i mem).elim fun _ => (·.words_eq),
    ← Instruction.flatMap_words_decodedFrom 0] at out
  obtain ⟨all, rfl⟩ := wordsToBytes_eq_ok.1 out
  -- What remains is that the decoder finds the expected instructions where they are and complete.
  refine ⟨_, _, bytesToWords_flatMap_octets all, Decoding.ofWords_flatMap_words ?_ ?_,
    Instruction.map_address_decodedFrom 0 p.instructions, ?_⟩
  · apply Instruction.consecutive_decodedFrom
    intro i mem
    obtain ⟨st, den⟩ := denoted i mem
    rw [den.filled, List.length_map]
  · intro d mem
    obtain ⟨i, mem, fields, trailing⟩ := exists_of_mem_right found mem
    obtain ⟨st, den⟩ := denoted i mem
    rw [Decoded.Valid, fields, trailing, Statement.trailingCount_of_fields? den.fields]
    exact ⟨Statement.fits_of_fields? den.fields, den.length_values⟩
  · apply List.Forall₂.flip
    refine List.Forall₂.imp ?_ ((List.forall₂_and_left _ _).2 ⟨recovered, found⟩)
    exact fun i d ⟨recovers, same⟩ => recovers d same

/-- A program with a forward reference, a call and a word behind either operand. -/
theorem decode_assembled_bytes_forward :
    let source := ":start SET A, end\nJSR start\n:end SET [0x1000], 5\n"
    let p : Program := {
      instructions := [
        ⟨.ofLine 1 ":start SET A, end", ⟨0x1, 0x00, 0x1f⟩, [.literal 4]⟩,
        ⟨.ofLine 2 "JSR start", ⟨0x0, 0x01, 0x1f⟩, [.literal 0]⟩,
        ⟨.ofLine 3 ":end SET [0x1000], 5", ⟨0x1, 0x1e, 0x25⟩, [.literal 0x1000]⟩]
      labels := [("start", 0), ("end", 4)] }
    let bytes : List UInt8 := [0x7c, 0x01, 0, 4, 0x7c, 0x10, 0, 0, 0x95, 0xe1, 0x10, 0]
    assemble source = .ok p ∧ p.bytes = .ok bytes ∧
      ∃ words items, bytesToWords bytes = .ok words ∧
        Decoding.ofWords words = { items, truncated := none } ∧
        items.map Decoded.address = p.addresses ∧
        List.Forall₂ (Recovers source) items p.instructions := by
  intro source p bytes
  have ok : assemble source = .ok p := toOption_eq_some.1 (by decide +kernel)
  have out : p.bytes = .ok bytes := toOption_eq_some.1 (by decide +kernel)
  exact ⟨ok, out, decode_assembled_bytes ok out⟩

end Dcpu
