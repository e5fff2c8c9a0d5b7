import Dcpu.Code.Encoding
import Dcpu.Proofs.Operands

/-!
# The encoding of statements

A statement is an operation with its operands. `Statement.ofTokens?` reads it from the tokens of a
line, `Statement.fields?` gives the fields of its instruction word and `Statement.slots` the words
behind it, operand A before operand B. A line is encoded exactly if it holds a statement that has
fields (`Line.encode_eq_ok`), and otherwise the failure is its own (`Line.encode_eq_error`).

The instruction word of a statement says which operation it is and how many words follow, which is
what a decoder needs (`Statement.operation_of_fields?`, `Statement.trailingCount_of_fields?`).
-/

namespace Dcpu
open Results
open Source (Line Operand)

lemma Operation.ofMnemonic?_eq_some {name : String} {op : Operation} :
    ofMnemonic? name = some op ↔ name = op.mnemonic := by
  constructor
  · intro found
    have named := List.find?_some found
    exact (beq_iff_eq.1 named).symm
  · rintro rfl
    exact ofMnemonic?_mnemonic op

lemma Operation.code_le (op : Operation) : op.code ≤ 0xf := by
  cases op <;> decide

lemma Operation.code_ne_extendedOpcode (op : Operation) : (op.code : Int) ≠ extendedOpcode := by
  cases op <;> decide

/-- A basic operation is found by its opcode, whatever operand A is. -/
lemma Operation.ofFields?_basic {op : Operation} (basic : op.format = .basic) (a : Int) :
    ofFields? op.code a = some op := by
  rw [ofFields?, if_neg op.code_ne_extendedOpcode]
  cases op <;> first | decide | cases basic

/-- An extended operation is found by its code in the field of operand A. -/
lemma Operation.ofFields?_extended {op : Operation} (extended : op.format = .extended) :
    ofFields? 0 op.code = some op := by
  cases op <;> first | decide | cases extended

/-- An operation with its operands. -/
structure Statement where
  operation : Operation
  operands : List Operand
  deriving DecidableEq, Repr

namespace Statement

/-- The statement that consists of a mnemonic and the tokens of its operands. -/
def ofTokens? : List String → Option Statement
  | [] => none
  | mnemonic :: tokens => do
    let operation ← Operation.ofMnemonic? mnemonic
    let operands ← (tokens.mapM Operand.ofToken).toOption
    return ⟨operation, operands⟩

/-- The fields of the instruction word, if the operation has as many operands as it needs and all of
them have codes. -/
def fields? (st : Statement) : Option Fields :=
  match st.operation.format, st.operands.mapM Operand.code? with
  | .basic, some [a, b] => some { opcode := st.operation.code, a, b }
  | .extended, some [b] => some { opcode := 0, a := st.operation.code, b }
  | _, _ => none

/-- The words behind the instruction word. -/
def slots (st : Statement) : List Slot :=
  st.operands.filterMap Operand.slot?

/-- The instruction for a statement at a place. -/
def instruction? (st : Statement) (location : Location) : Option Instruction :=
  st.fields?.map fun fields => { location, fields, trailing := st.slots }

/-- A statement is read from the mnemonic of its operation and tokens that denote its operands. -/
lemma ofTokens?_eq_some {mnemonic : String} {tokens : List String} {st : Statement} :
    ofTokens? (mnemonic :: tokens) = some st ↔
      mnemonic = st.operation.mnemonic ∧
        List.Forall₂ (fun t o => Operand.ofToken t = .ok o) tokens st.operands := by
  simp only [ofTokens?, Option.bind_eq_bind, Option.bind_eq_some_iff, toOption_eq_some, mapM_eq_ok,
    Operation.ofMnemonic?_eq_some]
  constructor
  · rintro ⟨op, named, operands, read, e⟩
    cases e
    exact ⟨named, read⟩
  · rintro ⟨named, read⟩
    exact ⟨_, named, _, read, rfl⟩

/-- The first token of a statement is its mnemonic and the others denote its operands. -/
lemma parts_of_ofTokens? {ts : List String} {st : Statement} (read : ofTokens? ts = some st) :
    ts.head? = some st.operation.mnemonic ∧
      List.Forall₂ (fun t o => Operand.ofToken t = .ok o) ts.tail st.operands := by
  cases ts with
  | nil => cases read
  | cons mnemonic tokens =>
    obtain ⟨rfl, operands⟩ := ofTokens?_eq_some.1 read
    exact ⟨rfl, operands⟩

/-- The fields of a statement come from the codes of two operands of a basic operation or of one
operand of an extended one. -/
lemma fields?_eq_some {st : Statement} {f : Fields} :
    st.fields? = some f ↔
      (∃ oa ob a b, st.operation.format = .basic ∧ st.operands = [oa, ob] ∧ oa.code? = some a ∧
        ob.code? = some b ∧ f = { opcode := st.operation.code, a, b }) ∨
      (∃ ob b, st.operation.format = .extended ∧ st.operands = [ob] ∧ ob.code? = some b ∧
        f = { opcode := 0, a := st.operation.code, b }) := by
  obtain ⟨op, operands⟩ := st
  unfold fields?
  constructor
  · intro h
    split at h
    · next a b format codes =>
      cases h
      cases mapM_eq_some.1 codes with
      | @cons oa _ _ _ ha rest =>
        cases rest with
        | @cons ob _ _ _ hb rest =>
          cases rest
          exact .inl ⟨oa, ob, a, b, format, rfl, ha, hb, rfl⟩
    · next b format codes =>
      cases h
      cases mapM_eq_some.1 codes with
      | @cons ob _ _ _ hb rest =>
        cases rest
        exact .inr ⟨ob, b, format, rfl, hb, rfl⟩
    · cases h
  · rintro (⟨oa, ob, a, b, format, rfl, ha, hb, rfl⟩ | ⟨ob, b, format, rfl, hb, rfl⟩)
    · have codes : [oa, ob].mapM Operand.code? = some [a, b] :=
        mapM_eq_some.2 (.cons ha (.cons hb .nil))
      rw [format, codes]
    · have codes : [ob].mapM Operand.code? = some [b] := mapM_eq_some.2 (.cons hb .nil)
      rw [format, codes]

lemma fits_of_fields? {st : Statement} {f : Fields} (fields : st.fields? = some f) : f.Fits := by
  have opcode := st.operation.code_le
  rcases fields?_eq_some.1 fields with
    ⟨oa, ob, a, b, _, _, ha, hb, rfl⟩ | ⟨ob, b, _, _, hb, rfl⟩
  · have := Operand.code?_le ha
    have := Operand.code?_le hb
    simp only [Fields.Fits]
    omega
  · have := Operand.code?_le hb
    simp only [Fields.Fits]
    omega

/-- The operation of a statement is read off its fields. -/
lemma operation_of_fields? {st : Statement} {f : Fields} (fields : st.fields? = some f) :
    Operation.ofFields? f.opcode f.a = some st.operation := by
  rcases fields?_eq_some.1 fields with
    ⟨oa, ob, a, b, format, _, _, _, rfl⟩ | ⟨ob, b, format, _, _, rfl⟩
  · exact Operation.ofFields?_basic format a
  · exact Operation.ofFields?_extended format

/-- As many codes take the next word as there are words of operands. -/
lemma countP_needsNextWord {operands : List Operand} {codes : List Nat}
    (coded : List.Forall₂ (fun o c => Operand.code? o = some c) operands codes) :
    (List.map (Nat.cast : Nat → Int) codes).countP OperandCode.needsNextWord =
      (operands.filterMap Operand.slot?).length := by
  induction coded with
  | nil => rfl
  | @cons o c operands codes code _ ih =>
    rw [List.map_cons, List.countP_cons, ih, Operand.needsNextWord_of_code? code]
    cases slot : o.slot? with
    | none => simp [slot]
    | some s => simp [slot]

/-- The number of words behind the instruction word is read off the fields of a statement. -/
lemma trailingCount_of_fields? {st : Statement} {f : Fields} (fields : st.fields? = some f) :
    f.trailingCount = st.slots.length := by
  rcases fields?_eq_some.1 fields with
    ⟨oa, ob, a, b, _, operands, ha, hb, rfl⟩ | ⟨ob, b, _, operands, hb, rfl⟩
  · have count := countP_needsNextWord (.cons ha (.cons hb .nil))
    rw [Fields.trailingCount, Fields.operands, if_neg st.operation.code_ne_extendedOpcode, slots,
      operands]
    exact count
  · -- The field of operand A holds the code of the operation and does not count.
    have count := countP_needsNextWord (.cons hb .nil)
    have opcode : (0 : Int) = Operation.extendedOpcode := rfl
    rw [Fields.trailingCount, Fields.operands, if_pos opcode, slots, operands]
    exact count

end Statement

/-! ### Lines -/

namespace Draft

lemma basic_eq_ok {d : Draft} {op : Operation} {ta tb : String} {i : Instruction} :
    d.basic op ta tb = .ok i ↔
      ∃ oa ob a b, Operand.ofToken ta = .ok oa ∧ Operand.ofToken tb = .ok ob ∧
        oa.code? = some a ∧ ob.code? = some b ∧
        i = { location := d.location, fields := { opcode := op.code, a, b },
              trailing := d.trailing ++ oa.slot?.toList ++ ob.slot?.toList } := by
  simp only [basic, bind_eq_ok, Prod.exists, operand_eq_ok]
  constructor
  · rintro ⟨a, _, ⟨oa, ra, ha, rfl⟩, b, _, ⟨ob, rb, hb, rfl⟩, e⟩
    cases e
    exact ⟨oa, ob, a, b, ra, rb, ha, hb, rfl⟩
  · rintro ⟨oa, ob, a, b, ra, rb, ha, hb, rfl⟩
    exact ⟨a, _, ⟨oa, ra, ha, rfl⟩, b, _, ⟨ob, rb, hb, rfl⟩, rfl⟩

lemma extended_eq_ok {d : Draft} {op : Operation} {token : String} {i : Instruction} :
    d.extended op token = .ok i ↔
      ∃ o b, Operand.ofToken token = .ok o ∧ o.code? = some b ∧
        i = { location := d.location, fields := { opcode := 0, a := op.code, b },
              trailing := d.trailing ++ o.slot?.toList } := by
  simp only [extended, bind_eq_ok, Prod.exists, operand_eq_ok]
  constructor
  · rintro ⟨b, _, ⟨o, read, hb, rfl⟩, e⟩
    cases e
    exact ⟨o, b, read, hb, rfl⟩
  · rintro ⟨o, b, read, hb, rfl⟩
    exact ⟨b, _, ⟨o, read, hb, rfl⟩, rfl⟩

end Draft

namespace Source.Line

/-- The statement on a line. -/
def statement? (line : Line) : Option Statement :=
  line.mnemonic.bind fun mnemonic => Statement.ofTokens? (mnemonic :: line.operands)

/-- An operation with the tokens of its operands is encoded like a statement. -/
lemma encodeAs_eq_ok {location : Location} {op : Operation} {tokens : List String}
    {i : Instruction} :
    encodeAs location op tokens = .ok i ↔
      ∃ operands, List.Forall₂ (fun t o => Operand.ofToken t = .ok o) tokens operands ∧
        Statement.instruction? ⟨op, operands⟩ location = some i := by
  simp only [Statement.instruction?, Option.map_eq_some_iff, Statement.fields?_eq_some]
  unfold encodeAs
  split
  · next ta tb format =>
    have slots (oa ob : Operand) : [] ++ oa.slot?.toList ++ ob.slot?.toList =
        Statement.slots ⟨op, [oa, ob]⟩ := by
      simp [Statement.slots, List.filterMap_eq_flatMap_toList]
    rw [Draft.basic_eq_ok]
    constructor
    · rintro ⟨oa, ob, a, b, ra, rb, ha, hb, rfl⟩
      rw [slots]
      exact ⟨[oa, ob], .cons ra (.cons rb .nil), _,
        .inl ⟨oa, ob, a, b, format, rfl, ha, hb, rfl⟩, rfl⟩
    · rintro ⟨operands, read, f, ⟨oa, ob, a, b, _, rfl, ha, hb, rfl⟩ | ⟨_, _, e, _⟩, rfl⟩
      · cases read with
        | cons ra rest =>
          cases rest with
          | cons rb _ =>
            rw [← slots]
            exact ⟨oa, ob, a, b, ra, rb, ha, hb, rfl⟩
      · rw [format] at e
        cases e
  · next token format =>
    have slots (o : Operand) : [] ++ o.slot?.toList = Statement.slots ⟨op, [o]⟩ := by
      simp [Statement.slots, List.filterMap_eq_flatMap_toList]
    rw [Draft.extended_eq_ok]
    constructor
    · rintro ⟨o, b, read, hb, rfl⟩
      rw [slots]
      exact ⟨[o], .cons read .nil, _, .inr ⟨o, b, format, rfl, hb, rfl⟩, rfl⟩
    · rintro ⟨operands, read, f, ⟨_, _, _, _, e, _⟩ | ⟨o, b, _, rfl, hb, rfl⟩, rfl⟩
      · rw [format] at e
        cases e
      · cases read with
        | cons read _ =>
          rw [← slots]
          exact ⟨o, b, read, hb, rfl⟩
  · next format _ notBasic notExtended =>
    -- There are as many tokens as operands, so a statement with fields is one of the cases above.
    refine ⟨nofun, ?_⟩
    rintro ⟨operands, read, f, ⟨oa, ob, _, _, format, rfl, _⟩ | ⟨o, _, format, rfl, _⟩, rfl⟩
    · cases read with
      | cons _ rest =>
        cases rest with
        | cons _ rest =>
          cases rest
          exact (notBasic _ _ format rfl).elim
    · cases read with
      | cons _ rest =>
        cases rest
        exact (notExtended _ format rfl).elim

/-- A line is encoded exactly if it holds a statement that has an instruction. -/
lemma encode_eq_ok {line : Line} {i : Instruction} :
    line.encode = .ok i ↔
      ∃ st, line.statement? = some st ∧ st.instruction? line.location = some i := by
  unfold encode statement?
  cases line.mnemonic with
  | none => exact ⟨nofun, nofun⟩
  | some mnemonic =>
    simp only [Option.bind_some, Statement.ofTokens?_eq_some]
    cases found : Operation.ofMnemonic? mnemonic with
    | none =>
      refine ⟨nofun, ?_⟩
      rintro ⟨st, ⟨rfl, _⟩, _⟩
      rw [Operation.ofMnemonic?_mnemonic] at found
      cases found
    | some op =>
      cases Operation.ofMnemonic?_eq_some.1 found
      simp only [encodeAs_eq_ok]
      constructor
      · rintro ⟨operands, read, built⟩
        exact ⟨⟨op, operands⟩, ⟨rfl, read⟩, built⟩
      · rintro ⟨⟨op', operands⟩, ⟨named, read⟩, built⟩
        have same := Operation.ofMnemonic?_eq_some.2 named
        rw [Operation.ofMnemonic?_mnemonic] at same
        cases same
        exact ⟨operands, read, built⟩

/-- A line is refused with a fault of its own or because of a number in one of its operands that is
too long. -/
lemma encode_eq_error {line : Line} {f : Failure} (err : line.encode = .error f) :
    f.FaultOf line.location ∨ ∃ token ∈ line.operands, f.OverlongIn token := by
  have operand {d : Draft} {token : String} (place : d.location = line.location)
      (mem : token ∈ line.operands) (err : d.operand token = .error f) :
      f.FaultOf line.location ∨ ∃ token ∈ line.operands, f.OverlongIn token := by
    rcases Draft.operand_eq_error err with fault | long
    · exact .inl (place ▸ fault)
    · exact .inr ⟨token, mem, long⟩
  unfold encode at err
  split at err
  · unfold encodeAs at err
    split at err
    · next ta tb _ operands =>
      rcases bind_eq_error.1 err with first | ⟨⟨a, d⟩, first, rest⟩
      · exact operand rfl (by simp [operands]) first
      · obtain ⟨o, _, _, rfl⟩ := Draft.operand_eq_ok.1 first
        rcases bind_eq_error.1 rest with second | ⟨_, _, h⟩
        · exact operand rfl (by simp [operands]) second
        · cases h
    · next token _ operands =>
      rcases bind_eq_error.1 err with first | ⟨_, _, h⟩
      · exact operand rfl (by simp [operands]) first
      · cases h
    · cases err
      exact .inl ⟨_, rfl, nofun, fun _ => rfl⟩
  · cases err
    exact .inl ⟨_, rfl, nofun, fun _ => rfl⟩

end Source.Line

end Dcpu
