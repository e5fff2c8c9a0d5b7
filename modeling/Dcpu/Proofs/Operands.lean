import Dcpu.Code.Draft
import Dcpu.Proofs.Lines

/-!
# The encoding of operands

The table of operand codes, read off the form of an operand alone: `Operand.code?` is the code of an
operand that can be encoded, and `Operand.slot?` the word it takes behind the instruction word. The
drafts agree with the table (`Draft.operand_eq_ok`), and so does the rule by which a decoder tells
from a code whether a word follows (`Operand.needsNextWord_of_code?`).

An operand that has no code is refused with a fault at the place of the draft, unless its value is
too long to be written into the message (`Draft.place_of_code?_eq_none`).
-/

namespace Dcpu
open Results
open Source (Direct Operand)

namespace Source.Operand

/-- The code of an operand. An operand without a code cannot be encoded. -/
def code? : Operand → Option Nat
  | .direct (.integer value) =>
    if value ≤ 0x1f then some (0x20 + value) else if value ≤ 0xffff then some 0x1f else none
  | .direct (.register name) => (Register.ofName? name).map Register.code
  | .direct (.label _) => some 0x1f
  | .indirect (.integer value) => if value ≤ 0xffff then some 0x1e else none
  | .indirect (.register name) =>
    ((Register.ofName? name).filter Register.isGeneral).map fun r => 0x08 + r.code
  | .indirect (.label _) => some 0x1e
  | .offset _ (some value) register =>
    if value ≤ 0xffff then (Register.ofName? register).map fun _ => 0x10 else none
  | .offset _ none _ => none
  | .invalid _ => none

/-- The word that an operand takes behind the instruction word. -/
def slot? : Operand → Option Slot
  | .direct (.integer value) => if value ≤ 0x1f then none else some (.literal value)
  | .direct (.register _) => none
  | .direct (.label name) => some (.reference name)
  | .indirect (.integer value) => some (.literal value)
  | .indirect (.register _) => none
  | .indirect (.label name) => some (.reference name)
  | .offset _ value _ => value.map fun value => .literal value
  | .invalid _ => none

/-- The value of the integer in an operand. -/
def integer? : Operand → Option Nat
  | .direct (.integer value) | .indirect (.integer value) => some value
  | .offset _ value _ => value
  | _ => none

/-- The label to which an operand refers. -/
def label? : Operand → Option String
  | .direct (.label name) | .indirect (.label name) => some name
  | _ => none

end Source.Operand

lemma Register.ofName?_eq_some {name : String} {r : Register} :
    ofName? name = some r ↔ name = r.name := by
  constructor
  · intro found
    have named := List.find?_some found
    exact (beq_iff_eq.1 named).symm
  · rintro rfl
    exact ofName?_name r

lemma Register.code_cases (r : Register) : r.code ≤ 7 ∨ 0x18 ≤ r.code ∧ r.code ≤ 0x1d := by
  cases r <;> decide

lemma Register.code_le_of_isGeneral {r : Register} (gen : r.isGeneral = true) : r.code ≤ 7 :=
  of_decide_eq_true gen

lemma OperandCode.needsNextWord_iff {c : Int} :
    needsNextWord c = true ↔ 0x10 ≤ c ∧ c < 0x18 ∨ c = 0x1e ∨ c = 0x1f := by
  simp only [needsNextWord, Bool.or_eq_true, Bool.and_eq_true, decide_eq_true_eq, beq_iff_eq]
  simp only [indirectOffset, indirectNextWord, nextWord]
  omega

lemma OperandCode.needsNextWord_eq_false {c : Int}
    (other : c < 0x10 ∨ 0x18 ≤ c ∧ c < 0x1e ∨ 0x20 ≤ c) : needsNextWord c = false := by
  rw [← Bool.not_eq_true, needsNextWord_iff]
  omega

namespace Source.Operand

/-- A code tells whether its operand takes a word. -/
lemma needsNextWord_of_code? {o : Operand} {c : Nat} (code : o.code? = some c) :
    OperandCode.needsNextWord c = o.slot?.isSome := by
  match o with
  | .direct (.integer value) =>
    simp only [code?] at code
    split at code
    · next small =>
      cases code
      simp only [slot?, if_pos small, Option.isSome_none]
      exact OperandCode.needsNextWord_eq_false (by omega)
    · next large =>
      split at code <;> cases code
      simp only [slot?, if_neg large]
      rfl
  | .direct (.register name) =>
    obtain ⟨r, _, rfl⟩ := Option.map_eq_some_iff.1 code
    have := r.code_cases
    exact OperandCode.needsNextWord_eq_false (by omega)
  | .direct (.label name) =>
    cases code
    rfl
  | .indirect (.integer value) =>
    simp only [code?] at code
    split at code <;> cases code
    rfl
  | .indirect (.register name) =>
    obtain ⟨r, found, rfl⟩ := Option.map_eq_some_iff.1 code
    obtain ⟨_, gen⟩ := Option.filter_eq_some_iff.1 found
    have le := Register.code_le_of_isGeneral gen
    exact OperandCode.needsNextWord_eq_false (by omega)
  | .indirect (.label name) =>
    cases code
    rfl
  | .offset text (some value) register =>
    simp only [code?] at code
    split at code
    · obtain ⟨_, _, rfl⟩ := Option.map_eq_some_iff.1 code
      rfl
    · cases code
  | .offset text none register => cases code
  | .invalid token => cases code

lemma code?_le {o : Operand} {c : Nat} (code : o.code? = some c) : c ≤ 0x3f := by
  match o with
  | .direct (.integer value) =>
    simp only [code?] at code
    split at code
    · cases code
      omega
    · split at code <;> cases code
      decide
  | .direct (.register name) =>
    obtain ⟨r, _, rfl⟩ := Option.map_eq_some_iff.1 code
    have := r.code_cases
    omega
  | .direct (.label name) =>
    cases code
    decide
  | .indirect (.integer value) =>
    simp only [code?] at code
    split at code <;> cases code
    decide
  | .indirect (.register name) =>
    obtain ⟨r, found, rfl⟩ := Option.map_eq_some_iff.1 code
    obtain ⟨_, gen⟩ := Option.filter_eq_some_iff.1 found
    have le := Register.code_le_of_isGeneral gen
    omega
  | .indirect (.label name) =>
    cases code
    decide
  | .offset text (some value) register =>
    simp only [code?] at code
    split at code
    · obtain ⟨_, _, rfl⟩ := Option.map_eq_some_iff.1 code
      decide
    · cases code
  | .offset text none register => cases code
  | .invalid token => cases code

/-- The word of an operand refers to the label of the operand. -/
lemma label?_slot? (o : Operand) : o.slot?.bind Slot.label? = o.label? := by
  match o with
  | .direct (.integer value) =>
    simp only [slot?]
    split <;> rfl
  | .direct (.register _) | .direct (.label _) => rfl
  | .indirect (.integer _) | .indirect (.register _) | .indirect (.label _) => rfl
  | .offset _ none _ | .offset _ (some _) _ => rfl
  | .invalid _ => rfl

end Source.Operand

lemma isWord_natCast {value : Nat} : IsWord value ↔ value ≤ 0xffff := by
  simp only [IsWord]
  omega

/-- A value that an operand with a code puts behind the instruction word is a word. -/
lemma Source.Operand.isWord_of_slot? {o : Operand} {c : Nat} {value : Int}
    (code : o.code? = some c) (slot : o.slot? = some (.literal value)) : IsWord value := by
  match o with
  | .direct (.integer n) =>
    simp only [code?] at code
    simp only [slot?] at slot
    split at slot
    · cases slot
    · next large =>
      cases slot
      rw [if_neg large] at code
      split at code
      · next word => exact isWord_natCast.2 word
      · cases code
  | .indirect (.integer n) =>
    cases slot
    simp only [code?] at code
    split at code
    · next word => exact isWord_natCast.2 word
    · cases code
  | .offset _ (some n) _ =>
    cases slot
    simp only [code?] at code
    split at code
    · next word => exact isWord_natCast.2 word
    · cases code
  | .direct (.register _) | .direct (.label _) | .indirect (.register _) | .indirect (.label _)
  | .offset _ none _ | .invalid _ => cases slot

/-! ### Drafts -/

/-- A failure comes from a number in a token that is too long: the number cannot be read, or it has
been read and cannot be written into a message. -/
def Failure.OverlongIn (token : String) (f : Failure) : Prop :=
  Operand.ofToken token = .error f ∨ f = .longValue ∧ ∃ o value, Operand.ofToken token = .ok o ∧
    o.integer? = some value ∧ Text.isWritable value = false

/-- A value that is no word is reported at its place or is too long to be reported. -/
lemma Failure.valueRange_cases (value : Int) (location : Location) :
    FaultOf location (valueRange value location) ∨
      valueRange value location = .longValue ∧ Text.isWritable value = false := by
  cases written : Text.isWritable value with
  | true => exact .inl ⟨.valueRange value, rfl, nofun, fun _ => written⟩
  | false => exact .inr ⟨location.failure_of_words (.valueRange value) written, rfl⟩

namespace Draft

/-- A draft with more words at its end. -/
def append (d : Draft) (slots : List Slot) : Draft :=
  { d with trailing := d.trailing ++ slots }

/-- The code of a direct operand and the draft with its word. -/
def direct (d : Draft) : Direct → Except Failure (Nat × Draft)
  | .integer value =>
    if value ≤ OperandCode.maxSmall then .ok (OperandCode.small + value, d)
    else (d.extend value).map (OperandCode.nextWord, ·)
  | .register name =>
    match Register.ofName? name with
    | some register => .ok (register.code, d)
    | none => .error (d.location.failure (.unrecognizedOperand name))
  | .label name => .ok (OperandCode.nextWord, d.refer name)

/-- The code of a direct operand between brackets and the draft with its word. -/
def indirect (d : Draft) : Direct → Except Failure (Nat × Draft)
  | .integer value => (d.extend value).map (OperandCode.indirectNextWord, ·)
  | .register name =>
    match (Register.ofName? name).filter Register.isGeneral with
    | some register => .ok (OperandCode.indirect + register.code, d)
    | none => .error (d.location.failure (.invalidIndirectRegister name))
  | .label name => .ok (OperandCode.indirectNextWord, d.refer name)

/-- The code of a sum between brackets and the draft with its word. -/
def offset (d : Draft) (text : String) (value : Option Nat) (register : String) :
    Except Failure (Nat × Draft) :=
  match value, Register.ofName? register with
  | some value, some _ => (d.extend value).map (OperandCode.indirectOffset, ·)
  | _, _ => .error (d.location.failure (.malformedIndirectOffset text))

/-- The code of an operand of a known form and the draft with its word. -/
def place (d : Draft) : Operand → Except Failure (Nat × Draft)
  | .direct operand => d.direct operand
  | .indirect target => d.indirect target
  | .offset text value register => d.offset text value register
  | .invalid token => .error (d.location.failure (.unrecognizedOperand token))

/-- What work on a draft leaves: the new draft, or after a failure the draft as it was. -/
def outcome {α : Type} (d : Draft) : Except Failure (α × Draft) → EStateM.Result Failure Draft α
  | .ok (a, d') => .ok a d'
  | .error f => .error f d

end Draft

namespace Drafting

lemma extend_eq (value : Int) (d : Draft) :
    extend value d = d.outcome ((d.extend value).map ((), ·)) := by
  show EStateM.bind (ofExcept (d.extend value)) set d = _
  unfold EStateM.bind
  cases d.extend value <;> rfl

lemma extend_bind (value : Int) (code : Nat) (d : Draft) :
    (extend value >>= fun _ => pure code) d = d.outcome ((d.extend value).map (code, ·)) := by
  show EStateM.bind (extend value) (fun _ => pure code) d = _
  rw [EStateM.bind, extend_eq]
  cases d.extend value <;> rfl

lemma direct_eq (o : Direct) (d : Draft) : direct o d = d.outcome (d.direct o) := by
  cases o with
  | integer value =>
    simp only [direct, Draft.direct]
    split
    · rfl
    · exact extend_bind value _ d
  | register name =>
    simp only [direct, Draft.direct]
    cases Register.ofName? name <;> rfl
  | label name => rfl

lemma indirect_eq (o : Direct) (d : Draft) : indirect o d = d.outcome (d.indirect o) := by
  cases o with
  | integer value => exact extend_bind value _ d
  | register name =>
    simp only [indirect, Draft.indirect]
    cases (Register.ofName? name).filter Register.isGeneral <;> rfl
  | label name => rfl

lemma offset_eq (text : String) (value : Option Nat) (register : String) (d : Draft) :
    offset text value register d = d.outcome (d.offset text value register) := by
  simp only [offset, Draft.offset]
  cases value with
  | none => rfl
  | some value =>
    cases Register.ofName? register with
    | none => rfl
    | some r => exact extend_bind value _ d

/-- Encoding a token is reading it and placing its operand; a failure of either changes nothing. -/
lemma operand_eq (token : String) (d : Draft) :
    operand token d = d.outcome (Operand.ofToken token >>= d.place) := by
  show EStateM.bind (ofExcept (Operand.ofToken token)) _ d = _
  unfold EStateM.bind
  cases Operand.ofToken token with
  | error f => rfl
  | ok o =>
    cases o with
    | direct o => exact direct_eq o d
    | indirect o => exact indirect_eq o d
    | offset text value register => exact offset_eq text value register d
    | invalid token => rfl

end Drafting

namespace Draft

lemma operand_eq (d : Draft) (token : String) :
    d.operand token = (Operand.ofToken token >>= d.place) := by
  rw [operand, Drafting.operand_eq]
  cases Operand.ofToken token >>= d.place <;> rfl

lemma extend_of_isWord {d : Draft} {value : Int} (word : IsWord value) :
    d.extend value = .ok (d.append [.literal value]) := by
  simp only [extend, checkWord, if_pos word]
  rfl

lemma extend_of_not_isWord {d : Draft} {value : Int} (other : ¬IsWord value) :
    d.extend value = .error (.valueRange value d.location) := by
  simp only [extend, checkWord, if_neg other]
  rfl

/-- An operand that has a code is encoded by it, and its word is added to the draft. -/
lemma place_of_code? {d : Draft} {o : Operand} {c : Nat} (code : o.code? = some c) :
    d.place o = .ok (c, d.append o.slot?.toList) := by
  have none_added : d.append [] = d := by simp [append]
  match o with
  | .direct (.integer value) =>
    simp only [Operand.code?] at code
    simp only [place, direct, Operand.slot?]
    split at code
    · next small =>
      cases code
      rw [if_pos small, Option.toList_none, none_added]
      exact if_pos small
    · next large =>
      split at code <;> cases code
      next word =>
      rw [if_neg large, extend_of_isWord (isWord_natCast.2 word)]
      exact if_neg large
  | .direct (.register name) =>
    obtain ⟨r, found, rfl⟩ := Option.map_eq_some_iff.1 code
    simp only [place, direct, found, Operand.slot?, Option.toList_none, none_added]
  | .direct (.label name) =>
    cases code
    rfl
  | .indirect (.integer value) =>
    simp only [Operand.code?] at code
    split at code <;> cases code
    next word =>
    simp only [place, indirect, extend_of_isWord (isWord_natCast.2 word)]
    rfl
  | .indirect (.register name) =>
    obtain ⟨r, found, rfl⟩ := Option.map_eq_some_iff.1 code
    simp only [place, indirect, found, Operand.slot?, Option.toList_none, none_added]
    rfl
  | .indirect (.label name) =>
    cases code
    rfl
  | .offset text (some value) register =>
    simp only [Operand.code?] at code
    split at code
    · next word =>
      obtain ⟨r, found, rfl⟩ := Option.map_eq_some_iff.1 code
      simp only [place, offset, found, extend_of_isWord (isWord_natCast.2 word)]
      rfl
    · cases code
  | .offset text none register => cases code
  | .invalid token => cases code

/-- An operand without a code is refused with a fault of the line, unless it has an integer that is
too long to be written. -/
lemma place_of_code?_eq_none {d : Draft} {o : Operand} (uncoded : o.code? = none) :
    ∃ f, d.place o = .error f ∧ (f.FaultOf d.location ∨
      f = .longValue ∧ ∃ value, o.integer? = some value ∧ Text.isWritable value = false) := by
  -- The three forms with an integer fail in the same way.
  have range {value : Nat} {c : Nat} (large : ¬value ≤ 0xffff) :
      ∃ f, (d.extend value).map (c, ·) = .error f ∧ (f.FaultOf d.location ∨
        f = .longValue ∧ Text.isWritable value = false) := by
    rw [extend_of_not_isWord fun word => large (isWord_natCast.1 word)]
    exact ⟨_, rfl, Failure.valueRange_cases value d.location⟩
  match o with
  | .direct (.integer value) =>
    simp only [Operand.code?] at uncoded
    split at uncoded
    · cases uncoded
    · next small =>
      split at uncoded
      · cases uncoded
      · next large =>
        obtain ⟨f, err, fault⟩ := range (c := OperandCode.nextWord) large
        refine ⟨f, (if_neg small).trans err, fault.imp id ?_⟩
        exact fun ⟨long, w⟩ => ⟨long, value, rfl, w⟩
  | .direct (.register name) =>
    have unknown := Option.map_eq_none_iff.1 uncoded
    refine ⟨_, ?_, .inl ⟨.unrecognizedOperand name, rfl, nofun, fun _ => rfl⟩⟩
    simp only [place, direct, unknown]
  | .direct (.label name) => cases uncoded
  | .indirect (.integer value) =>
    simp only [Operand.code?] at uncoded
    split at uncoded
    · cases uncoded
    · next large =>
      obtain ⟨f, err, fault⟩ := range (c := OperandCode.indirectNextWord) large
      refine ⟨f, err, fault.imp id ?_⟩
      exact fun ⟨long, w⟩ => ⟨long, value, rfl, w⟩
  | .indirect (.register name) =>
    have unknown := Option.map_eq_none_iff.1 uncoded
    refine ⟨_, ?_, .inl ⟨.invalidIndirectRegister name, rfl, nofun, fun _ => rfl⟩⟩
    simp only [place, indirect, unknown]
  | .indirect (.label name) => cases uncoded
  | .offset text (some value) register =>
    cases found : Register.ofName? register with
    | none =>
      refine ⟨_, ?_, .inl ⟨.malformedIndirectOffset text, rfl, nofun, fun _ => rfl⟩⟩
      simp only [place, offset, found]
    | some r =>
      simp only [Operand.code?, found] at uncoded
      split at uncoded
      · cases uncoded
      · next large =>
        obtain ⟨f, err, fault⟩ := range (c := OperandCode.indirectOffset) large
        refine ⟨f, ?_, fault.imp id ?_⟩
        · simp only [place, offset, found, err]
        · exact fun ⟨long, w⟩ => ⟨long, value, rfl, w⟩
  | .offset text none register =>
    exact ⟨_, rfl, .inl ⟨.malformedIndirectOffset text, rfl, nofun, fun _ => rfl⟩⟩
  | .invalid token => exact ⟨_, rfl, .inl ⟨.unrecognizedOperand token, rfl, nofun, fun _ => rfl⟩⟩

/-- A token is encoded exactly if it denotes an operand that has a code. -/
lemma operand_eq_ok {d d' : Draft} {token : String} {c : Nat} :
    d.operand token = .ok (c, d') ↔
      ∃ o, Operand.ofToken token = .ok o ∧ o.code? = some c ∧ d' = d.append o.slot?.toList := by
  rw [operand_eq, bind_eq_ok]
  constructor
  · rintro ⟨o, ofToken, placed⟩
    cases code : o.code? with
    | none =>
      obtain ⟨f, err, _⟩ := place_of_code?_eq_none (d := d) code
      rw [err] at placed
      cases placed
    | some c' =>
      rw [place_of_code? code] at placed
      cases placed
      exact ⟨o, ofToken, code, rfl⟩
  · rintro ⟨o, ofToken, code, rfl⟩
    exact ⟨o, ofToken, place_of_code? code⟩

/-- A token is refused with a fault of the line or because of a number that is too long. -/
lemma operand_eq_error {d : Draft} {token : String} {f : Failure}
    (err : d.operand token = .error f) : f.FaultOf d.location ∨ f.OverlongIn token := by
  rw [operand_eq] at err
  rcases bind_eq_error.1 err with unread | ⟨o, ofToken, refused⟩
  · exact .inr (.inl unread)
  · cases code : o.code? with
    | none =>
      obtain ⟨f', err', fault | ⟨long, value, int, w⟩⟩ := place_of_code?_eq_none (d := d) code
      · rw [err'] at refused
        cases refused
        exact .inl fault
      · rw [err'] at refused
        cases refused
        exact .inr (.inr ⟨long, o, value, ofToken, int, w⟩)
    | some c =>
      rw [place_of_code? code] at refused
      cases refused

end Draft

end Dcpu
