import Dcpu.Proofs.Operands

/-!
# What encoding an operand leaves

Encoding an operand changes nothing of a draft but the words at its end, and there it adds one word
exactly if the code of the operand says that a word follows (`Drafting.operand_adds_next_word`). If
it fails, the draft is as it was.

The code and the word of an operand tell which operand it is, but for the register of a sum:
`Operand.ofCode?` reads an operand back, as far as the encoding has kept it (`Operand.kept`). Two
operands with the same code and word are hence the same or two sums with the same value
(`Drafting.operand_eq_iff_sameOperand`).
-/

namespace Dcpu
open Source (Operand)

/-! ### Work on a draft -/

namespace Drafting

/-- Encoding a token succeeds as it does for the draft as a value, and a failure changes nothing. -/
lemma operand_eq_outcome (token : String) (d : Draft) :
    operand token d = d.outcome (d.operand token) := by
  rw [operand_eq, Draft.operand_eq]

/-- A token is encoded exactly if it denotes an operand with a code, and its word is added. -/
lemma operand_eq_ok {token : String} {d d' : Draft} {c : Nat} :
    operand token d = .ok c d' ↔
      ∃ o, Operand.ofToken token = .ok o ∧ o.code? = some c ∧ d' = d.append o.slot?.toList := by
  rw [operand_eq_outcome, ← Draft.operand_eq_ok]
  rcases d.operand token with f | ⟨c', d''⟩
  · constructor
    · intro ok
      cases ok
    · intro ok
      cases ok
  · constructor
    · intro ok
      cases ok
      rfl
    · intro ok
      cases ok
      rfl

lemma draft_of_operand_eq_error {token : String} {d d' : Draft} {f : Failure}
    (err : operand token d = .error f d') : d' = d := by
  rw [operand_eq_outcome] at err
  rcases placed : d.operand token with g | ⟨c, d''⟩
  · rw [placed] at err
    cases err
    rfl
  · rw [placed] at err
    cases err

/-- Encoding an operand gives a code of six bits and adds one word if the code takes the next word,
none otherwise. A value added is a word. All else stays, and a failure changes nothing at all. -/
theorem operand_adds_next_word (token : String) (d : Draft) :
    match operand token d with
    | .ok c d' =>
      c ≤ 63 ∧
        (if OperandCode.needsNextWord c then
          ∃ slot, d'.trailing = d.trailing ++ [slot] ∧ ∀ value, slot = .literal value → IsWord value
        else d'.trailing = d.trailing) ∧
        d'.fields = d.fields ∧ d'.location = d.location
    | .error _ d' => d' = d := by
  cases ran : operand token d with
  | error f d' => exact draft_of_operand_eq_error ran
  | ok c d' =>
    obtain ⟨o, _, code, rfl⟩ := operand_eq_ok.1 ran
    refine ⟨Operand.code?_le code, ?_, rfl, rfl⟩
    rw [Operand.needsNextWord_of_code? code]
    cases slot : o.slot? with
    | none => exact List.append_nil d.trailing
    | some slot' =>
      refine ⟨slot', rfl, ?_⟩
      rintro value rfl
      exact Operand.isWord_of_slot? code slot

end Drafting

/-! ### Operands from their codes -/

namespace Source.Operand

/-- What the encoding keeps of an operand: a sum loses its text and its register. -/
def kept : Operand → Operand
  | .offset _ value _ => .offset "" value ""
  | o => o

/-- The operand with a code and a word behind the instruction word, as far as they tell it. -/
def ofCode? (code : Nat) : Option Slot → Option Operand
  | none =>
    if 0x20 ≤ code then some (.direct (.integer (code - 0x20)))
    else if 0x08 ≤ code ∧ code < 0x10 then
      (Register.ofCode? (code - 0x08 : Nat)).map fun r => .indirect (.register r.name)
    else (Register.ofCode? code).map fun r => .direct (.register r.name)
  | some (.literal value) =>
    if code = 0x1f then some (.direct (.integer value.toNat))
    else if code = 0x1e then some (.indirect (.integer value.toNat))
    else some (.offset "" (some value.toNat) "")
  | some (.reference label) =>
    if code = 0x1f then some (.direct (.label label)) else some (.indirect (.label label))

/-- An operand is found again by its code and its word. -/
lemma ofCode?_slot? {o : Operand} {c : Nat} (code : o.code? = some c) :
    ofCode? c o.slot? = some o.kept := by
  match o with
  | .direct (.integer value) =>
    simp only [code?] at code
    simp only [slot?]
    split at code
    · next small =>
      cases code
      rw [if_pos small, ofCode?, if_pos (by omega), Nat.add_sub_cancel_left]
      rfl
    · next large =>
      split at code <;> cases code
      rw [if_neg large]
      rfl
  | .direct (.register name) =>
    obtain ⟨r, found, rfl⟩ := Option.map_eq_some_iff.1 code
    have cases := r.code_cases
    rw [slot?, ofCode?, if_neg (by omega), if_neg (by omega), Register.ofCode?_code,
      Register.ofName?_eq_some.1 found]
    rfl
  | .direct (.label name) =>
    cases code
    rfl
  | .indirect (.integer value) =>
    simp only [code?] at code
    split at code <;> cases code
    rfl
  | .indirect (.register name) =>
    obtain ⟨r, found, rfl⟩ := Option.map_eq_some_iff.1 code
    obtain ⟨found, gen⟩ := Option.filter_eq_some_iff.1 found
    have le := Register.code_le_of_isGeneral gen
    rw [slot?, ofCode?, if_neg (by omega), if_pos (by omega), Nat.add_sub_cancel_left,
      Register.ofCode?_code, Register.ofName?_eq_some.1 found]
    rfl
  | .indirect (.label name) =>
    cases code
    rfl
  | .offset text (some value) register =>
    simp only [code?] at code
    split at code
    · obtain ⟨_, _, rfl⟩ := Option.map_eq_some_iff.1 code
      rfl
    · cases code
  | .offset text none register => cases code
  | .invalid token => cases code

/-- The encoding keeps the same of two operands exactly if they are the same or two sums with the
same value. -/
lemma kept_eq_kept {o p : Operand} :
    o.kept = p.kept ↔ o = p ∨ ∃ value text register text' register',
      o = .offset text value register ∧ p = .offset text' value register' := by
  constructor
  · intro same
    cases o with
    | offset text value register =>
      cases p with
      | offset text' value' register' =>
        cases same
        exact .inr ⟨_, _, _, _, _, rfl, rfl⟩
      | direct | indirect | invalid => cases same
    | direct | indirect | invalid =>
      cases p with
      | offset => cases same
      | direct | indirect | invalid => exact .inl same
  · rintro (rfl | ⟨value, text, register, text', register', rfl, rfl⟩)
    · rfl
    · rfl

/-- The code and the word of an operand depend on what the encoding keeps of it and on nothing
else. -/
lemma code?_slot?_eq_iff {o p : Operand} {c e : Nat} (codeO : o.code? = some c)
    (codeP : p.code? = some e) : c = e ∧ o.slot? = p.slot? ↔ o.kept = p.kept := by
  constructor
  · rintro ⟨rfl, slots⟩
    have read := ofCode?_slot? codeO
    rw [slots, ofCode?_slot? codeP] at read
    exact (Option.some.inj read).symm
  · intro same
    rcases kept_eq_kept.1 same with rfl | ⟨value, text, register, text', register', rfl, rfl⟩
    · rw [codeO] at codeP
      exact ⟨Option.some.inj codeP, rfl⟩
    · -- The code of a sum is fixed, whatever its register.
      have fixed {text register : String} {n : Nat}
          (code : code? (.offset text value register) = some n) : n = 0x10 := by
        cases value with
        | none => cases code
        | some value =>
          simp only [code?] at code
          split at code
          · obtain ⟨_, _, rfl⟩ := Option.map_eq_some_iff.1 code
            rfl
          · cases code
      exact ⟨(fixed codeO).trans (fixed codeP).symm, rfl⟩

end Source.Operand

namespace Drafting

/-- Two tokens that can be encoded have the same code and the same word exactly if they denote the
same operand or two sums with the same value, whose registers may differ. -/
theorem operand_eq_iff_sameOperand {s t : String} {here there : Location} {c e : Nat} {d x : Draft}
    (first : operand s { location := here } = .ok c d)
    (second : operand t { location := there } = .ok e x) :
    (c, d.trailing) = (e, x.trailing) ↔
      Operand.ofToken s = Operand.ofToken t ∨ ∃ value text register text' register',
        Operand.ofToken s = .ok (.offset text value register) ∧
          Operand.ofToken t = .ok (.offset text' value register') := by
  obtain ⟨o, readS, codeO, rfl⟩ := operand_eq_ok.1 first
  obtain ⟨p, readT, codeP, rfl⟩ := operand_eq_ok.1 second
  have words : o.slot?.toList = p.slot?.toList ↔ o.slot? = p.slot? :=
    ⟨fun same => by simpa using congrArg List.head? same, congrArg Option.toList⟩
  rw [Prod.mk.injEq, readS, readT]
  simp only [Draft.append, List.nil_append, words, Except.ok.injEq]
  rw [Operand.code?_slot?_eq_iff codeO codeP, Operand.kept_eq_kept]

/-- The offset `16` is encoded in the same way whichever register it is added to, and however it is
written. -/
theorem operand_eq_iff_sameOperand_offset :
    let decimal : Draft := { location := { line := some 1 }, trailing := [.literal 16] }
    let hex : Draft := { trailing := [.literal 16] }
    operand "[16+A]" { location := { line := some 1 } } = .ok 0x10 decimal ∧
      operand "[ 0x10 + PC ]" {} = .ok 0x10 hex ∧
      ((0x10, decimal.trailing) = (0x10, hex.trailing) ↔
        Operand.ofToken "[16+A]" = Operand.ofToken "[ 0x10 + PC ]" ∨
          ∃ value text register text' register',
            Operand.ofToken "[16+A]" = .ok (.offset text value register) ∧
              Operand.ofToken "[ 0x10 + PC ]" = .ok (.offset text' value register')) := by
  intro decimal hex
  have first : operand "[16+A]" { location := { line := some 1 } } = .ok 0x10 decimal := rfl
  have second : operand "[ 0x10 + PC ]" {} = .ok 0x10 hex := rfl
  exact ⟨first, second, operand_eq_iff_sameOperand first second⟩

end Drafting

end Dcpu
