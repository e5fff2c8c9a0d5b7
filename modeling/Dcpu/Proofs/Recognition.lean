import Dcpu.Proofs.Operands

/-!
# How operands are read

What a text has to be in order to be read as an operand, for texts of any kind. A line feed at the
end of a token does not count, nor do the blanks around the parts of a sum. `Numeral` relates an
integer literal to its value, `Direct.ReadFrom` a text to the direct operand it is read as and
`Operand.ReadFrom` a token to its operand. A token is read as an operand that is not invalid exactly
if this relation holds (`Operand.ofToken_eq_ok_iff`), and reading fails only at a decimal literal
with too many digits (`Operand.hasLongDecimal_of_ofToken`).
-/

namespace Dcpu
open Results

namespace Text

lemma digits?_eq_some {digit? : Char → Option Nat} {cs : List Char} {ds : List Nat} :
    digits? digit? cs = some ds ↔
      cs ≠ [] ∧ List.Forall₂ (fun c d => digit? c = some d) cs ds := by
  cases cs with
  | nil => exact ⟨nofun, fun h => absurd rfl h.1⟩
  | cons c cs =>
    rw [digits?, ← mapM_eq_some]
    exact ⟨fun h => ⟨List.cons_ne_nil _ _, h⟩, fun h => h.2⟩

/-- The characters between the ASCII digits and the next script's are no decimal digits, nor are
those before the ASCII digits. -/
lemma decimalDigit?_eq_none {c : Char}
    (other : c.toNat < 0x30 ∨ 0x3a ≤ c.toNat ∧ c.toNat < 0x660) : decimalDigit? c = none := by
  have zeros : ∀ start ∈ decimalZeros, start = 0x30 ∨ 0x660 ≤ start := by decide
  refine List.findSome?_eq_none_iff.2 ?_
  intro start mem
  refine if_neg ?_
  have := zeros start mem
  omega

lemma not_mem_of_digits {digit? : Char → Option Nat} {cs : List Char} {ds : List Nat} {c : Char}
    (other : digit? c = none) (digits : List.Forall₂ (fun c d => digit? c = some d) cs ds) :
    c ∉ cs := by
  intro mem
  obtain ⟨d, _, digit⟩ := exists_of_mem_left digits mem
  rw [other] at digit
  cases digit

lemma isUpper_iff {c : Char} : c.isUpper = true ↔ 0x41 ≤ c.toNat ∧ c.toNat ≤ 0x5a := by
  simp only [Char.isUpper, decide_eq_true_eq]
  exact Iff.rfl

lemma isLower_iff {c : Char} : c.isLower = true ↔ 0x61 ≤ c.toNat ∧ c.toNat ≤ 0x7a := by
  simp only [Char.isLower, Bool.and_eq_true, decide_eq_true_eq]
  exact Iff.rfl

lemma trim_sublist (cs : List Char) : (trim cs).Sublist cs := by
  have cut : (trim cs).Sublist (cs.dropWhile isBlank).reverse.reverse :=
    (List.dropWhile_sublist isBlank).reverse
  rw [List.reverse_reverse] at cut
  exact cut.trans (List.dropWhile_sublist isBlank)

end Text

namespace Source

lemma dropFinalNewline_eq {cs : List Char} (plain : '\n' ∉ cs) : dropFinalNewline cs = cs :=
  if_neg fun last => plain (List.mem_of_getLast? last)

/-! ### Literals -/

/-- The integer literals with their values. -/
inductive Numeral : List Char → Nat → Prop where
  | hex {cs : List Char} {ds : List Nat} (nonempty : cs ≠ [])
      (digits : List.Forall₂ (fun c d => Text.hexDigit? c = some d) cs ds) :
      Numeral ('0' :: 'x' :: cs) (Text.ofDigits 16 ds)
  | decimal {cs : List Char} {ds : List Nat} (nonempty : cs ≠ []) (short : cs.length ≤ 4300)
      (digits : List.Forall₂ (fun c d => Text.decimalDigit? c = some d) cs ds) :
      Numeral cs (Text.ofDigits 10 ds)

/-- Tells whether a text is a decimal literal with more than 4300 digits. -/
def IsLongDecimal (cs : List Char) : Prop :=
  4300 < cs.length ∧ ∀ c ∈ cs, (Text.decimalDigit? c).isSome = true

lemma hexDigits?_eq_some {cs : List Char} {ds : List Nat} :
    hexDigits? cs = some ds ↔ ∃ rest, cs = '0' :: 'x' :: rest ∧ rest ≠ [] ∧
      List.Forall₂ (fun c d => Text.hexDigit? c = some d) rest ds := by
  unfold hexDigits?
  split
  · next rest => simp [Text.digits?_eq_some]
  · next other =>
    refine ⟨nofun, ?_⟩
    rintro ⟨rest, rfl, _⟩
    exact absurd rfl (other rest)

lemma hexDigits?_eq_none_of_decimal {cs : List Char} {ds : List Nat}
    (digits : List.Forall₂ (fun c d => Text.decimalDigit? c = some d) cs ds) :
    hexDigits? cs = none := by
  rw [Option.eq_none_iff_forall_ne_some]
  intro hs hex
  -- The second character would be an x.
  obtain ⟨rest, rfl, _⟩ := hexDigits?_eq_some.1 hex
  obtain ⟨d, _, digit⟩ := exists_of_mem_left digits (List.mem_cons_of_mem _ List.mem_cons_self)
  rw [Text.decimalDigit?_eq_none (by decide)] at digit
  cases digit

/-- A text is read as an integer exactly if it is a literal, but for a line feed at its end. -/
lemma integer?_eq_some_iff {cs : List Char} {value : Nat} :
    integer? cs = .ok (some value) ↔ Numeral (dropFinalNewline cs) value := by
  simp only [integer?]
  generalize dropFinalNewline cs = cs
  constructor
  · intro read
    split at read
    · next ds hex =>
      cases read
      obtain ⟨rest, rfl, nonempty, digits⟩ := hexDigits?_eq_some.1 hex
      exact .hex nonempty digits
    · split at read
      · next ds decimal =>
        split at read
        · next short =>
          cases read
          obtain ⟨nonempty, digits⟩ := Text.digits?_eq_some.1 decimal
          rw [← digits.length_eq] at short
          exact .decimal nonempty short digits
        · cases read
      · cases read
  · rintro (⟨nonempty, digits⟩ | ⟨nonempty, short, digits⟩)
    · rw [hexDigits?_eq_some.2 ⟨_, rfl, nonempty, digits⟩]
    · rw [digits.length_eq] at short
      rw [hexDigits?_eq_none_of_decimal digits, decimalDigits?,
        Text.digits?_eq_some.2 ⟨nonempty, digits⟩]
      exact if_pos short

/-- Only a decimal literal with too many digits cannot be read. -/
lemma integer?_eq_error {cs : List Char} {f : Failure} (err : integer? cs = .error f) :
    (∃ n, f = .longLiteral n) ∧ IsLongDecimal (dropFinalNewline cs) := by
  simp only [integer?] at err
  generalize dropFinalNewline cs = cs at err ⊢
  split at err
  · cases err
  · split at err
    · next ds decimal =>
      split at err
      · cases err
      · next long =>
        cases err
        obtain ⟨_, digits⟩ := Text.digits?_eq_some.1 decimal
        rw [← digits.length_eq] at long
        refine ⟨⟨_, rfl⟩, Nat.lt_of_not_le long, ?_⟩
        intro c mem
        obtain ⟨d, _, digit⟩ := exists_of_mem_left digits mem
        exact Option.isSome_of_eq_some digit
    · cases err

lemma integer?_eq_none {cs : List Char} (noHex : hexDigits? (dropFinalNewline cs) = none)
    (noDecimal : decimalDigits? (dropFinalNewline cs) = none) : integer? cs = .ok none := by
  simp only [integer?, noHex, noDecimal]

/-- A literal begins with a decimal digit. -/
lemma integer?_eq_none_of_head {c : Char} {cs rest : List Char}
    (text : dropFinalNewline cs = c :: rest) (other : Text.decimalDigit? c = none) :
    integer? cs = .ok none := by
  refine integer?_eq_none ?_ ?_
  · rw [Option.eq_none_iff_forall_ne_some, text]
    intro ds hex
    obtain ⟨rest, e, _⟩ := hexDigits?_eq_some.1 hex
    cases e
    exact absurd other (by decide)
  · rw [Option.eq_none_iff_forall_ne_some, text]
    intro ds decimal
    cases (Text.digits?_eq_some.1 decimal).2 with
    | cons digit _ =>
      rw [other] at digit
      cases digit

/-- A literal has no plus sign. -/
lemma integer?_eq_none_of_plus {cs : List Char} (plus : '+' ∈ dropFinalNewline cs) :
    integer? cs = .ok none := by
  refine integer?_eq_none ?_ ?_
  · rw [Option.eq_none_iff_forall_ne_some]
    intro ds hex
    obtain ⟨rest, text, _, digits⟩ := hexDigits?_eq_some.1 hex
    rw [text] at plus
    simp only [List.mem_cons, Char.reduceEq, false_or] at plus
    exact Text.not_mem_of_digits rfl digits plus
  · rw [Option.eq_none_iff_forall_ne_some]
    intro ds decimal
    obtain ⟨_, digits⟩ := Text.digits?_eq_some.1 decimal
    exact Text.not_mem_of_digits (Text.decimalDigit?_eq_none (by decide)) digits plus

/-! ### Direct operands -/

lemma isLetter_of_name {c : Char} {cs : List Char}
    (name : isRegisterName cs = true ∨ isLabelName cs = true) (mem : c ∈ cs) :
    0x41 ≤ c.toNat ∧ c.toNat ≤ 0x5a ∨ 0x61 ≤ c.toNat ∧ c.toNat ≤ 0x7a := by
  simp only [isRegisterName, isLabelName, Bool.and_eq_true, List.all_eq_true, Text.isUpper_iff,
    Text.isLower_iff] at name
  exact name.imp (fun h => h.2 c mem) (fun h => h.2 c mem)

lemma isRegisterName_eq_false {cs : List Char} (label : isLabelName cs = true) :
    isRegisterName cs = false := by
  cases cs with
  | nil => cases label
  | cons c cs =>
    simp only [isLabelName, List.isEmpty_cons, List.all_cons, Bool.not_false, Bool.true_and,
      Bool.and_eq_true, Text.isLower_iff] at label
    have upper : c.isUpper = false := by
      rw [← Bool.not_eq_true, Text.isUpper_iff]
      omega
    rw [isRegisterName, List.all_cons, upper, Bool.false_and, Bool.and_false]

lemma integer?_eq_none_of_name {cs : List Char}
    (name : isRegisterName (dropFinalNewline cs) = true ∨
      isLabelName (dropFinalNewline cs) = true) :
    integer? cs = .ok none := by
  cases text : dropFinalNewline cs with
  | nil =>
    rw [text] at name
    exact absurd name (by decide)
  | cons c rest =>
    rw [text] at name
    have letter := isLetter_of_name name List.mem_cons_self
    exact integer?_eq_none_of_head text (Text.decimalDigit?_eq_none (by omega))

namespace Direct

/-- Relates a text to the direct operand it is read as. A line feed at the end of the text does not
count, but a name keeps it. -/
def ReadFrom (cs : List Char) : Direct → Prop
  | .integer value => Numeral (dropFinalNewline cs) value
  | .register name => name = String.ofList cs ∧ isRegisterName (dropFinalNewline cs) = true
  | .label name => name = String.ofList cs ∧ isLabelName (dropFinalNewline cs) = true

/-- A text is read as an integer or else as a name. -/
lemma ofToken?_eq (cs : List Char) :
    ofToken? cs = integer? cs >>= fun
      | some value => .ok (some (.integer value))
      | none => .ok (
        if isRegisterName (dropFinalNewline cs) then some (.register (String.ofList cs))
        else if isLabelName (dropFinalNewline cs) then some (.label (String.ofList cs))
        else none) := by
  unfold ofToken?
  rcases integer? cs with f | _ | value
  · rfl
  · simp only [bind, Except.bind]
    split
    · rfl
    · split <;> rfl
  · rfl

lemma ofToken?_eq_some_iff {cs : List Char} {d : Direct} :
    ofToken? cs = .ok (some d) ↔ d.ReadFrom cs := by
  rw [ofToken?_eq]
  constructor
  · intro ok
    obtain ⟨_ | value, read, ok⟩ := bind_eq_ok.1 ok
    · simp only [Except.ok.injEq] at ok
      split at ok
      · next register =>
        cases ok
        exact ⟨rfl, register⟩
      · split at ok
        · next label =>
          cases ok
          exact ⟨rfl, label⟩
        · cases ok
    · cases ok
      exact integer?_eq_some_iff.1 read
  · intro read
    cases d with
    | integer value =>
      rw [integer?_eq_some_iff.2 read]
      rfl
    | register name =>
      obtain ⟨rfl, register⟩ := read
      rw [integer?_eq_none_of_name (.inl register), register]
      rfl
    | label name =>
      obtain ⟨rfl, label⟩ := read
      rw [integer?_eq_none_of_name (.inr label), isRegisterName_eq_false label, label]
      rfl

/-- A text that is no integer and has a character other than a letter is no direct operand. -/
lemma ofToken?_eq_none {c : Char} {cs : List Char} (noInteger : integer? cs = .ok none)
    (mem : c ∈ dropFinalNewline cs) (other : c.toNat < 0x41 ∨ 0x5a < c.toNat ∧ c.toNat < 0x61) :
    ofToken? cs = .ok none := by
  have noRegister : isRegisterName (dropFinalNewline cs) = false := by
    refine Bool.eq_false_iff.2 fun name => ?_
    have letter := isLetter_of_name (.inl name) mem
    omega
  have noLabel : isLabelName (dropFinalNewline cs) = false := by
    refine Bool.eq_false_iff.2 fun name => ?_
    have letter := isLetter_of_name (.inr name) mem
    omega
  rw [ofToken?_eq, noInteger, noRegister, noLabel]
  rfl

/-- What begins with a bracket is no direct operand. -/
lemma ofToken?_eq_none_of_bracket {cs rest : List Char} (text : dropFinalNewline cs = '[' :: rest) :
    ofToken? cs = .ok none := by
  have noInteger := integer?_eq_none_of_head text (by decide)
  have mem : '[' ∈ dropFinalNewline cs := text ▸ List.mem_cons_self
  exact ofToken?_eq_none noInteger mem (by decide)

/-- What has a plus sign is no direct operand. -/
lemma ofToken?_eq_none_of_plus {cs : List Char} (plus : '+' ∈ dropFinalNewline cs) :
    ofToken? cs = .ok none :=
  ofToken?_eq_none (integer?_eq_none_of_plus plus) plus (by decide)

lemma ofToken?_eq_error {cs : List Char} {f : Failure} (err : ofToken? cs = .error f) :
    (∃ n, f = .longLiteral n) ∧ IsLongDecimal (dropFinalNewline cs) := by
  rw [ofToken?_eq, bind_eq_error] at err
  rcases err with err | ⟨_ | value, _, err⟩
  · exact integer?_eq_error err
  · cases err
  · cases err

end Direct

/-! ### Operands -/

/-- Something without a line feed between brackets. -/
def IsBracketed (cs inner : List Char) : Prop :=
  cs = '[' :: (inner ++ [']']) ∧ inner ≠ [] ∧ '\n' ∉ inner

/-- Two texts with the only plus sign between them. -/
def IsSum (cs left right : List Char) : Prop :=
  cs = left ++ '+' :: right ∧ left ≠ [] ∧ right ≠ [] ∧ '+' ∉ left ∧ '+' ∉ right

lemma bracketed?_eq_some {cs inner : List Char} :
    bracketed? cs = some inner ↔ IsBracketed cs inner := by
  unfold bracketed?
  split
  · next rest =>
    dsimp only
    constructor
    · intro h
      split at h
      · next parts =>
        cases h
        obtain ⟨last, nonempty, plain⟩ := parts
        refine ⟨?_, nonempty, plain⟩
        rw [List.dropLast_append_getLast? _ last]
      · cases h
    · rintro ⟨e, nonempty, plain⟩
      cases e
      rw [List.dropLast_concat]
      exact if_pos ⟨List.getLast?_concat, nonempty, plain⟩
  · next other =>
    refine ⟨nofun, ?_⟩
    rintro ⟨rfl, _⟩
    exact absurd rfl (other _)

lemma sum?_eq_some {cs left right : List Char} :
    sum? cs = some (left, right) ↔ IsSum cs left right := by
  unfold sum?
  constructor
  · intro h
    split at h
    · next l r pieces =>
      split at h
      · next nonempty =>
        cases h
        have joined : ['+'].intercalate (cs.splitOn '+') = cs := List.intercalate_splitOn '+'
        have single : ∀ piece ∈ cs.splitOn '+', '+' ∉ piece :=
          fun _ mem => not_mem_of_mem_splitOn mem
        rw [pieces] at joined single
        refine ⟨by rw [← joined]; simp, nonempty.1, nonempty.2, single left List.mem_cons_self,
          single right (List.mem_cons_of_mem _ List.mem_cons_self)⟩
      · cases h
    · cases h
  · rintro ⟨rfl, hl, hr, left', right'⟩
    rw [List.splitOn_append_cons_self_of_not_mem left', List.splitOn_eq_singleton right']
    exact if_pos ⟨hl, hr⟩

namespace Operand

/-- A token is a direct operand or else something between brackets. -/
lemma ofToken_eq (token : String) :
    ofToken token = Direct.ofToken? token.toList >>= fun
      | some d => .ok (.direct d)
      | none =>
        match bracketed? (dropFinalNewline token.toList) with
        | some inner => (ofInner? inner).map (·.getD (.invalid token))
        | none => .ok (.invalid token) := by
  simp only [ofToken]
  rcases Direct.ofToken? token.toList with f | _ | d
  · rfl
  · rcases bracketed? (dropFinalNewline token.toList) with _ | inner
    · rfl
    · simp only [bind, Except.bind]
      cases ofInner? inner <;> rfl
  · rfl

/-- A text stands between brackets for a direct operand or else for a sum. -/
lemma ofInner?_eq (inner : List Char) :
    ofInner? inner = Direct.ofToken? inner >>= fun
      | some d => .ok (some (.indirect d))
      | none =>
        match sum? inner with
        | some (left, right) =>
          (Source.integer? (Text.trim left)).map fun value =>
            some (.offset (String.ofList inner) value (String.ofList (Text.trim right)))
        | none => .ok none := by
  unfold ofInner?
  rcases Direct.ofToken? inner with f | _ | d
  · rfl
  · rcases sum? inner with _ | ⟨left, right⟩
    · rfl
    · simp only [bind, Except.bind]
      cases Source.integer? (Text.trim left) <;> rfl
  · rfl

/-- Relates a token to the operand it is read as. -/
def ReadFrom (cs : List Char) : Operand → Prop
  | .direct d => d.ReadFrom cs
  | .indirect d => ∃ inner, IsBracketed (dropFinalNewline cs) inner ∧ d.ReadFrom inner
  | .offset text value register =>
    ∃ inner left right, IsBracketed (dropFinalNewline cs) inner ∧ IsSum inner left right ∧
      text = String.ofList inner ∧ Source.integer? (Text.trim left) = .ok value ∧
      register = String.ofList (Text.trim right)
  | .invalid _ => False

/-- Tells whether a token is a decimal literal with too many digits, or has one between brackets,
alone or as the first part of a sum. -/
def HasLongDecimal (cs : List Char) : Prop :=
  IsLongDecimal (dropFinalNewline cs) ∨
    ∃ inner, IsBracketed (dropFinalNewline cs) inner ∧
      (IsLongDecimal inner ∨ ∃ left right, IsSum inner left right ∧ IsLongDecimal (Text.trim left))

/-- A token between brackets is read as what stands between them. -/
lemma ofToken_eq_of_isBracketed {token : String} {inner : List Char}
    (brackets : IsBracketed (dropFinalNewline token.toList) inner) :
    ofToken token = (ofInner? inner).map (·.getD (.invalid token)) := by
  rw [ofToken_eq, Direct.ofToken?_eq_none_of_bracket brackets.1, bracketed?_eq_some.2 brackets]
  rfl

/-- A sum is read as its parts without the blanks around them. -/
lemma ofInner?_eq_of_isSum {inner left right : List Char} (plain : '\n' ∉ inner)
    (sum : IsSum inner left right) :
    ofInner? inner = (Source.integer? (Text.trim left)).map fun value =>
      some (.offset (String.ofList inner) value (String.ofList (Text.trim right))) := by
  -- The plus sign keeps the text from being a direct operand, which is tried first.
  have plus : '+' ∈ dropFinalNewline inner := by
    rw [dropFinalNewline_eq plain, sum.1]
    exact List.mem_append_right _ List.mem_cons_self
  rw [ofInner?_eq, Direct.ofToken?_eq_none_of_plus plus, sum?_eq_some.2 sum]
  rfl

lemma ofToken_of_readFrom {token : String} {o : Operand} (read : o.ReadFrom token.toList) :
    ofToken token = .ok o := by
  cases o with
  | direct d =>
    rw [ofToken_eq, Direct.ofToken?_eq_some_iff.2 read]
    rfl
  | indirect d =>
    obtain ⟨inner, brackets, read⟩ := read
    rw [ofToken_eq_of_isBracketed brackets, ofInner?_eq, Direct.ofToken?_eq_some_iff.2 read]
    rfl
  | offset text value register =>
    obtain ⟨inner, left, right, brackets, sum, rfl, num, rfl⟩ := read
    rw [ofToken_eq_of_isBracketed brackets, ofInner?_eq_of_isSum brackets.2.2 sum, num]
    rfl
  | invalid token => cases read

/-- What is read between brackets is a direct operand, a sum or nothing. -/
lemma ofInner?_eq_ok {inner : List Char} {x : Option Operand} (read : ofInner? inner = .ok x) :
    (∃ d : Direct, x = some (.indirect d) ∧ d.ReadFrom inner) ∨
      (∃ left right value, IsSum inner left right ∧
        Source.integer? (Text.trim left) = .ok value ∧
        x = some (.offset (String.ofList inner) value (String.ofList (Text.trim right)))) ∨
      x = none := by
  rw [ofInner?_eq] at read
  obtain ⟨_ | d, direct, read⟩ := bind_eq_ok.1 read
  · dsimp only at read
    split at read
    · next left right parts =>
      obtain ⟨value, num, rfl⟩ := map_eq_ok.1 read
      exact .inr (.inl ⟨left, right, value, sum?_eq_some.1 parts, num, rfl⟩)
    · cases read
      exact .inr (.inr rfl)
  · cases read
    exact .inl ⟨d, rfl, Direct.ofToken?_eq_some_iff.1 direct⟩

lemma readFrom_of_ofToken {token : String} {o : Operand} (ok : ofToken token = .ok o) :
    o.ReadFrom token.toList ∨ o = .invalid token := by
  rw [ofToken_eq] at ok
  obtain ⟨_ | d, direct, ok⟩ := bind_eq_ok.1 ok
  · dsimp only at ok
    split at ok
    · next inner brackets =>
      have brackets := bracketed?_eq_some.1 brackets
      obtain ⟨x, read, rfl⟩ := map_eq_ok.1 ok
      obtain ⟨d, rfl, direct⟩ | ⟨left, right, value, sum, num, rfl⟩ | rfl := ofInner?_eq_ok read
      · exact .inl ⟨inner, brackets, direct⟩
      · exact .inl ⟨inner, left, right, brackets, sum, rfl, num, rfl⟩
      · exact .inr rfl
    · cases ok
      exact .inr rfl
  · cases ok
    exact .inl (Direct.ofToken?_eq_some_iff.1 direct)

/-- A token is read as an operand that is not invalid exactly if the two are related. -/
lemma ofToken_eq_ok_iff {token : String} {o : Operand} (valid : o ≠ .invalid token) :
    ofToken token = .ok o ↔ o.ReadFrom token.toList := by
  constructor
  · intro ok
    exact (readFrom_of_ofToken ok).resolve_right valid
  · exact ofToken_of_readFrom

/-- A token cannot be read only if it has a decimal literal with too many digits. -/
lemma hasLongDecimal_of_ofToken {token : String} {f : Failure} (err : ofToken token = .error f) :
    (∃ n, f = .longLiteral n) ∧ HasLongDecimal token.toList := by
  rw [ofToken_eq, bind_eq_error] at err
  rcases err with err | ⟨_ | d, _, err⟩
  · exact (Direct.ofToken?_eq_error err).imp_right .inl
  · dsimp only at err
    split at err
    · next inner brackets =>
      have brackets := bracketed?_eq_some.1 brackets
      have plain := brackets.2.2
      rw [map_eq_error, ofInner?_eq, bind_eq_error] at err
      rcases err with err | ⟨_ | d, _, err⟩
      · have long := Direct.ofToken?_eq_error err
        rw [dropFinalNewline_eq plain] at long
        exact long.imp_right fun long => .inr ⟨inner, brackets, .inl long⟩
      · dsimp only at err
        split at err
        · next left right parts =>
          have sum := sum?_eq_some.1 parts
          have plainLeft : '\n' ∉ Text.trim left := by
            intro mem
            refine plain (sum.1 ▸ List.mem_append_left _ ?_)
            exact (Text.trim_sublist left).subset mem
          have long := integer?_eq_error (map_eq_error.1 err)
          rw [dropFinalNewline_eq plainLeft] at long
          exact long.imp_right fun long => .inr ⟨inner, brackets, .inr ⟨left, right, sum, long⟩⟩
        · cases err
      · cases err
    · cases err
  · cases err

end Operand

end Source

end Dcpu
