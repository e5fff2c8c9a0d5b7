import Dcpu.Proofs.Recognition

/-!
# The written forms of operands

How the operands on a line are written. Their tokens have no blanks, so the line feed that is
tolerated behind an operand and the blanks that are tolerated in a sum do not matter.
`Direct.Written` relates such a text to the direct operand it denotes, and `Operand.Written` a token
to its operand: a token in one of the forms is read as its operand (`Operand.ofToken_of_written`),
and no other token is read as an operand that could be encoded (`Operand.written_of_ofToken`).

Reading fails only at a decimal literal with too many digits (`Operand.ofToken_eq_error`).
-/

namespace Dcpu
open Results

lemma Text.trim_eq {cs : List Char} (clean : ∀ c ∈ cs, isBlank c = false) : trim cs = cs := by
  have keep {ds : List Char} (clean : ∀ c ∈ ds, isBlank c = false) :
      ds.dropWhile isBlank = ds := by
    cases ds with
    | nil => rfl
    | cons d ds =>
      exact List.dropWhile_cons_of_neg (Bool.eq_false_iff.1 (clean d List.mem_cons_self))
  rw [trim, keep clean, trimEnd, keep fun c mem => clean c (List.mem_reverse.1 mem),
    List.reverse_reverse]

namespace Source

lemma newline_not_mem {cs : List Char} (clean : ∀ c ∈ cs, Text.isBlank c = false) : '\n' ∉ cs :=
  fun mem => absurd (clean _ mem) (by decide)

/-! ### Direct operands -/

/-- Relates a text to the direct operand it denotes. -/
def Direct.Written (cs : List Char) : Direct → Prop
  | .integer value => Numeral cs value
  | .register name => name = String.ofList cs ∧ isRegisterName cs = true
  | .label name => name = String.ofList cs ∧ isLabelName cs = true

lemma Direct.readFrom_iff_written {cs : List Char} {d : Direct} (plain : '\n' ∉ cs) :
    d.ReadFrom cs ↔ d.Written cs := by
  cases d <;> simp only [ReadFrom, Written, dropFinalNewline_eq plain]

/-! ### Operands -/

/-- Relates a token to the operand it denotes. -/
inductive Operand.Written : List Char → Operand → Prop where
  | direct {cs : List Char} {d : Direct} (written : d.Written cs) : Written cs (.direct d)
  | indirect {cs : List Char} {d : Direct} (written : d.Written cs) :
      Written ('[' :: (cs ++ [']'])) (.indirect d)
  | offset {left right : List Char} {value : Nat} (offset : Numeral left value)
      (nonempty : right ≠ []) (single : '+' ∉ right) :
      Written ('[' :: (left ++ '+' :: right ++ [']']))
        (.offset (String.ofList (left ++ '+' :: right)) (some value) (String.ofList right))

/-- Tells whether a token is a text with a property, or has one between brackets, alone or with
something added to it. -/
def HasLiteral (P : List Char → Prop) (cs : List Char) : Prop :=
  P cs ∨ (∃ inner, cs = '[' :: (inner ++ [']']) ∧ P inner) ∨
    ∃ left right, cs = '[' :: (left ++ '+' :: right ++ [']']) ∧ P left

lemma Numeral.plus_not_mem {cs : List Char} {value : Nat} (num : Numeral cs value) :
    cs ≠ [] ∧ '+' ∉ cs := by
  cases num with
  | hex nonempty digits =>
    refine ⟨List.cons_ne_nil _ _, fun plus => ?_⟩
    simp only [List.mem_cons, Char.reduceEq, false_or] at plus
    exact Text.not_mem_of_digits rfl digits plus
  | decimal nonempty _ digits =>
    exact ⟨nonempty, Text.not_mem_of_digits (Text.decimalDigit?_eq_none (by decide)) digits⟩

lemma Direct.Written.ne_nil {cs : List Char} {d : Direct} (written : d.Written cs) : cs ≠ [] := by
  rintro rfl
  cases d with
  | integer value => exact Numeral.plus_not_mem written |>.1 rfl
  | register name => cases written.2
  | label name => cases written.2

namespace Operand

/-- In a token without blanks nothing between brackets is blank. -/
lemma clean_of_isBracketed {cs inner : List Char} (clean : ∀ c ∈ cs, Text.isBlank c = false)
    (brackets : IsBracketed cs inner) : ∀ c ∈ inner, Text.isBlank c = false :=
  fun c mem => clean c (brackets.1 ▸ List.mem_cons_of_mem _ (List.mem_append_left _ mem))

/-- A token without blanks that is written in one of the forms is read as the operand. -/
lemma readFrom_of_written {cs : List Char} {o : Operand}
    (clean : ∀ c ∈ cs, Text.isBlank c = false) (written : Written cs o) : o.ReadFrom cs := by
  have plain := newline_not_mem clean
  cases written with
  | direct written => exact (Direct.readFrom_iff_written plain).2 written
  | @indirect inner d written =>
    have plainInner : '\n' ∉ inner := fun mem =>
      plain (List.mem_cons_of_mem _ (List.mem_append_left _ mem))
    refine ⟨inner, ⟨dropFinalNewline_eq plain, written.ne_nil, plainInner⟩, ?_⟩
    exact (Direct.readFrom_iff_written plainInner).2 written
  | @offset left right value num nonempty single =>
    obtain ⟨some, noPlus⟩ := num.plus_not_mem
    have brackets : IsBracketed ('[' :: (left ++ '+' :: right ++ [']'])) (left ++ '+' :: right) :=
      ⟨rfl, by simp, fun mem => plain (List.mem_cons_of_mem _ (List.mem_append_left _ mem))⟩
    have cleanInner := clean_of_isBracketed clean brackets
    have cleanLeft : ∀ c ∈ left, Text.isBlank c = false := fun c mem =>
      cleanInner c (List.mem_append_left _ mem)
    have cleanRight : ∀ c ∈ right, Text.isBlank c = false := fun c mem =>
      cleanInner c (List.mem_append_right _ (List.mem_cons_of_mem _ mem))
    refine ⟨_, left, right, ?_, ⟨rfl, some, nonempty, noPlus, single⟩, rfl, ?_, ?_⟩
    · rwa [dropFinalNewline_eq plain]
    · rw [Text.trim_eq cleanLeft, integer?_eq_some_iff,
        dropFinalNewline_eq (newline_not_mem cleanLeft)]
      exact num
    · rw [Text.trim_eq cleanRight]

/-- A token without blanks that is read as an operand is written in one of the forms, unless the
operand is a sum without an integer. -/
lemma written_of_readFrom {cs : List Char} {o : Operand}
    (clean : ∀ c ∈ cs, Text.isBlank c = false) (read : o.ReadFrom cs) :
    Written cs o ∨ ∃ text name, o = .offset text none name := by
  have plain := newline_not_mem clean
  cases o with
  | direct d => exact .inl (.direct ((Direct.readFrom_iff_written plain).1 read))
  | indirect d =>
    obtain ⟨inner, brackets, read⟩ := read
    rw [dropFinalNewline_eq plain] at brackets
    rw [brackets.1]
    exact .inl (.indirect ((Direct.readFrom_iff_written brackets.2.2).1 read))
  | offset text value register =>
    obtain ⟨inner, left, right, brackets, ⟨rfl, _, nonempty, _, single⟩, rfl, num, rfl⟩ := read
    rw [dropFinalNewline_eq plain] at brackets
    have cleanInner := clean_of_isBracketed clean brackets
    have cleanLeft : ∀ c ∈ left, Text.isBlank c = false := fun c mem =>
      cleanInner c (List.mem_append_left _ mem)
    have cleanRight : ∀ c ∈ right, Text.isBlank c = false := fun c mem =>
      cleanInner c (List.mem_append_right _ (List.mem_cons_of_mem _ mem))
    cases value with
    | none => exact .inr ⟨_, _, rfl⟩
    | some value =>
      rw [Text.trim_eq cleanLeft, integer?_eq_some_iff,
        dropFinalNewline_eq (newline_not_mem cleanLeft)] at num
      rw [brackets.1, Text.trim_eq cleanRight]
      exact .inl (.offset num nonempty single)
  | invalid token => cases read

lemma ofToken_of_written {token : String} {o : Operand}
    (clean : ∀ c ∈ token.toList, Text.isBlank c = false) (written : Written token.toList o) :
    ofToken token = .ok o :=
  ofToken_of_readFrom (readFrom_of_written clean written)

/-- A token that is read as an operand is written in one of the forms, unless the operand is invalid
or a sum without an integer. -/
lemma written_of_ofToken {token : String} {o : Operand}
    (clean : ∀ c ∈ token.toList, Text.isBlank c = false) (ok : ofToken token = .ok o) :
    Written token.toList o ∨ o = .invalid token ∨ ∃ text name, o = .offset text none name := by
  rcases readFrom_of_ofToken ok with read | invalid
  · exact (written_of_readFrom clean read).imp_right .inr
  · exact .inr (.inl invalid)

/-- The integer of an operand is the value of a literal in its token. -/
lemma hasLiteral_of_integer? {token : String} {o : Operand} {value : Nat}
    (clean : ∀ c ∈ token.toList, Text.isBlank c = false) (ok : ofToken token = .ok o)
    (int : o.integer? = some value) : HasLiteral (Numeral · value) token.toList := by
  rcases written_of_ofToken clean ok with written | rfl | ⟨_, _, rfl⟩
  · generalize token.toList = cs at written ⊢
    cases written with
    | @direct _ d written =>
      cases d with
      | integer v =>
        cases int
        exact .inl written
      | register | label => cases int
    | @indirect inner d written =>
      cases d with
      | integer v =>
        cases int
        exact .inr (.inl ⟨inner, rfl, written⟩)
      | register | label => cases int
    | @offset left right v num =>
      cases int
      exact .inr (.inr ⟨left, right, rfl, num⟩)
  · cases int
  · cases int

/-- A token cannot be read only if it has a decimal literal with too many digits. -/
lemma ofToken_eq_error {token : String} {f : Failure}
    (clean : ∀ c ∈ token.toList, Text.isBlank c = false) (err : ofToken token = .error f) :
    (∃ n, f = .longLiteral n) ∧ HasLiteral IsLongDecimal token.toList := by
  obtain ⟨unread, long⟩ := hasLongDecimal_of_ofToken err
  refine ⟨unread, ?_⟩
  rw [HasLongDecimal, dropFinalNewline_eq (newline_not_mem clean)] at long
  rcases long with long | ⟨inner, brackets, long | ⟨left, right, ⟨rfl, _⟩, long⟩⟩
  · exact .inl long
  · exact .inr (.inl ⟨inner, brackets.1, long⟩)
  · have cleanLeft : ∀ c ∈ left, Text.isBlank c = false := fun c mem =>
      clean_of_isBracketed clean brackets c (List.mem_append_left _ mem)
    rw [Text.trim_eq cleanLeft] at long
    exact .inr (.inr ⟨left, right, brackets.1, long⟩)

end Operand

end Source

end Dcpu
