import Dcpu.Proofs.Recognition

/-!
# The grammars of operands

Five grammars, told by the characters of a text alone: integers, names in capitals, names in small
letters, and between brackets one of these or a sum. At most one of them accepts a text, for its
first character and a plus sign tell which one it can be (`Grammar.ofText`); so it does not matter
in which order they are tried. The grammar that accepts a token, but for a line feed at its end,
tells as which operand the token is read, and a token that none accepts is invalid
(`Operand.ofToken_of_grammars`).
-/

namespace Dcpu

/-- Every digit of a text has a value. -/
lemma Text.exists_digits_of_isSome {digit? : Char → Option Nat} {cs : List Char}
    (digits : ∀ c ∈ cs, (digit? c).isSome = true) :
    ∃ ds, List.Forall₂ (fun c d => digit? c = some d) cs ds := by
  induction cs with
  | nil => exact ⟨[], .nil⟩
  | cons c cs ih =>
    obtain ⟨d, digit⟩ := Option.isSome_iff_exists.1 (digits c List.mem_cons_self)
    obtain ⟨ds, rest⟩ := ih fun x mem => digits x (List.mem_cons_of_mem _ mem)
    exact ⟨d :: ds, .cons digit rest⟩

lemma Text.isSome_of_digits {digit? : Char → Option Nat} {cs : List Char} {ds : List Nat}
    (digits : List.Forall₂ (fun c d => digit? c = some d) cs ds) :
    ∀ c ∈ cs, (digit? c).isSome = true := by
  intro c mem
  obtain ⟨d, _, digit⟩ := Results.exists_of_mem_left digits mem
  exact Option.isSome_of_eq_some digit

namespace Source

/-! ### Texts by their characters -/

/-- The hexadecimal digits of ASCII. -/
def IsHexDigit (c : Char) : Prop :=
  '0' ≤ c ∧ c ≤ '9' ∨ 'a' ≤ c ∧ c ≤ 'f' ∨ 'A' ≤ c ∧ c ≤ 'F'

/-- An integer of any length: hexadecimal digits behind `0x`, or decimal digits of any script. -/
def IsInteger (cs : List Char) : Prop :=
  (∃ digits, cs = '0' :: 'x' :: digits ∧ digits ≠ [] ∧ ∀ c ∈ digits, IsHexDigit c) ∨
    cs ≠ [] ∧ ∀ c ∈ cs, (Text.decimalDigit? c).isSome = true

/-- One or more characters from a range. -/
def IsSpelled (first last : Char) (cs : List Char) : Prop :=
  cs ≠ [] ∧ ∀ c ∈ cs, first ≤ c ∧ c ≤ last

/-- A text that can stand without brackets. -/
def IsDirect (cs : List Char) : Prop :=
  IsInteger cs ∨ IsSpelled 'A' 'Z' cs ∨ IsSpelled 'a' 'z' cs

lemma isSome_hexDigit? {c : Char} : (Text.hexDigit? c).isSome = true ↔ IsHexDigit c := by
  have ranges : IsHexDigit c ↔ 0x30 ≤ c.toNat ∧ c.toNat ≤ 0x39 ∨ 0x61 ≤ c.toNat ∧ c.toNat ≤ 0x66 ∨
      0x41 ≤ c.toNat ∧ c.toNat ≤ 0x46 := Iff.rfl
  rw [ranges, Text.hexDigit?]
  simp only [Char.reduceToNat]
  split
  · next digit => exact ⟨fun _ => .inl digit, fun _ => rfl⟩
  · split
    · next small => exact ⟨fun _ => .inr (.inl small), fun _ => rfl⟩
    · split
      · next capital => exact ⟨fun _ => .inr (.inr capital), fun _ => rfl⟩
      · next digit small capital => simp [digit, small, capital]

lemma isRegisterName_iff_isSpelled {cs : List Char} :
    isRegisterName cs = true ↔ IsSpelled 'A' 'Z' cs := by
  simp only [isRegisterName, IsSpelled, Bool.and_eq_true, List.all_eq_true, Text.isUpper_iff,
    Bool.not_eq_true', List.isEmpty_eq_false_iff]
  exact Iff.rfl

lemma isLabelName_iff_isSpelled {cs : List Char} :
    isLabelName cs = true ↔ IsSpelled 'a' 'z' cs := by
  simp only [isLabelName, IsSpelled, Bool.and_eq_true, List.all_eq_true, Text.isLower_iff,
    Bool.not_eq_true', List.isEmpty_eq_false_iff]
  exact Iff.rfl

lemma Numeral.isInteger {cs : List Char} {value : Nat} (num : Numeral cs value) : IsInteger cs := by
  cases num with
  | hex nonempty digits =>
    exact .inl ⟨_, rfl, nonempty, fun c mem =>
      isSome_hexDigit?.1 (Text.isSome_of_digits digits c mem)⟩
  | decimal nonempty _ digits => exact .inr ⟨nonempty, Text.isSome_of_digits digits⟩

/-- An integer has a value unless it is decimal and too long. -/
lemma IsInteger.exists_numeral {cs : List Char} (int : IsInteger cs) (short : ¬IsLongDecimal cs) :
    ∃ value, Numeral cs value := by
  obtain ⟨digits, rfl, nonempty, hex⟩ | ⟨nonempty, decimal⟩ := int
  · obtain ⟨ds, values⟩ := Text.exists_digits_of_isSome fun c mem => isSome_hexDigit?.2 (hex c mem)
    exact ⟨_, .hex nonempty values⟩
  · obtain ⟨ds, values⟩ := Text.exists_digits_of_isSome decimal
    have count : cs.length ≤ 4300 := Nat.le_of_not_lt fun long => short ⟨long, decimal⟩
    exact ⟨_, .decimal nonempty count values⟩

/-- The characters of a text that stands without brackets are digits and letters. -/
lemma IsDirect.plus_not_mem {cs : List Char} (direct : IsDirect cs) : '+' ∉ cs := by
  intro plus
  obtain (⟨digits, rfl, _, hex⟩ | ⟨_, decimal⟩) | ⟨_, letters⟩ | ⟨_, letters⟩ := direct
  · simp only [List.mem_cons, Char.reduceEq, false_or] at plus
    exact absurd (hex _ plus) (by unfold IsHexDigit; decide)
  · have digit := decimal _ plus
    rw [Text.decimalDigit?_eq_none (by decide)] at digit
    cases digit
  · exact absurd (letters _ plus) (by decide)
  · exact absurd (letters _ plus) (by decide)

/-! ### Grammars -/

/-- The grammars of operands. -/
inductive Grammar where
  | integer
  | register
  | label
  /-- A text between brackets that could stand without them. -/
  | indirect
  /-- A sum between brackets. -/
  | offset

namespace Grammar

/-- Relates a grammar to the texts it accepts. -/
def Accepts : Grammar → List Char → Prop
  | integer, cs => IsInteger cs
  | register, cs => IsSpelled 'A' 'Z' cs
  | label, cs => IsSpelled 'a' 'z' cs
  | indirect, cs => ∃ inner, IsBracketed cs inner ∧ IsDirect inner
  | offset, cs => ∃ inner left right, IsBracketed cs inner ∧ IsSum inner left right

/-- The only grammar that can accept a text, by its first character and a plus sign. -/
def ofText : List Char → Grammar
  | [] => integer
  | c :: cs =>
    if c = '[' then if '+' ∈ cs then offset else indirect
    else if c.isUpper then register
    else if c.isLower then label
    else integer

lemma ofText_cons_of_digit {c : Char} {cs : List Char}
    (digit : (Text.decimalDigit? c).isSome = true) : ofText (c :: cs) = integer := by
  have range : ¬(c.toNat < 0x30 ∨ 0x3a ≤ c.toNat ∧ c.toNat < 0x660) := by
    intro other
    rw [Text.decimalDigit?_eq_none other] at digit
    cases digit
  have noBracket : c ≠ '[' := by
    rintro rfl
    exact range (by decide)
  rw [ofText, if_neg noBracket, if_neg (by rw [Text.isUpper_iff]; omega),
    if_neg (by rw [Text.isLower_iff]; omega)]

lemma ofText_brackets (inner : List Char) :
    ofText ('[' :: (inner ++ [']'])) = if '+' ∈ inner then offset else indirect := by
  simp [ofText]

lemma Accepts.eq_ofText {g : Grammar} {cs : List Char} (accepts : g.Accepts cs) :
    g = ofText cs := by
  cases g with
  | integer =>
    obtain ⟨digits, rfl, _⟩ | ⟨nonempty, decimal⟩ := accepts
    · rw [ofText_cons_of_digit (by decide)]
    · obtain ⟨c, rest, rfl⟩ := List.exists_cons_of_ne_nil nonempty
      rw [ofText_cons_of_digit (decimal c List.mem_cons_self)]
  | register =>
    obtain ⟨nonempty, letters⟩ := accepts
    obtain ⟨c, rest, rfl⟩ := List.exists_cons_of_ne_nil nonempty
    have letter := letters c List.mem_cons_self
    have upper : c.isUpper = true := Text.isUpper_iff.2 letter
    have noBracket : c ≠ '[' := by
      rintro rfl
      exact absurd letter (by decide)
    rw [ofText, if_neg noBracket, if_pos upper]
  | label =>
    obtain ⟨nonempty, letters⟩ := accepts
    obtain ⟨c, rest, rfl⟩ := List.exists_cons_of_ne_nil nonempty
    have letter : 0x61 ≤ c.toNat ∧ c.toNat ≤ 0x7a := letters c List.mem_cons_self
    have noBracket : c ≠ '[' := by
      rintro rfl
      exact absurd letter (by decide)
    rw [ofText, if_neg noBracket, if_neg (by rw [Text.isUpper_iff]; omega),
      if_pos (Text.isLower_iff.2 letter)]
  | indirect =>
    obtain ⟨inner, ⟨rfl, _⟩, direct⟩ := accepts
    rw [ofText_brackets, if_neg direct.plus_not_mem]
  | offset =>
    obtain ⟨inner, left, right, ⟨rfl, _⟩, ⟨rfl, _⟩⟩ := accepts
    rw [ofText_brackets, if_pos (by simp)]

end Grammar

/-! ### Reading by the grammars -/

lemma exists_integer? {cs : List Char} (short : ¬IsLongDecimal (dropFinalNewline cs)) :
    ∃ value, integer? cs = .ok value := by
  cases read : integer? cs with
  | ok value => exact ⟨value, rfl⟩
  | error f => exact absurd (integer?_eq_error read).2 short

namespace Direct

lemma isDirect_of_readFrom {cs : List Char} {d : Direct} (read : d.ReadFrom cs) :
    IsDirect (dropFinalNewline cs) := by
  cases d with
  | integer value => exact .inl (Numeral.isInteger read)
  | register name => exact .inr (.inl (isRegisterName_iff_isSpelled.1 read.2))
  | label name => exact .inr (.inr (isLabelName_iff_isSpelled.1 read.2))

lemma exists_readFrom {cs : List Char} (direct : IsDirect (dropFinalNewline cs))
    (short : ¬IsLongDecimal (dropFinalNewline cs)) : ∃ d : Direct, d.ReadFrom cs := by
  obtain int | name | name := direct
  · obtain ⟨value, num⟩ := int.exists_numeral short
    exact ⟨.integer value, num⟩
  · exact ⟨.register _, rfl, isRegisterName_iff_isSpelled.2 name⟩
  · exact ⟨.label _, rfl, isLabelName_iff_isSpelled.2 name⟩

end Direct

namespace Operand

lemma accepts_of_readFrom {cs : List Char} {o : Operand} (read : o.ReadFrom cs) :
    ∃ g : Grammar, g.Accepts (dropFinalNewline cs) := by
  cases o with
  | direct d =>
    obtain int | name | name := Direct.isDirect_of_readFrom read
    · exact ⟨.integer, int⟩
    · exact ⟨.register, name⟩
    · exact ⟨.label, name⟩
  | indirect d =>
    obtain ⟨inner, brackets, read⟩ := read
    have direct := Direct.isDirect_of_readFrom read
    rw [dropFinalNewline_eq brackets.2.2] at direct
    exact ⟨.indirect, inner, brackets, direct⟩
  | offset text value register =>
    obtain ⟨inner, left, right, brackets, sum, _⟩ := read
    exact ⟨.offset, inner, left, right, brackets, sum⟩
  | invalid token => cases read

/-- A token that a grammar accepts is read as an operand, unless a decimal literal is too long. -/
lemma exists_readFrom {cs : List Char} {g : Grammar} (accepts : g.Accepts (dropFinalNewline cs))
    (short : ¬HasLongDecimal cs) : ∃ o : Operand, o.ReadFrom cs := by
  have direct (accepts : IsDirect (dropFinalNewline cs)) : ∃ o : Operand, o.ReadFrom cs := by
    obtain ⟨d, read⟩ := Direct.exists_readFrom accepts fun long => short (.inl long)
    exact ⟨.direct d, read⟩
  cases g with
  | integer => exact direct (.inl accepts)
  | register => exact direct (.inr (.inl accepts))
  | label => exact direct (.inr (.inr accepts))
  | indirect =>
    obtain ⟨inner, brackets, accepts⟩ := accepts
    have plain := dropFinalNewline_eq brackets.2.2
    obtain ⟨d, read⟩ : ∃ d : Direct, d.ReadFrom inner := by
      apply Direct.exists_readFrom
      · rwa [plain]
      · rw [plain]
        exact fun long => short (.inr ⟨inner, brackets, .inl long⟩)
    exact ⟨.indirect d, inner, brackets, read⟩
  | offset =>
    obtain ⟨inner, left, right, brackets, sum⟩ := accepts
    have plain : '\n' ∉ Text.trim left := fun mem =>
      brackets.2.2 (sum.1 ▸ List.mem_append_left _ ((Text.trim_sublist left).subset mem))
    obtain ⟨value, num⟩ : ∃ value, Source.integer? (Text.trim left) = .ok value := by
      apply exists_integer?
      rw [dropFinalNewline_eq plain]
      exact fun long => short (.inr ⟨inner, brackets, .inr ⟨left, right, sum, long⟩⟩)
    exact ⟨.offset _ value _, inner, left, right, brackets, sum, rfl, num, rfl⟩

/-- A token of usual length has no decimal literal that is too long. -/
lemma not_hasLongDecimal {cs : List Char} (short : cs.length ≤ 4300) : ¬HasLongDecimal cs := by
  have dropped : (dropFinalNewline cs).length ≤ 4300 := by
    unfold dropFinalNewline
    split
    · exact (List.dropLast_sublist cs).length_le.trans short
    · exact short
  rintro (⟨long, _⟩ | ⟨inner, brackets, inside⟩)
  · exact Nat.not_lt_of_le dropped long
  · rw [brackets.1, List.length_cons, List.length_append] at dropped
    obtain ⟨long, _⟩ | ⟨left, right, sum, long, _⟩ := inside
    · omega
    · have parts := congrArg List.length sum.1
      rw [List.length_append] at parts
      have trimmed := (Text.trim_sublist left).length_le
      omega

/-- An operand is of the kind that the grammars tell for a token without the line feed at its end,
and its parts are those of the token. -/
structure FollowsGrammars (token : String) (o : Operand) : Prop where
  integer : (∃ value, o = .direct (.integer value)) ↔ IsInteger (dropFinalNewline token.toList)
  register : ∀ name, o = .direct (.register name) ↔
    name = token ∧ IsSpelled 'A' 'Z' (dropFinalNewline token.toList)
  label : ∀ name, o = .direct (.label name) ↔
    name = token ∧ IsSpelled 'a' 'z' (dropFinalNewline token.toList)
  indirect : ∀ target, o = .indirect target ↔
    ∃ inner, IsBracketed (dropFinalNewline token.toList) inner ∧ IsDirect inner ∧
      ofToken (String.ofList inner) = .ok (.direct target)
  offset : ∀ text value register, o = .offset text value register ↔
    ∃ inner left right, IsBracketed (dropFinalNewline token.toList) inner ∧
      IsSum inner left right ∧ text = String.ofList inner ∧
      Source.integer? (Text.trim left) = .ok value ∧ register = String.ofList (Text.trim right)
  invalid : ∀ name, o = .invalid name ↔
    name = token ∧ ∀ g : Grammar, ¬g.Accepts (dropFinalNewline token.toList)

/-- What stands between brackets is read as it would be alone. -/
lemma readFrom_inner_iff {inner : List Char} {d : Direct} (plain : '\n' ∉ inner) :
    d.ReadFrom inner ↔ IsDirect inner ∧ ofToken (String.ofList inner) = .ok (.direct d) := by
  rw [ofToken_eq_ok_iff (by simp), String.toList_ofList]
  constructor
  · intro read
    have direct := Direct.isDirect_of_readFrom read
    rw [dropFinalNewline_eq plain] at direct
    exact ⟨direct, read⟩
  · exact fun h => h.2

lemma followsGrammars_of_ofToken {token : String} {o : Operand}
    (short : ¬HasLongDecimal token.toList) (ok : ofToken token = .ok o) :
    o.FollowsGrammars token := by
  have same {x : Operand} (valid : x ≠ .invalid token) : o = x ↔ x.ReadFrom token.toList := by
    rw [← ofToken_eq_ok_iff valid, ok, Except.ok.injEq]
  constructor
  case integer =>
    constructor
    · rintro ⟨value, rfl⟩
      exact Numeral.isInteger ((same (by simp)).1 rfl)
    · intro int
      obtain ⟨value, num⟩ := int.exists_numeral fun long => short (.inl long)
      exact ⟨value, (same (by simp)).2 num⟩
  case register =>
    intro name
    rw [same (by simp), ← isRegisterName_iff_isSpelled]
    simp only [ReadFrom, Direct.ReadFrom, String.ofList_toList]
  case label =>
    intro name
    rw [same (by simp), ← isLabelName_iff_isSpelled]
    simp only [ReadFrom, Direct.ReadFrom, String.ofList_toList]
  case indirect =>
    intro target
    rw [same (by simp)]
    apply exists_congr
    intro inner
    exact and_congr_right fun brackets => readFrom_inner_iff brackets.2.2
  case offset =>
    intro text value register
    exact same (by simp)
  case invalid =>
    intro name
    constructor
    · rintro rfl
      obtain unread | e := readFrom_of_ofToken ok
      · cases unread
      · cases e
        refine ⟨rfl, fun g accepts => ?_⟩
        obtain ⟨x, read⟩ := exists_readFrom accepts short
        have e := ofToken_of_readFrom read
        rw [ok] at e
        cases e
        cases read
    · rintro ⟨rfl, rejected⟩
      obtain read | e := readFrom_of_ofToken ok
      · obtain ⟨g, accepts⟩ := accepts_of_readFrom read
        exact absurd accepts (rejected g)
      · exact e

/-- A token without a decimal literal that is too long is read as the operand that the grammars
tell, and no two grammars accept it. -/
theorem ofToken_of_grammars {token : String} (short : ¬HasLongDecimal token.toList) :
    (∃ o, ofToken token = .ok o ∧ o.FollowsGrammars token) ∧
      ∀ g g' : Grammar, g.Accepts (dropFinalNewline token.toList) →
        g'.Accepts (dropFinalNewline token.toList) → g = g' := by
  constructor
  · cases ok : ofToken token with
    | ok o => exact ⟨o, rfl, followsGrammars_of_ofToken short ok⟩
    | error f => exact absurd (hasLongDecimal_of_ofToken ok).2 short
  · intro g g' first second
    exact first.eq_ofText.trans second.eq_ofText.symm

/-- Blanks around the parts of a sum and a line feed behind the bracket do not count. -/
theorem ofToken_of_grammars_sum :
    ¬HasLongDecimal "[ 31 + J ]\n".toList ∧
      ofToken "[ 31 + J ]\n" = .ok (.offset " 31 + J " (some 31) "J") := by
  have short : ¬HasLongDecimal "[ 31 + J ]\n".toList := not_hasLongDecimal (by decide)
  obtain ⟨⟨o, ok, follows⟩, _⟩ := ofToken_of_grammars short
  have sum : o = .offset " 31 + J " (some 31) "J" := by
    refine (follows.offset _ _ _).2 ⟨" 31 + J ".toList, " 31 ".toList, " J ".toList, ?_⟩
    unfold IsBracketed IsSum
    decide
  exact ⟨short, sum ▸ ok⟩

end Operand

end Source

end Dcpu
