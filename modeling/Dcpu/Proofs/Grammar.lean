import Dcpu.Proofs.Forms
import Dcpu.Proofs.Scanning

/-!
# The grammar of a line

The tokens that make up a line: `IsOperand` lists the forms of an operand that can be encoded,
`IsStatement` those of an operation with its operands, and `IsLine` puts a label before it. The
predicates do not refer to how a line is read; that a line can be read exactly if its tokens are in
the grammar is `Entry.isLine_iff`.
-/

namespace Dcpu
open Results
open Source (tokens body label?)

/-- The only extended operation is the call. -/
lemma Operation.eq_jsr_of_format {op : Operation} (extended : op.format = .extended) :
    op = .jsr := by
  cases op <;> first | rfl | cases extended

lemma Register.isRegisterName_name (r : Register) :
    Source.isRegisterName r.name.toList = true := by
  cases r <;> decide

namespace Source

/-- Tells whether a text is a name of a label: one or more lower-case letters. -/
def IsLabel (name : String) : Prop :=
  name ≠ "" ∧ ∀ c ∈ name.toList, 'a' ≤ c ∧ c ≤ 'z'

/-- The tokens that are operands. -/
inductive IsOperand : String → Prop where
  | integer {s : String} {value : Nat} (num : Numeral s.toList value) (word : value ≤ 65535) :
      IsOperand s
  | register (r : Register) : IsOperand r.name
  | label {name : String} (proper : IsLabel name) : IsOperand name
  | indirectInteger {s : String} {value : Nat} (num : Numeral s.toList value)
      (word : value ≤ 65535) : IsOperand ("[" ++ s ++ "]")
  | indirectRegister {r : Register} (general : r.isGeneral = true) :
      IsOperand ("[" ++ r.name ++ "]")
  | indirectLabel {name : String} (proper : IsLabel name) : IsOperand ("[" ++ name ++ "]")
  | offset {s : String} {value : Nat} (num : Numeral s.toList value) (word : value ≤ 65535)
      (r : Register) : IsOperand ("[" ++ s ++ "+" ++ r.name ++ "]")

/-- The tokens of an operation with its operands. -/
inductive IsStatement : List String → Prop where
  | basic {op : Operation} {a b : String} (format : op.format = .basic) (first : IsOperand a)
      (second : IsOperand b) : IsStatement [op.mnemonic, a, b]
  | jsr {b : String} (operand : IsOperand b) : IsStatement ["JSR", b]

/-- The tokens of a line. -/
inductive IsLine : List String → Prop where
  | empty : IsLine []
  | label {name : String} (proper : IsLabel name) : IsLine [":" ++ name]
  | statement {ts : List String} (statement : IsStatement ts) : IsLine ts
  | labelled {name : String} {ts : List String} (proper : IsLabel name)
      (statement : IsStatement ts) : IsLine ((":" ++ name) :: ts)

lemma isLabelName_iff {name : String} : isLabelName name.toList = true ↔ IsLabel name := by
  simp only [isLabelName, IsLabel, Bool.and_eq_true, List.all_eq_true, Char.isLower,
    decide_eq_true_eq, Bool.not_eq_true', List.isEmpty_eq_false_iff, ne_eq,
    String.toList_eq_nil_iff]
  exact Iff.rfl

/-! ### Operands -/

lemma ofList_brackets (cs : List Char) :
    String.ofList ('[' :: (cs ++ [']'])) = "[" ++ String.ofList cs ++ "]" := by
  rw [← String.toList_inj]
  simp

lemma toList_brackets (s : String) : ("[" ++ s ++ "]").toList = '[' :: (s.toList ++ [']']) := by
  simp

lemma ofList_sum (left right : List Char) :
    String.ofList ('[' :: (left ++ '+' :: right ++ [']'])) =
      "[" ++ String.ofList left ++ "+" ++ String.ofList right ++ "]" := by
  rw [← String.toList_inj]
  simp

lemma toList_sum (s t : String) :
    ("[" ++ s ++ "+" ++ t ++ "]").toList = '[' :: (s.toList ++ '+' :: t.toList ++ [']']) := by
  simp

lemma plus_not_mem_of_name {cs : List Char} (name : isRegisterName cs = true) : '+' ∉ cs := by
  intro mem
  have letter := isLetter_of_name (.inl name) mem
  exact absurd letter (by decide)

/-- An operand is written in one of the forms and has a code. -/
lemma written_of_isOperand {token : String} (operand : IsOperand token) :
    ∃ o c, Operand.Written token.toList o ∧ o.code? = some c := by
  cases operand with
  | @integer s value num word =>
    refine ⟨.direct (.integer value), ?_⟩
    by_cases small : value ≤ 0x1f
    · exact ⟨0x20 + value, .direct num, if_pos small⟩
    · exact ⟨0x1f, .direct num, (if_neg small).trans (if_pos word)⟩
  | register r =>
    refine ⟨.direct (.register r.name), r.code, .direct ⟨?_, r.isRegisterName_name⟩, ?_⟩
    · rw [String.ofList_toList]
    · rw [Operand.code?, Register.ofName?_name, Option.map_some]
  | label proper =>
    refine ⟨.direct (.label token), 0x1f, .direct ⟨?_, isLabelName_iff.2 proper⟩, rfl⟩
    rw [String.ofList_toList]
  | @indirectInteger s value num word =>
    refine ⟨.indirect (.integer value), 0x1e, ?_, if_pos word⟩
    rw [toList_brackets]
    exact .indirect num
  | @indirectRegister r general =>
    refine ⟨.indirect (.register r.name), 0x08 + r.code, ?_, ?_⟩
    · rw [toList_brackets]
      exact .indirect ⟨by rw [String.ofList_toList], r.isRegisterName_name⟩
    · rw [Operand.code?, Register.ofName?_name, Option.filter_some, if_pos general, Option.map_some]
  | @indirectLabel name proper =>
    refine ⟨.indirect (.label name), 0x1e, ?_, rfl⟩
    rw [toList_brackets]
    exact .indirect ⟨by rw [String.ofList_toList], isLabelName_iff.2 proper⟩
  | @offset s value num word r =>
    have name := r.isRegisterName_name
    have nonempty : r.name.toList ≠ [] := by
      intro e
      rw [e] at name
      cases name
    rw [toList_sum]
    have written := Operand.Written.offset num nonempty (plus_not_mem_of_name name)
    refine ⟨_, 0x10, written, ?_⟩
    rw [Operand.code?, if_pos word, String.ofList_toList, Register.ofName?_name, Option.map_some]

/-- A token that is written in one of the forms is an operand if it has a code. -/
lemma isOperand_of_written {token : String} {o : Operand} {c : Nat}
    (written : Operand.Written token.toList o) (code : o.code? = some c) : IsOperand token := by
  generalize chars : token.toList = cs at written
  obtain rfl : token = String.ofList cs := by rw [← chars, String.ofList_toList]
  cases written with
  | @direct _ d written =>
    cases d with
    | integer value =>
      refine .integer (by rwa [chars]) ?_
      simp only [Operand.code?] at code
      split at code
      · omega
      · split at code
        · next word => exact word
        · cases code
    | register name =>
      obtain ⟨rfl, _⟩ := written
      obtain ⟨r, found, _⟩ := Option.map_eq_some_iff.1 code
      rw [Register.ofName?_eq_some.1 found]
      exact .register r
    | label name => exact .label (isLabelName_iff.1 (by rw [chars]; exact written.2))
  | @indirect inner d written =>
    rw [ofList_brackets]
    have inside : (String.ofList inner).toList = inner := String.toList_ofList
    cases d with
    | integer value =>
      simp only [Operand.code?] at code
      split at code
      · next word => exact .indirectInteger (by rwa [inside]) word
      · cases code
    | register name =>
      obtain ⟨rfl, _⟩ := written
      obtain ⟨r, found, _⟩ := Option.map_eq_some_iff.1 code
      obtain ⟨found, general⟩ := Option.filter_eq_some_iff.1 found
      rw [Register.ofName?_eq_some.1 found]
      exact .indirectRegister general
    | label name => exact .indirectLabel (isLabelName_iff.1 (by rw [inside]; exact written.2))
  | @offset left right value num nonempty single =>
    rw [ofList_sum]
    simp only [Operand.code?] at code
    split at code
    · next word =>
      obtain ⟨r, found, _⟩ := Option.map_eq_some_iff.1 code
      rw [Register.ofName?_eq_some.1 found]
      exact .offset (by rwa [String.toList_ofList]) word r
    · cases code

/-- A token is an operand exactly if it is read as one that has a code. -/
lemma isOperand_iff {token : String} (clean : ∀ c ∈ token.toList, Text.isBlank c = false) :
    IsOperand token ↔ ∃ o c, Operand.ofToken token = .ok o ∧ o.code? = some c := by
  constructor
  · intro operand
    obtain ⟨o, c, written, code⟩ := written_of_isOperand operand
    exact ⟨o, c, Operand.ofToken_of_written clean written, code⟩
  · rintro ⟨o, c, ok, code⟩
    rcases Operand.written_of_ofToken clean ok with written | rfl | ⟨_, _, rfl⟩
    · exact isOperand_of_written written code
    · cases code
    · cases code

/-! ### Statements -/

/-- Tokens are a statement exactly if they are read as one that has fields. -/
lemma isStatement_iff {ts : List String}
    (clean : ∀ t ∈ ts, ∀ c ∈ t.toList, Text.isBlank c = false) :
    IsStatement ts ↔ ∃ st f, Statement.ofTokens? ts = some st ∧ st.fields? = some f := by
  constructor
  · intro statement
    cases statement with
    | @basic op ta tb format first second =>
      obtain ⟨oa, a, readA, codeA⟩ := (isOperand_iff (clean ta (by simp))).1 first
      obtain ⟨ob, b, readB, codeB⟩ := (isOperand_iff (clean tb (by simp))).1 second
      have fields : Statement.fields? ⟨op, [oa, ob]⟩ = some _ := Statement.fields?_eq_some.2
        (.inl ⟨oa, ob, a, b, format, rfl, codeA, codeB, rfl⟩)
      refine ⟨⟨op, [oa, ob]⟩, _, ?_, fields⟩
      exact Statement.ofTokens?_eq_some.2 ⟨rfl, .cons readA (.cons readB .nil)⟩
    | @jsr tb operand =>
      obtain ⟨ob, b, readB, codeB⟩ := (isOperand_iff (clean tb (by simp))).1 operand
      have fields : Statement.fields? ⟨.jsr, [ob]⟩ = some _ := Statement.fields?_eq_some.2
        (.inr ⟨ob, b, rfl, rfl, codeB, rfl⟩)
      refine ⟨⟨.jsr, [ob]⟩, _, ?_, fields⟩
      exact Statement.ofTokens?_eq_some.2 ⟨rfl, .cons readB .nil⟩
  · rintro ⟨⟨op, operands⟩, f, statement, fields⟩
    cases ts with
    | nil => cases statement
    | cons mnemonic ts =>
      obtain ⟨rfl, read⟩ := Statement.ofTokens?_eq_some.1 statement
      rcases Statement.fields?_eq_some.1 fields with
        ⟨oa, ob, a, b, format, rfl, codeA, codeB, _⟩ | ⟨ob, b, format, rfl, codeB, _⟩
      · obtain ⟨ta, _, readA, rest, rfl⟩ := List.forall₂_cons_right_iff.1 read
        obtain ⟨tb, _, readB, last, rfl⟩ := List.forall₂_cons_right_iff.1 rest
        cases last
        exact .basic format ((isOperand_iff (clean ta (by simp))).2 ⟨oa, a, readA, codeA⟩)
          ((isOperand_iff (clean tb (by simp))).2 ⟨ob, b, readB, codeB⟩)
      · obtain ⟨tb, _, readB, rest, rfl⟩ := List.forall₂_cons_right_iff.1 read
        cases rest
        cases Operation.eq_jsr_of_format format
        exact .jsr ((isOperand_iff (clean tb (by simp))).2 ⟨ob, b, readB, codeB⟩)

/-! ### Lines -/

lemma Line.labelPart?_eq_some {token : String} {name : List Char} :
    labelPart? token = some name ↔ token = ":" ++ String.ofList name := by
  rw [← String.toList_inj]
  unfold labelPart?
  split
  · next rest chars => simp [chars]
  · next other =>
    refine ⟨nofun, fun chars => absurd ?_ (other name)⟩
    simpa using chars

/-- A label is defined by a first token that begins with a colon. -/
lemma label?_eq_some {ts : List String} {name : String} :
    label? ts = some name ↔ ts = (":" ++ name) :: body ts := by
  cases ts with
  | nil => exact ⟨nofun, nofun⟩
  | cons first rest =>
    simp only [label?, body, Option.map_eq_some_iff, Line.labelPart?_eq_some]
    constructor
    · rintro ⟨cs, rfl, rfl⟩
      rw [Line.labelPart?_eq_some.2 rfl]
      rfl
    · intro e
      refine ⟨name.toList, ?_, String.ofList_toList⟩
      rw [String.ofList_toList]
      exact (List.cons.inj e).1

lemma body_of_label?_eq_none {ts : List String} (absent : label? ts = none) : body ts = ts := by
  cases ts with
  | nil => rfl
  | cons first rest =>
    rw [label?, Option.map_eq_none_iff] at absent
    rw [body, absent]
    rfl

lemma body_cons_label (name : String) (ts : List String) : body ((":" ++ name) :: ts) = ts := by
  have part : Line.labelPart? (":" ++ name) = some name.toList :=
    Line.labelPart?_eq_some.2 (by rw [String.ofList_toList])
  rw [body, part]
  rfl

/-- The tokens of a statement define no label, and there are two or three of them. -/
lemma IsStatement.label?_eq_none {ts : List String} (statement : IsStatement ts) :
    label? ts = none ∧ 2 ≤ ts.length ∧ ts.length ≤ 3 := by
  cases statement with
  | @basic op a b =>
    have noLabel : Line.labelPart? op.mnemonic = none := by cases op <;> decide
    exact ⟨by rw [label?, noLabel]; rfl, by simp⟩
  | @jsr b => exact ⟨rfl, by simp⟩

/-- Tokens are a line exactly if they have the shape of one and a statement or nothing stands behind
the label. -/
lemma isLine_iff_isShaped {ts : List String} :
    IsLine ts ↔ IsShaped ts ∧ (body ts = [] ∨ IsStatement (body ts)) := by
  constructor
  · intro line
    cases line with
    | empty => exact ⟨⟨(fun _ mem => by cases mem), .inl rfl⟩, .inl rfl⟩
    | @label name proper =>
      have parts := body_cons_label name []
      have defined : label? [":" ++ name] = some name := label?_eq_some.2 (by rw [parts])
      refine ⟨⟨?_, .inl parts⟩, .inl parts⟩
      rw [defined]
      exact fun _ mem => Option.mem_some.1 mem ▸ isLabelName_iff.2 proper
    | statement statement =>
      -- No mnemonic begins with a colon.
      obtain ⟨absent, count⟩ := statement.label?_eq_none
      rw [body_of_label?_eq_none absent, IsShaped, absent]
      exact ⟨⟨(fun _ mem => by cases mem), .inr (by omega)⟩, .inr statement⟩
    | @labelled name ts proper statement =>
      obtain ⟨_, count⟩ := statement.label?_eq_none
      have parts := body_cons_label name ts
      have defined : label? ((":" ++ name) :: ts) = some name := label?_eq_some.2 (by rw [parts])
      rw [parts, IsShaped, defined, List.length_cons]
      refine ⟨⟨?_, .inr (by omega)⟩, .inr statement⟩
      exact fun _ mem => Option.mem_some.1 mem ▸ isLabelName_iff.2 proper
  · rintro ⟨⟨proper, _⟩, rest⟩
    cases defined : label? ts with
    | none =>
      rw [body_of_label?_eq_none defined] at rest
      rcases rest with rfl | statement
      · exact .empty
      · exact .statement statement
    | some name =>
      have proper := isLabelName_iff.1 (proper name defined)
      rw [label?_eq_some.1 defined]
      rcases rest with empty | statement
      · rw [empty]
        exact .label proper
      · exact .labelled proper statement

end Source

/-- A line can be read exactly if its tokens are in the grammar. -/
lemma Entry.isLine_iff {number : Nat} {text : String} :
    Source.IsLine (tokens text) ↔ ∃ e, read number text = .ok e := by
  have clean : ∀ t ∈ body (tokens text), ∀ c ∈ t.toList, Text.isBlank c = false :=
    fun t mem => Source.isBlank_of_mem_tokens (Source.body_subset _ mem)
  rw [Source.isLine_iff_isShaped, Source.isStatement_iff clean]
  simp only [read_eq_ok]
  constructor
  · rintro ⟨shape, empty | ⟨st, fields, statement, hfields⟩⟩
    · exact ⟨⟨_, none⟩, shape, rfl, .inl ⟨empty, rfl⟩⟩
    · have built : st.instruction? (.ofLine number text) = some _ :=
        Option.map_eq_some_iff.2 ⟨fields, hfields, rfl⟩
      exact ⟨⟨_, some _⟩, shape, rfl, .inr ⟨st, _, statement, built, rfl⟩⟩
  · rintro ⟨e, shape, _, ⟨empty, _⟩ | ⟨st, i, statement, built, _⟩⟩
    · exact ⟨shape, .inl empty⟩
    · obtain ⟨fields, hfields, _⟩ := Option.map_eq_some_iff.1 built
      exact ⟨shape, .inr ⟨st, fields, statement, hfields⟩⟩

end Dcpu
