import Dcpu.Proofs.Grammar
import Dcpu.Proofs.References

/-!
# Which sources are assembled

A source is accepted if all its lines are in the grammar, no label is defined on two lines and every
label that is used as an operand is defined (`Source.Accepted`). These are conditions on the tokens
alone. The first is what reading the lines needs (`Entry.readFrom_isOk_iff`), the last what
resolving their instructions needs (`Entry.resolveAll_isOk_iff`).
-/

namespace Dcpu
open Results
open Source (IsLabel IsLine Operand tokens body label? operands lineReferences)

namespace Source

/-- Tells whether a line defines a label. -/
def Defines (text name : String) : Prop :=
  (tokens text).head? = some (":" ++ name)

/-- Tells whether an operand on a line is a label, with or without brackets. -/
def Uses (text name : String) : Prop :=
  IsLabel name ∧ (name ∈ operands text ∨ "[" ++ name ++ "]" ∈ operands text)

/-- Tells whether a source is accepted. -/
structure Accepted (source : String) : Prop where
  /-- Every line is in the grammar. -/
  grammar : ∀ text ∈ lines source, IsLine (tokens text)
  /-- No label is defined on two lines. -/
  unique : (lines source).Pairwise fun s t => ∀ name, Defines s name → ¬Defines t name
  /-- Every label that is used is defined. -/
  defined : ∀ s ∈ lines source, ∀ name, Uses s name → ∃ t ∈ lines source, Defines t name

/-- A line defines the label that its first token names. -/
lemma label?_eq_some_iff_defines {text name : String} :
    label? (tokens text) = some name ↔ Defines text name := by
  rw [label?_eq_some, Defines]
  generalize tokens text = ts
  cases ts with
  | nil => exact ⟨nofun, nofun⟩
  | cons first rest =>
    constructor
    · intro e
      rw [e]
      rfl
    · intro e
      cases e
      rw [body_cons_label]

/-- A token refers to a label if it is the label, with or without brackets. -/
lemma reference?_eq_some {token name : String}
    (clean : ∀ c ∈ token.toList, Text.isBlank c = false) :
    reference? token = some name ↔
      IsLabel name ∧ (token = name ∨ token = "[" ++ name ++ "]") := by
  simp only [reference?, Option.bind_eq_some_iff, toOption_eq_some]
  constructor
  · rintro ⟨o, ok, refers⟩
    rcases Operand.written_of_ofToken clean ok with written | rfl | ⟨_, _, rfl⟩
    · generalize chars : token.toList = cs at written
      obtain rfl : token = String.ofList cs := by rw [← chars, String.ofList_toList]
      cases written with
      | @direct _ d written =>
        cases d with
        | integer | register => cases refers
        | label =>
          cases refers
          obtain ⟨rfl, proper⟩ := written
          rw [← chars] at proper
          exact ⟨isLabelName_iff.1 proper, .inl rfl⟩
      | @indirect inner d written =>
        cases d with
        | integer | register => cases refers
        | label =>
          cases refers
          obtain ⟨rfl, proper⟩ := written
          rw [← String.toList_ofList (l := inner)] at proper
          exact ⟨isLabelName_iff.1 proper, .inr (ofList_brackets inner)⟩
      | offset => cases refers
    · cases refers
    · cases refers
  · rintro ⟨proper, e⟩
    have written : (Direct.label name).Written name.toList :=
      ⟨by rw [String.ofList_toList], isLabelName_iff.2 proper⟩
    rcases e with rfl | rfl
    · exact ⟨_, Operand.ofToken_of_written clean (.direct written), rfl⟩
    · refine ⟨.indirect (.label name), Operand.ofToken_of_written clean ?_, rfl⟩
      rw [toList_brackets]
      exact .indirect written

lemma mem_lineReferences {text name : String} :
    name ∈ lineReferences text ↔ Uses text name := by
  have clean : ∀ t ∈ operands text, ∀ c ∈ t.toList, Text.isBlank c = false :=
    fun t => isBlank_of_mem_operands
  rw [lineReferences, List.mem_filterMap, Uses]
  constructor
  · rintro ⟨token, mem, refers⟩
    obtain ⟨proper, rfl | rfl⟩ := (reference?_eq_some (clean _ mem)).1 refers
    · exact ⟨proper, .inl mem⟩
    · exact ⟨proper, .inr mem⟩
  · rintro ⟨proper, mem | mem⟩
    · exact ⟨_, mem, (reference?_eq_some (clean _ mem)).2 ⟨proper, .inl rfl⟩⟩
    · exact ⟨_, mem, (reference?_eq_some (clean _ mem)).2 ⟨proper, .inr rfl⟩⟩

/-- No label is defined twice if no two lines define the same one. -/
lemma nodup_labels_iff {texts : List String} :
    (labelsOf texts).Nodup ↔
      texts.Pairwise fun s t => ∀ name, Defines s name → ¬Defines t name := by
  rw [labelsOf, List.Nodup, List.pairwise_filterMap]
  simp only [label?_eq_some_iff_defines]
  refine ⟨fun h => h.imp ?_, fun h => h.imp ?_⟩
  · exact fun distinct name first second => distinct name first name second rfl
  · rintro s t once name first _ second rfl
    exact once name first second

end Source

open Source (Accepted Defines Uses)

namespace Entry

/-- Lines can be read exactly if all of them are in the grammar. -/
lemma readFrom_isOk_iff {number : Nat} {texts : List String} :
    (∃ es, readFrom number texts = .ok es) ↔ ∀ text ∈ texts, IsLine (tokens text) := by
  induction texts generalizing number with
  | nil => exact ⟨fun _ => nofun, fun _ => ⟨[], rfl⟩⟩
  | cons text texts ih =>
    rw [List.forall_mem_cons, @isLine_iff number text, ← @ih (number + 1)]
    simp only [readFrom_cons_eq_ok]
    constructor
    · rintro ⟨_, e, es, first, rest, _⟩
      exact ⟨⟨e, first⟩, es, rest⟩
    · rintro ⟨⟨e, first⟩, es, rest⟩
      exact ⟨_, e, es, first, rest, rfl⟩

/-- The instructions of lines can be resolved exactly if every label that is used is defined. -/
lemma resolveAll_isOk_iff {number : Nat} {texts : List String} {es : List Entry}
    (read : readFrom number texts = .ok es) (address : Nat) :
    (∃ js, Instruction.resolveAll (instructions es) (addresses address es) = .ok js) ↔
      ∀ s ∈ texts, ∀ name, Uses s name → ∃ t ∈ texts, Defines t name := by
  rw [Instruction.resolveAll_isOk, located_of_readFrom read, names_addresses,
    labels_of_readFrom read]
  simp only [Prod.forall, Source.mem_referencesFrom, Source.labelsOf, List.mem_filterMap,
    Source.mem_lineReferences, Source.label?_eq_some_iff_defines]
  constructor
  · intro h s mem name uses
    obtain ⟨n, line⟩ := List.mem_iff_getElem?.1 mem
    exact h _ name ⟨n, s, line, rfl, uses⟩
  · rintro h _ name ⟨n, s, line, _, uses⟩
    exact h s (List.mem_of_getElem? line) name uses

end Entry

/-- A source is assembled exactly if it is accepted. -/
theorem assemble_isOk_iff_accepted (source : String) :
    (∃ p, assemble source = .ok p) ↔ Accepted source := by
  simp only [assemble_eq_ok]
  constructor
  · rintro ⟨p, es, read, nodup, resolved, _⟩
    rw [Entry.labels_of_readFrom read] at nodup
    exact ⟨Entry.readFrom_isOk_iff.1 ⟨es, read⟩, Source.nodup_labels_iff.1 nodup,
      (Entry.resolveAll_isOk_iff read 0).1 ⟨_, resolved⟩⟩
  · rintro ⟨grammar, unique, defined⟩
    obtain ⟨es, read⟩ := Entry.readFrom_isOk_iff.2 grammar
    obtain ⟨js, resolved⟩ := (Entry.resolveAll_isOk_iff read 0).2 defined
    refine ⟨⟨js, _⟩, es, read, ?_, resolved, rfl⟩
    rw [Entry.labels_of_readFrom read]
    exact Source.nodup_labels_iff.2 unique

end Dcpu
