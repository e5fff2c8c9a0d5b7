import Dcpu.Proofs.Assembling

/-!
# The labels of a source

The labels that the lines of a source define (`Source.labels`) and those to which their operands
refer (`Source.references`), read off the tokens. The entries of the lines define the same labels
(`Entry.labels_of_readFrom`) and the instructions have the same references, in the same order and
with the same places (`Entry.located_of_readFrom`).
-/

namespace Dcpu
open Results
open Source (Operand tokens body label?)

namespace Source

/-- The label to which a token refers. -/
def reference? (token : String) : Option String :=
  (Operand.ofToken token).toOption.bind Operand.label?

/-- The labels to which the operands on a line refer, in their order. -/
def lineReferences (text : String) : List String :=
  (operands text).filterMap reference?

/-- The labels to which lines refer, each with its place, if the first line has a number. -/
def referencesFrom (number : Nat) (texts : List String) : List (Location × String) :=
  (texts.zipIdx number).flatMap fun line =>
    (lineReferences line.1).map fun name => (.ofLine line.2 line.1, name)

/-- The labels to which the lines of a source refer, each with its place. -/
def references (source : String) : List (Location × String) :=
  referencesFrom 1 (lines source)

/-- The labels that lines define. -/
def labelsOf (texts : List String) : List String :=
  texts.filterMap fun text => label? (tokens text)

/-- The labels that the lines of a source define. -/
def labels (source : String) : List String :=
  labelsOf (lines source)

/-- A reference stands on one of the lines. -/
lemma mem_referencesFrom {number : Nat} {texts : List String} {location : Location}
    {name : String} :
    (location, name) ∈ referencesFrom number texts ↔
      ∃ n text, texts[n]? = some text ∧ location = .ofLine (number + n) text ∧
        name ∈ lineReferences text := by
  simp only [referencesFrom, List.mem_flatMap, List.mem_map, Prod.mk.injEq, Prod.exists]
  constructor
  · rintro ⟨text, m, line, _, mem, rfl, rfl⟩
    obtain ⟨le, line⟩ := List.mk_mem_zipIdx_iff_le_and_getElem?_sub.1 line
    exact ⟨m - number, text, line, by rw [Nat.add_sub_cancel' le], mem⟩
  · rintro ⟨n, text, line, rfl, mem⟩
    exact ⟨text, number + n, List.mk_add_mem_zipIdx_iff_getElem?.2 line, name, mem, rfl, rfl⟩

end Source

open Source (lineReferences referencesFrom)

lemma Statement.filterMap_label?_slots (st : Statement) :
    st.slots.filterMap Slot.label? = st.operands.filterMap Operand.label? := by
  rw [slots, List.filterMap_filterMap]
  simp only [Operand.label?_slot?]

/-- A statement on a line refers to the labels of the operands on the line. -/
lemma Statement.lineReferences_eq {text : String} {st : Statement}
    (read : ofTokens? (body (tokens text)) = some st) :
    lineReferences text = st.operands.filterMap Operand.label? := by
  rw [← List.forall₂_eq_eq_eq]
  refine List.rel_filterMap ?_ (parts_of_ofTokens? read).2
  intro token o ok
  rw [Source.reference?, ok]
  change Option.Rel _ o.label? o.label?
  cases o.label? with
  | none => exact .none
  | some name => exact .some rfl

namespace Entry

/-- The instruction of a line refers to the labels of the operands on the line. -/
lemma located_of_read {number : Nat} {text : String} {e : Entry}
    (ok : read number text = .ok e) :
    e.instruction.toList.flatMap Instruction.located =
      (lineReferences text).map fun name => (.ofLine number text, name) := by
  obtain ⟨_, _, ⟨empty, absent⟩ | ⟨st, i, statement, built, present⟩⟩ := read_eq_ok.1 ok
  · rw [absent, lineReferences, Source.operands, empty]
    rfl
  · obtain ⟨fields, _, rfl⟩ := Option.map_eq_some_iff.1 built
    rw [present, Option.toList_some, List.flatMap_singleton, Statement.lineReferences_eq statement,
      ← st.filterMap_label?_slots]
    rfl

/-- The instructions of lines refer to the labels of the operands on the lines, in their order. -/
lemma located_of_readFrom {number : Nat} {texts : List String} {es : List Entry}
    (ok : readFrom number texts = .ok es) :
    (instructions es).flatMap Instruction.located = referencesFrom number texts := by
  induction texts generalizing number es with
  | nil =>
    cases ok
    rfl
  | cons text texts ih =>
    obtain ⟨e, es, first, rest, rfl⟩ := readFrom_cons_eq_ok.1 ok
    unfold referencesFrom at ih ⊢
    rw [List.zipIdx_cons, List.flatMap_cons, ← ih rest, ← located_of_read first, instructions]
    cases instruction : e.instruction <;> simp [instruction, instructions]

lemma labels_of_readFrom {number : Nat} {texts : List String} {es : List Entry}
    (ok : readFrom number texts = .ok es) : labels es = Source.labelsOf texts := by
  induction texts generalizing number es with
  | nil =>
    cases ok
    rfl
  | cons text texts ih =>
    obtain ⟨e, es, first, rest, rfl⟩ := readFrom_cons_eq_ok.1 ok
    unfold Source.labelsOf at ih ⊢
    rw [List.filterMap_cons, ← ih rest, ← label_of_read first]
    rfl

end Entry

end Dcpu
