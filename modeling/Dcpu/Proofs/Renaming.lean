import Dcpu.Proofs.Acceptance
import Dcpu.Proofs.Layout

/-!
# Renaming labels

The names of labels are only names. If an injective map renames all labels in a source, where they
are defined and where they are used, the words stay what they are and the label table has the new
names.

The map is given on the names that labels can have, and all other texts stay as they are
(`renamed`), so it is injective on texts. Each step of the first pass commutes with it: a renamed
operand is read as an operand with another label (`RenamesOperand.reads`), the label table finds a
renamed label exactly where it found the old one (`LabelTable.rename_define`), and so the scans of
the two sources stay related line by line (`Scan.Renames.run`). The second pass then fills in the
same addresses (`Instruction.rename_resolveAll`).
-/

namespace Dcpu
open Results
open Source (Line Operand IsLabel IsNumbered lines tokens)

namespace Source

instance (name : String) : Decidable (IsLabel name) :=
  decidable_of_iff _ isLabelName_iff

/-- The names that labels can have. -/
abbrev LabelName := { name : String // IsLabel name }

/-- Relates the token of an operand to the token in which the label is renamed. -/
inductive RenamesOperand (f : LabelName → LabelName) : String → String → Prop where
  | label (l : LabelName) : RenamesOperand f l.1 (f l).1
  | indirect (l : LabelName) : RenamesOperand f ("[" ++ l.1 ++ "]") ("[" ++ (f l).1 ++ "]")
  | other {token : String} (direct : ¬IsLabel token)
      (indirect : ∀ l : LabelName, token ≠ "[" ++ l.1 ++ "]") : RenamesOperand f token token

/-- Relates a mnemonic and its operands to the same mnemonic and the renamed operands. -/
inductive RenamesStatement (f : LabelName → LabelName) : List String → List String → Prop where
  | empty : RenamesStatement f [] []
  | statement {mnemonic : String} {ts us : List String}
      (operands : List.Forall₂ (RenamesOperand f) ts us) :
      RenamesStatement f (mnemonic :: ts) (mnemonic :: us)

/-- Relates the tokens of a line to those in which all labels are renamed. -/
inductive RenamesLine (f : LabelName → LabelName) : List String → List String → Prop where
  | labelled (l : LabelName) {ts us : List String} (rest : RenamesStatement f ts us) :
      RenamesLine f ((":" ++ l.1) :: ts) ((":" ++ (f l).1) :: us)
  | mislabelled {name : String} {ts us : List String} (improper : ¬IsLabel name)
      (rest : RenamesStatement f ts us) : RenamesLine f ((":" ++ name) :: ts) ((":" ++ name) :: us)
  | unlabelled {ts us : List String} (plain : ∀ name, ts.head? ≠ some (":" ++ name))
      (rest : RenamesStatement f ts us) : RenamesLine f ts us

/-- The map that renames labels and leaves other texts as they are. -/
def renamed (f : LabelName → LabelName) (text : String) : String :=
  if proper : IsLabel text then (f ⟨text, proper⟩).1 else text

/-- A label gets its new name. -/
lemma renamed_label (f : LabelName → LabelName) (l : LabelName) : renamed f l.1 = (f l).1 :=
  dif_pos l.2

/-- What is no label keeps its text. -/
lemma renamed_other (f : LabelName → LabelName) {text : String} (improper : ¬IsLabel text) :
    renamed f text = text :=
  dif_neg improper

/-- Different texts stay different if different labels do. -/
lemma renamed_injective {f : LabelName → LabelName} (inj : Function.Injective f) :
    Function.Injective (renamed f) := by
  intro x y e
  by_cases hx : IsLabel x
  · rw [renamed_label f ⟨x, hx⟩] at e
    by_cases hy : IsLabel y
    · rw [renamed_label f ⟨y, hy⟩] at e
      exact congrArg Subtype.val (inj (Subtype.ext e))
    · rw [renamed_other f hy] at e
      exact absurd (e ▸ (f ⟨x, hx⟩).2) hy
  · rw [renamed_other f hx] at e
    by_cases hy : IsLabel y
    · rw [renamed_label f ⟨y, hy⟩] at e
      exact absurd (e ▸ (f ⟨y, hy⟩).2) hx
    · rw [renamed_other f hy] at e
      exact e

end Source

open Source (LabelName RenamesOperand RenamesStatement RenamesLine renamed)

/-! ### Renaming in the model -/

/-- The operand with another name for its label. -/
def Source.Operand.rename (g : String → String) : Operand → Operand
  | .direct (.label name) => .direct (.label (g name))
  | .indirect (.label name) => .indirect (.label (g name))
  | operand => operand

/-- The slot with another name for its label. -/
def Slot.rename (g : String → String) : Slot → Slot
  | .reference label => .reference (g label)
  | .literal value => .literal value

/-- The instruction with other names for its labels. -/
def Instruction.rename (g : String → String) (i : Instruction) : Instruction :=
  { i with trailing := i.trailing.map (Slot.rename g) }

/-- The draft with other names for its labels. -/
def Draft.rename (g : String → String) (d : Draft) : Draft :=
  { d with trailing := d.trailing.map (Slot.rename g) }

/-- The definition of another name. -/
def Definition.rename (g : String → String) (d : Definition) : Definition :=
  { d with name := g d.name }

/-- The table with other names. -/
def LabelTable.rename (g : String → String) (table : LabelTable) : LabelTable :=
  .ofDefinitions (table.definitions.map (Definition.rename g))

/-- The same addresses under other names. -/
def Labels.rename (g : String → String) (labels : Labels) : Labels :=
  labels.map (Prod.map g id)

/-- A fault with other labels; the known labels are listed in their own order. -/
def Fault.rename (g : String → String) : Fault → Fault
  | .undefinedLabel label known => .missingLabel (g label) (known.map g)
  | .duplicateLabel label first => .duplicateLabel (g label) first
  | fault => fault

/-- The failure with other names for its labels. -/
def Failure.rename (g : String → String) : Failure → Failure
  | .diagnostic d => .diagnostic { d with fault := d.fault.rename g }
  | failure => failure

variable {g : String → String}

/-- Other labels do not change the numbers in the words for a fault. -/
lemma Fault.isWritable_rename (fault : Fault) : (fault.rename g).isWritable = fault.isWritable := by
  cases fault <;> rfl

/-- A name has no part in whether a fault can be reported. -/
lemma Location.rename_failure (location : Location) (fault : Fault) :
    (location.failure fault).rename g = location.failure (fault.rename g) := by
  unfold failure
  rw [Fault.isWritable_rename]
  split <;> rfl

/-! ### Operands -/

namespace Source

/-- A label has no blanks. -/
lemma isBlank_of_isLabel {name : String} (proper : IsLabel name) :
    ∀ c ∈ name.toList, Text.isBlank c = false := by
  intro c mem
  obtain ⟨low, high⟩ := proper.2 c mem
  rw [Char.le_def, UInt32.le_iff_toNat_le] at low high
  have lower : 0x61 ≤ c.toNat ∧ c.toNat ≤ 0x7a := ⟨low, high⟩
  simp only [Text.isBlank, Text.blankRanges, List.any_cons, List.any_nil, Bool.or_false,
    Bool.or_eq_false_iff, Bool.and_eq_false_iff, decide_eq_false_iff_not]
  omega

/-- A label is read as an operand. -/
lemma Operand.ofToken_label (l : LabelName) : ofToken l.1 = .ok (.direct (.label l.1)) := by
  apply ofToken_of_written (isBlank_of_isLabel l.2)
  exact .direct ⟨by rw [String.ofList_toList], isLabelName_iff.2 l.2⟩

/-- A label between brackets is read as an operand. -/
lemma Operand.ofToken_indirect (l : LabelName) :
    ofToken ("[" ++ l.1 ++ "]") = .ok (.indirect (.label l.1)) := by
  have clean : ∀ c ∈ ("[" ++ l.1 ++ "]").toList, Text.isBlank c = false := by
    intro c mem
    rw [toList_brackets] at mem
    simp only [List.mem_cons, List.mem_append, List.not_mem_nil, or_false] at mem
    rcases mem with rfl | mem | rfl
    · decide
    · exact isBlank_of_isLabel l.2 c mem
    · decide
  apply ofToken_of_written clean
  rw [toList_brackets]
  exact .indirect ⟨by rw [String.ofList_toList], isLabelName_iff.2 l.2⟩

/-- An operand without a label stays as it is. -/
lemma Operand.rename_of_label? {o : Operand} (absent : o.label? = none) : o.rename g = o := by
  match o with
  | .direct (.label _) | .indirect (.label _) => cases absent
  | .direct (.integer _) | .direct (.register _) | .indirect (.integer _)
  | .indirect (.register _) | .offset .. | .invalid _ => rfl

/-- A token is read as the operand of another token with its label renamed. -/
def Reads (g : String → String) (token other : String) : Prop :=
  mapBoth (Failure.rename g) (Operand.rename g) (Operand.ofToken token) = Operand.ofToken other

/-- A token that has been renamed is read as the operand with the other name. -/
lemma RenamesOperand.reads {f : LabelName → LabelName} {token other : String}
    (renames : RenamesOperand f token other)
    (clean : ∀ c ∈ token.toList, Text.isBlank c = false) : Reads (renamed f) token other := by
  cases renames with
  | label l =>
    rw [Reads, Operand.ofToken_label, Operand.ofToken_label, ← renamed_label]
    rfl
  | indirect l =>
    rw [Reads, Operand.ofToken_indirect, Operand.ofToken_indirect, ← renamed_label]
    rfl
  | other direct indirect =>
    rw [Reads]
    cases result : Operand.ofToken token with
    | error e =>
      obtain ⟨⟨n, rfl⟩, _⟩ := Operand.ofToken_eq_error clean result
      rfl
    | ok o =>
      have absent : o.label? = none := by
        rw [Option.eq_none_iff_forall_ne_some]
        intro name refers
        have used : reference? token = some name := by
          rw [reference?, result]
          exact refers
        obtain ⟨proper, rfl | e⟩ := (reference?_eq_some clean).1 used
        · exact direct proper
        · exact indirect ⟨name, proper⟩ e
      exact congrArg Except.ok (Operand.rename_of_label? absent)

end Source

open Source (Reads)

namespace Draft

/-- A value is appended whatever the names are. -/
lemma rename_extend (d : Draft) (value : Int) :
    mapBoth (Failure.rename g) (rename g) (d.extend value) = (d.rename g).extend value := by
  by_cases word : IsWord value
  · rw [extend_of_isWord word, extend_of_isWord word]
    simp [mapBoth, append, rename, Slot.rename]
  · rw [extend_of_not_isWord word, extend_of_not_isWord word]
    exact congrArg Except.error (d.location.rename_failure (.valueRange value))

/-- A value that follows an operand code is appended whatever the names are. -/
lemma rename_extend_map (d : Draft) (value : Int) (code : Nat) :
    mapBoth (Failure.rename g) (Prod.map id (rename g)) ((d.extend value).map (code, ·)) =
      ((d.rename g).extend value).map (code, ·) := by
  rw [← rename_extend]
  cases d.extend value <;> rfl

/-- A reference is appended under the other name. -/
lemma rename_refer (d : Draft) (name : String) :
    (d.refer name).rename g = (d.rename g).refer (g name) := by
  simp [refer, rename, Slot.rename]

/-- An operand is placed under the other name. -/
lemma rename_place (d : Draft) (o : Operand) :
    mapBoth (Failure.rename g) (Prod.map id (rename g)) (d.place o) =
      (d.rename g).place (o.rename g) := by
  have refuse (fault : Fault) :
      mapBoth (Failure.rename g) (Prod.map id (rename g))
        (.error (d.location.failure fault) : Except Failure (Nat × Draft)) =
          .error ((d.rename g).location.failure (fault.rename g)) :=
    congrArg Except.error (d.location.rename_failure fault)
  match o with
  | .direct (.integer value) =>
    simp only [place, direct, Operand.rename]
    split
    · rfl
    · exact d.rename_extend_map value _
  | .direct (.register name) =>
    simp only [place, direct, Operand.rename]
    cases Register.ofName? name with
    | none => exact refuse (.unrecognizedOperand name)
    | some r => rfl
  | .direct (.label name) =>
    exact congrArg (Except.ok <| Prod.mk OperandCode.nextWord ·) (d.rename_refer name)
  | .indirect (.integer value) => exact d.rename_extend_map value _
  | .indirect (.register name) =>
    simp only [place, indirect, Operand.rename]
    cases (Register.ofName? name).filter Register.isGeneral with
    | none => exact refuse (.invalidIndirectRegister name)
    | some r => rfl
  | .indirect (.label name) =>
    exact congrArg (Except.ok <| Prod.mk OperandCode.indirectNextWord ·) (d.rename_refer name)
  | .offset text (some value) register =>
    simp only [place, offset, Operand.rename]
    cases Register.ofName? register with
    | none => exact refuse (.malformedIndirectOffset text)
    | some r => exact d.rename_extend_map value _
  | .offset text none register => exact refuse (.malformedIndirectOffset text)
  | .invalid token => exact refuse (.unrecognizedOperand token)

/-- A token is placed under the other name. -/
lemma rename_operand (d : Draft) {token other : String} (reads : Reads g token other) :
    mapBoth (Failure.rename g) (Prod.map id (rename g)) (d.operand token) =
      (d.rename g).operand other := by
  rw [operand_eq, operand_eq, ← reads]
  exact mapBoth_bind fun o _ => d.rename_place o

/-- Two operands are encoded under other names. -/
lemma rename_basic (d : Draft) (op : Operation) {a b a' b' : String} (first : Reads g a a')
    (second : Reads g b b') :
    mapBoth (Failure.rename g) (Instruction.rename g) (d.basic op a b) =
      (d.rename g).basic op a' b' := by
  unfold basic
  rw [← d.rename_operand first]
  apply mapBoth_bind
  rintro ⟨codeA, d⟩ _
  dsimp only [Prod.map_apply, id_eq]
  rw [← d.rename_operand second]
  apply mapBoth_bind
  rintro ⟨codeB, d⟩ _
  rfl

/-- One operand is encoded under another name. -/
lemma rename_extended (d : Draft) (op : Operation) {operand other : String}
    (reads : Reads g operand other) :
    mapBoth (Failure.rename g) (Instruction.rename g) (d.extended op operand) =
      (d.rename g).extended op other := by
  unfold extended
  rw [← d.rename_operand reads]
  apply mapBoth_bind
  rintro ⟨code, d⟩ _
  rfl

end Draft

/-! ### Lines -/

namespace Source

/-- To rename keeps the number of tokens. -/
lemma RenamesStatement.length_eq {f : LabelName → LabelName} {ts us : List String}
    (renames : RenamesStatement f ts us) : us.length = ts.length := by
  cases renames with
  | empty => rfl
  | statement operands => rw [List.length_cons, List.length_cons, operands.length_eq]

namespace Line

/-- Lines with the same mnemonic of which one has the labels of the other renamed. -/
structure Renames (g : String → String) (line other : Line) : Prop where
  location : other.location = line.location
  label : other.label = line.label.map g
  mnemonic : other.mnemonic = line.mnemonic
  operands : List.Forall₂ (Reads g) line.operands other.operands

/-- A statement that has been renamed is read as a line with other names. -/
lemma renames_statement {f : LabelName → LabelName} {ts us : List String}
    (renames : RenamesStatement f ts us)
    (clean : ∀ t ∈ ts, ∀ c ∈ t.toList, Text.isBlank c = false) (location : Location)
    (label : Option String) :
    Renames (renamed f) { statement location ts with label }
      { statement location us with label := label.map (renamed f) } := by
  cases renames with
  | empty => exact ⟨rfl, rfl, rfl, .nil⟩
  | @statement mnemonic ts us operands =>
    refine ⟨rfl, rfl, rfl, ?_⟩
    have both := (List.forall₂_and_left _ _).2
      ⟨fun t mem => clean t (List.mem_cons_of_mem mnemonic mem), operands⟩
    exact both.imp fun t u h => h.2.reads h.1

/-- Lines whose labels are renamed are read alike or have the same fault, which names no label that
has been renamed. -/
lemma renames_ofTokens {f : LabelName → LabelName} {ts us : List String}
    (renames : RenamesLine f ts us) (clean : ∀ t ∈ ts, ∀ c ∈ t.toList, Text.isBlank c = false)
    (location : Location) :
    (∃ line other, ofTokens location ts = .ok line ∧ ofTokens location us = .ok other ∧
        line.Renames (renamed f) other) ∨
      ∃ e, ofTokens location ts = .error e ∧ ofTokens location us = .error e ∧
        e.rename (renamed f) = e := by
  have kept {fault : Fault} (same : fault.rename (renamed f) = fault) :
      (location.failure fault).rename (renamed f) = location.failure fault := by
    rw [Location.rename_failure, same]
  cases renames with
  | @labelled l ts us rest =>
    have count := rest.length_eq
    have part (l : LabelName) : labelPart? (":" ++ l.1) = some l.1.toList :=
      labelPart?_eq_some.2 (by rw [String.ofList_toList])
    have proper (l : LabelName) : isLabelName l.1.toList = true := isLabelName_iff.2 l.2
    have nonempty (l : LabelName) : l.1.toList.isEmpty = false := by
      rw [List.isEmpty_eq_false_iff, ne_eq, String.toList_eq_nil_iff]
      exact l.2.1
    have empty : us.isEmpty = ts.isEmpty := by
      rw [Bool.eq_iff_iff, List.isEmpty_iff_length_eq_zero, List.isEmpty_iff_length_eq_zero, count]
    simp only [ofTokens, part, proper, nonempty, count, empty, String.ofList_toList]
    split
    · exact .inr ⟨_, rfl, rfl, kept rfl⟩
    · refine .inl ⟨_, _, rfl, rfl, ?_⟩
      rw [← renamed_label]
      exact renames_statement rest (fun t mem => clean t (List.mem_cons_of_mem _ mem)) location
        (some l.1)
  | @mislabelled name ts us improper rest =>
    have count := rest.length_eq
    have part : labelPart? (":" ++ name) = some name.toList :=
      labelPart?_eq_some.2 (by rw [String.ofList_toList])
    have wrong : isLabelName name.toList = false := by
      rw [← Bool.not_eq_true, isLabelName_iff]
      exact improper
    have empty : us.isEmpty = ts.isEmpty := by
      rw [Bool.eq_iff_iff, List.isEmpty_iff_length_eq_zero, List.isEmpty_iff_length_eq_zero, count]
    simp only [ofTokens, part, wrong, count, empty]
    split
    · exact .inr ⟨_, rfl, rfl, kept rfl⟩
    · split
      · exact .inr ⟨_, rfl, rfl, kept rfl⟩
      · exact .inr ⟨_, rfl, rfl, kept rfl⟩
  | unlabelled plain rest =>
    have line := renames_statement rest clean location none
    cases rest with
    | empty => exact .inl ⟨_, _, rfl, rfl, line⟩
    | @statement mnemonic ts us operands =>
      have part : labelPart? mnemonic = none := by
        rw [Option.eq_none_iff_forall_ne_some]
        intro name defined
        exact plain _ (congrArg some (labelPart?_eq_some.1 defined))
      simp only [ofTokens, part, operands.length_eq]
      split
      · exact .inl ⟨_, _, rfl, rfl, line⟩
      · exact .inr ⟨_, rfl, rfl, kept rfl⟩

/-- Operands are encoded for an operation under other names. -/
lemma rename_encodeAs (location : Location) (op : Operation) {ts us : List String}
    (operands : List.Forall₂ (Reads g) ts us) :
    mapBoth (Failure.rename g) (Instruction.rename g) (encodeAs location op ts) =
      encodeAs location op us := by
  -- With any other number of operands both lines are refused for that number.
  have refused (format : Format) {as bs : List String} (count : as.length = bs.length) :
      mapBoth (Failure.rename g) (Instruction.rename g) (.error (location.failure
        (.operandCount op.mnemonic format.operandCount as.length))) =
      .error (location.failure (.operandCount op.mnemonic format.operandCount bs.length)) := by
    rw [count]
    exact congrArg Except.error (location.rename_failure _)
  unfold encodeAs
  cases op.format with
  | basic =>
    cases operands with
    | nil => exact refused .basic rfl
    | cons first rest =>
      cases rest with
      | nil => exact refused .basic rfl
      | cons second rest =>
        cases rest with
        | nil => exact Draft.rename_basic _ _ first second
        | cons third rest =>
          exact refused .basic (List.Forall₂.cons first (.cons second (.cons third rest))).length_eq
  | extended =>
    cases operands with
    | nil => exact refused .extended rfl
    | cons first rest =>
      cases rest with
      | nil => exact Draft.rename_extended _ _ first
      | cons second rest =>
        exact refused .extended (List.Forall₂.cons first (.cons second rest)).length_eq

/-- A line is encoded under other names. -/
lemma Renames.encode {line other : Line} (renames : line.Renames g other) :
    mapBoth (Failure.rename g) (Instruction.rename g) line.encode = other.encode := by
  unfold Line.encode
  rw [renames.mnemonic, renames.location]
  cases line.mnemonic.bind Operation.ofMnemonic? with
  | none => exact congrArg Except.error (line.location.rename_failure _)
  | some op => exact rename_encodeAs _ op renames.operands

end Line

end Source

/-! ### The first pass -/

/-- A label is defined under its other name. -/
lemma LabelTable.rename_define (inj : Function.Injective g) (table : LabelTable) (name : String)
    (address : Int) (location : Location) :
    mapBoth (Failure.rename g) (rename g) (table.define name address location) =
      (table.rename g).define (g name) address location := by
  have found : (table.rename g).find? (g name) = (table.find? name).map (Definition.rename g) := by
    have same : (fun d : Definition => d.name == g name) ∘ Definition.rename g =
        fun d => d.name == name := by
      funext d
      rw [Bool.eq_iff_iff, beq_iff_eq, Function.comp_apply, beq_iff_eq]
      exact inj.eq_iff
    rw [find?, find?, rename, definitions_ofDefinitions, List.find?_map, same]
  rw [define_eq, define_eq, found]
  cases table.find? name with
  | none => simp [mapBoth, rename, Definition.rename]
  | some first => exact congrArg Except.error (location.rename_failure (.duplicateLabel name _))

namespace Scan

/-- Scans of which one has the labels of the other renamed. -/
structure Renames (g : String → String) (s t : Scan) : Prop where
  table : t.table = s.table.rename g
  instructions : t.instructions.toList = s.instructions.toList.map (Instruction.rename g)
  address : t.address = s.address

/-- Scans and their failures of which one has the labels of the other renamed. -/
structure RenamesBoth (g : String → String) (r q : Scan × Option Failure) : Prop where
  state : r.1.Renames g q.1
  failure : q.2 = r.2.map (Failure.rename g)

namespace Renames

variable {s t : Scan}

/-- A scan takes the label of a line under its other name. -/
lemma define (states : s.Renames g t) (inj : Function.Injective g) {line other : Line}
    (renames : line.Renames g other) : RenamesBoth g (s.define line) (t.define other) := by
  unfold Scan.define
  rw [renames.label]
  cases line.label with
  | none => exact ⟨states, rfl⟩
  | some name =>
    simp only [Option.map_some, states.table, states.address, renames.location]
    rw [← LabelTable.rename_define inj]
    cases s.table.define name s.address line.location with
    | error e => exact ⟨states, rfl⟩
    | ok table => exact ⟨⟨rfl, states.instructions, rfl⟩, rfl⟩

/-- A scan takes the instruction of a line under other names. -/
lemma encode (states : s.Renames g t) {line other : Line} (renames : line.Renames g other) :
    RenamesBoth g (s.encode line) (t.encode other) := by
  unfold Scan.encode
  rw [renames.mnemonic]
  cases line.mnemonic with
  | none => exact ⟨states, rfl⟩
  | some mnemonic =>
    dsimp only
    rw [← renames.encode]
    cases line.encode with
    | error e => exact ⟨states, rfl⟩
    | ok i =>
      refine ⟨⟨states.table, ?_, ?_⟩, rfl⟩
      · simp [mapBoth, emit, record, states.instructions]
      · simp [mapBoth, emit, record, states.address, Instruction.rename, Instruction.size]

/-- A scan takes the tokens of a line under other names. -/
lemma tokenLine {f : LabelName → LabelName} (states : s.Renames (renamed f) t)
    (inj : Function.Injective f) {ts us : List String} (renames : RenamesLine f ts us)
    (clean : ∀ t ∈ ts, ∀ c ∈ t.toList, Text.isBlank c = false) :
    RenamesBoth (renamed f) (s.tokenLine {} ts) (t.tokenLine {} us) := by
  unfold Scan.tokenLine
  rcases Line.renames_ofTokens renames clean {} with
    ⟨line, other, left, right, lines⟩ | ⟨e, left, right, same⟩
  · rw [left, right]
    have defined := states.define (Source.renamed_injective inj) lines
    dsimp only
    generalize s.define line = r at defined ⊢
    generalize t.define other = q at defined ⊢
    obtain ⟨s', e⟩ := r
    obtain ⟨t', e'⟩ := q
    obtain ⟨next, failure⟩ := defined
    cases e with
    | none =>
      cases failure
      exact next.encode lines
    | some e =>
      cases failure
      exact ⟨next, rfl⟩
  · rw [left, right]
    exact ⟨states, congrArg some same.symm⟩

/-- Scans of lines whose labels are renamed stay related up to the end or up to the same fault. -/
lemma run {f : LabelName → LabelName} (states : s.Renames (renamed f) t)
    (inj : Function.Injective f) {tss uss : List (List String)}
    (renames : List.Forall₂ (RenamesLine f) tss uss)
    (clean : ∀ ts ∈ tss, ∀ t ∈ ts, ∀ c ∈ t.toList, Text.isBlank c = false) :
    RenamesBoth (renamed f) (s.runTokens tss) (t.runTokens uss) := by
  induction renames generalizing s t with
  | nil => exact ⟨states, rfl⟩
  | @cons ts us tss uss first _ ih =>
    rw [runTokens, runTokens]
    have scanned := states.tokenLine inj first (clean ts List.mem_cons_self)
    generalize s.tokenLine {} ts = r at scanned ⊢
    generalize t.tokenLine {} us = q at scanned ⊢
    obtain ⟨s', e⟩ := r
    obtain ⟨t', e'⟩ := q
    obtain ⟨next, failure⟩ := scanned
    cases e with
    | none =>
      cases failure
      exact ih next fun ts mem => clean ts (List.mem_cons_of_mem _ mem)
    | some e =>
      cases failure
      exact ⟨next, rfl⟩

end Renames

end Scan

/-! ### The second pass -/

namespace Fault

/-- Sorted names depend only on which names there are. -/
lemma missingLabel_of_perm {names others : List String} (same : names.Perm others)
    (label : String) : missingLabel label names = missingLabel label others := by
  apply congrArg (undefinedLabel label)
  apply eq_mergeSort_iff.2
  exact ⟨(List.mergeSort_perm _ _).trans same, pairwise_mergeSort names⟩

/-- A missing label is reported under its other name. -/
lemma rename_missingLabel (label : String) (names : List String) :
    (missingLabel label names).rename g = missingLabel (g label) (names.map g) := by
  apply missingLabel_of_perm
  exact (List.mergeSort_perm _ _).map g

end Fault

namespace Labels

/-- The names are the other names. -/
lemma names_rename (labels : Labels) : (labels.rename g).names = labels.names.map g := by
  rw [names, names, rename, List.map_map, List.map_map]
  rfl

/-- An address is found under the other name. -/
lemma get?_rename (inj : Function.Injective g) (labels : Labels) (name : String) :
    (labels.rename g).get? (g name) = labels.get? name := by
  induction labels with
  | nil => rfl
  | cons l labels ih =>
    have same : (g name == g l.1) = (name == l.1) := by
      rw [Bool.eq_iff_iff, beq_iff_eq, beq_iff_eq]
      exact inj.eq_iff
    rw [rename, get?] at ih ⊢
    rw [get?] at ih ⊢
    rw [List.map_cons, Prod.map, List.lookup_cons, List.lookup_cons, ih, same]
    rfl

end Labels

/-- A table gives its addresses under the other names. -/
lemma LabelTable.labels_rename (table : LabelTable) :
    (table.rename g).labels = table.labels.rename g := by
  rw [labels_eq, labels_eq, rename, definitions_ofDefinitions, Labels.rename, List.map_map,
    List.map_map]
  rfl

/-- A slot is resolved under the other names. -/
lemma Slot.rename_resolve (inj : Function.Injective g) (labels : Labels) (slot : Slot) :
    mapBoth g id (slot.resolve labels) = (slot.rename g).resolve (labels.rename g) := by
  cases slot with
  | literal value => rfl
  | reference label =>
    rw [rename, resolve, resolve, Labels.get?_rename inj]
    cases labels.get? label <;> rfl

namespace Instruction

/-- An instruction is resolved under the other names. -/
lemma rename_resolve (inj : Function.Injective g) (labels : Labels) (i : Instruction) :
    mapBoth (Failure.rename g) id (i.resolve labels) =
      (i.rename g).resolve (labels.rename g) := by
  have slots : mapBoth g id (i.trailing.mapM (Slot.resolve labels)) =
      (i.rename g).trailing.mapM (Slot.resolve (labels.rename g)) := by
    rw [rename, ← mapBoth_mapM fun slot _ => Slot.rename_resolve inj labels slot, List.map_id_fun]
  rw [resolve_eq, resolve_eq, ← slots, Labels.names_rename]
  cases i.trailing.mapM (Slot.resolve labels) with
  | ok trailing => rfl
  | error label =>
    refine congrArg Except.error ((i.location.rename_failure _).trans ?_)
    rw [Fault.rename_missingLabel]
    rfl

/-- Renamed instructions are resolved to the same instructions under the renamed labels. -/
lemma rename_resolveAll (inj : Function.Injective g) (is : List Instruction) (labels : Labels) :
    mapBoth (Failure.rename g) id (resolveAll is labels) =
      resolveAll (is.map (rename g)) (labels.rename g) := by
  rw [resolveAll, resolveAll, ← mapBoth_mapM fun i _ => rename_resolve inj labels i,
    List.map_id_fun]

end Instruction

/-! ### Two sources -/

/-- The program with other names for its labels. -/
def Program.rename (g : String → String) (p : Program) : Program :=
  { p with labels := p.labels.rename g }

/-- The tokens of a source are assembled under other names. -/
lemma rename_assembleTokens {f : LabelName → LabelName} (inj : Function.Injective f)
    {tss uss : List (List String)} (renames : List.Forall₂ (RenamesLine f) tss uss)
    (clean : ∀ ts ∈ tss, ∀ t ∈ ts, ∀ c ∈ t.toList, Text.isBlank c = false) :
    mapBoth (Failure.rename (renamed f)) (Program.rename (renamed f)) (assembleTokens tss) =
      assembleTokens uss := by
  have start : Scan.Renames (renamed f) {} {} := ⟨rfl, rfl, rfl⟩
  have scanned := start.run inj renames clean
  unfold assembleTokens
  generalize Scan.runTokens {} tss = r at scanned ⊢
  generalize Scan.runTokens {} uss = q at scanned ⊢
  obtain ⟨s, e⟩ := r
  obtain ⟨t, e'⟩ := q
  obtain ⟨states, failure⟩ := scanned
  cases e with
  | some e =>
    cases failure
    rfl
  | none =>
    cases failure
    dsimp only
    rw [states.instructions, states.table, LabelTable.labels_rename,
      ← Instruction.rename_resolveAll (Source.renamed_injective inj)]
    cases Instruction.resolveAll s.instructions.toList s.table.labels <;> rfl

/-- The labels of an assembled program have proper names. -/
lemma isLabel_of_assemble {source : String} {p : Program} (ok : assemble source = .ok p) :
    ∀ name ∈ p.labels.names, IsLabel name := by
  obtain ⟨es, read, _, _, labels⟩ := assemble_eq_ok.1 ok
  intro name mem
  rw [labels, Entry.names_addresses] at mem
  obtain ⟨e, member, defined⟩ := List.mem_filterMap.1 mem
  obtain ⟨⟨text, number⟩, _, first⟩ := exists_of_mem_right (mapM_eq_ok.1 read) member
  have label := Entry.label_of_read first
  obtain ⟨shape, _, _⟩ := Entry.read_eq_ok.1 first
  rw [defined] at label
  exact Source.isLabelName_iff.1 (shape.1 name label.symm)

/-- Programs that have the same words at the same addresses, and of which one has the labels of the
other renamed. -/
structure Program.Renames (f : LabelName → LabelName) (p q : Program) : Prop
    extends p.SameWords q where
  labels : List.Forall₂ (fun x y => ∃ l : LabelName, x.1 = l.1 ∧ y.1 = (f l).1 ∧ y.2 = x.2)
    p.labels q.labels

/-- Labels with other names are related one by one to the labels before. -/
lemma Labels.forall₂_rename (f : LabelName → LabelName) {labels : Labels}
    (proper : ∀ name ∈ labels.names, IsLabel name) :
    List.Forall₂ (fun x y => ∃ l : LabelName, x.1 = l.1 ∧ y.1 = (f l).1 ∧ y.2 = x.2)
      labels (labels.rename (renamed f)) := by
  rw [rename, List.forall₂_map_right_iff, List.forall₂_same]
  intro x mem
  have isLabel := proper x.1 (List.mem_map_of_mem mem)
  exact ⟨⟨x.1, isLabel⟩, rfl, Source.renamed_label f ⟨x.1, isLabel⟩, rfl⟩

/-- If an injective map renames all labels of a source, the two sources are both assembled, to the
same words and to label tables that differ in the names only, or both fail for the same cause. -/
theorem assemble_renamed {f : LabelName → LabelName} (inj : Function.Injective f) {s t : String}
    (renames : List.Forall₂ (RenamesLine f) ((lines s).map tokens) ((lines t).map tokens))
    (numbered : IsNumbered s) :
    (∃ p q, assemble s = .ok p ∧ assemble t = .ok q ∧ p.Renames f q) ∨
      ∃ e e', assemble s = .error e ∧ assemble t = .error e' ∧
        e'.erase = e.erase.rename (renamed f) := by
  have clean : ∀ ts ∈ (lines s).map tokens, ∀ t ∈ ts, ∀ c ∈ t.toList, Text.isBlank c = false := by
    intro ts mem token member
    obtain ⟨text, _, rfl⟩ := List.mem_map.1 mem
    exact Source.isBlank_of_mem_tokens member
  have count : (lines t).length = (lines s).length := by
    have length := renames.length_eq
    rwa [List.length_map, List.length_map, eq_comm] at length
  have other : IsNumbered t := by rwa [IsNumbered, count]
  have both := rename_assembleTokens inj renames clean
  rw [← erase_assemble_lines numbered, ← erase_assemble_lines other] at both
  cases left : assemble s with
  | error e =>
    cases right : assemble t with
    | error e' =>
      rw [left, right] at both
      exact .inr ⟨e, e', rfl, rfl, (Except.error.inj both).symm⟩
    | ok q =>
      rw [left, right] at both
      cases both
  | ok p =>
    cases right : assemble t with
    | error e' =>
      rw [left, right] at both
      cases both
    | ok q =>
      rw [left, right] at both
      have same := Except.ok.inj both
      have labels : p.labels.rename (renamed f) = q.labels := congrArg Program.labels same
      refine .inl ⟨p, q, rfl, rfl, ?_, ?_⟩
      · exact sameWords_of_erase left right (congrArg Program.instructions same)
      · rw [← labels]
        exact Labels.forall₂_rename f (isLabel_of_assemble left)

/-- Two labels that exchange their names. One of them is used between brackets before it is
defined. -/
theorem assemble_renamed_swap :
    let first : LabelName := ⟨"loop", by decide⟩
    let last : LabelName := ⟨"end", by decide⟩
    let f : LabelName → LabelName := Equiv.swap first last
    let s := ":loop SET A, [end]\n:end SET PC, loop\n"
    let t := ":end SET A, [loop]\n:loop SET PC, end\n"
    Function.Injective f ∧
      List.Forall₂ (RenamesLine f) ((lines s).map tokens) ((lines t).map tokens) ∧
      IsNumbered s ∧
      ((∃ p q, assemble s = .ok p ∧ assemble t = .ok q ∧ p.Renames f q) ∨
        ∃ e e', assemble s = .error e ∧ assemble t = .error e' ∧
          e'.erase = e.erase.rename (renamed f)) := by
  intro first last f s t
  have inj : Function.Injective f := (Equiv.swap first last).injective
  have left : f first = last := Equiv.swap_apply_left first last
  have right : f last = first := Equiv.swap_apply_right first last
  have register {name : String} (head : name.toList.head? ≠ some '[') (other : ¬IsLabel name) :
      RenamesOperand f name name := by
    refine .other other fun l e => head ?_
    rw [e, Source.toList_brackets]
    rfl
  have tokensLeft : (lines s).map tokens =
      [[":" ++ first.1, "SET", "A", "[" ++ last.1 ++ "]"],
        [":" ++ last.1, "SET", "PC", first.1]] := by
    decide +kernel
  have tokensRight : (lines t).map tokens =
      [[":" ++ (f first).1, "SET", "A", "[" ++ (f last).1 ++ "]"],
        [":" ++ (f last).1, "SET", "PC", (f first).1]] := by
    rw [left, right]
    decide +kernel
  have renames : List.Forall₂ (RenamesLine f) ((lines s).map tokens) ((lines t).map tokens) := by
    rw [tokensLeft, tokensRight]
    refine .cons (.labelled first (.statement (.cons ?_ (.cons (.indirect last) .nil))))
      (.cons (.labelled last (.statement (.cons ?_ (.cons (.label first) .nil)))) .nil)
    · exact register (by decide) (by decide)
    · exact register (by decide) (by decide)
  have numbered : IsNumbered s := by decide +kernel
  exact ⟨inj, renames, numbered, assemble_renamed inj renames numbered⟩

end Dcpu
