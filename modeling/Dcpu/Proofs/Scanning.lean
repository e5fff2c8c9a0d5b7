import Dcpu.Assembly.Scan
import Dcpu.Proofs.Definitions
import Dcpu.Proofs.Encoding

/-!
# What a scan does

An entry is a line that has been read: its parts and the instruction they denote. Reading a line
(`Entry.read`) does not depend on the state of a scan; what the state adds is the address of the
label and the check that the label is new. So a line is scanned exactly if it can be read and its
label is new, and then its entry is added to the state (`line_eq_none`). A run over many lines adds
their entries one after the other (`run_eq_none`).

What a run leaves behind is computed from the entries: the instructions in their order, the sum of
their sizes and the definitions of the labels, each at the sum of the sizes before it. A run that
fails stops at the first line that cannot be scanned (`run_eq_some`). `LineFails` lists why a line
is not scanned and what it leaves then; its failure is a fault of that line or a number in it that
is too long (`line_eq_some`).
-/

namespace Dcpu
open Results
open Source (Line Operand tokens label? body IsShaped)

/-- The place of a line with a number and a text. -/
def Location.ofLine (number : Nat) (text : String) : Location where
  line := some number
  text := some text

namespace Text

/-- A number can be written if it is below the power of ten with as many zeros as there are
digits. -/
lemma isWritable_natCast {n : Nat} : isWritable n = true ↔ n < 10 ^ digitLimit := by
  unfold isWritable
  -- With a variable for the limit the power is not evaluated.
  generalize digitLimit = limit
  exact decide_eq_true_iff

/-- A smaller number has no more digits. -/
lemma isWritable_of_le {m n : Nat} (le : m ≤ n) (written : isWritable n = true) :
    isWritable m = true :=
  isWritable_natCast.2 (Nat.lt_of_le_of_lt le (isWritable_natCast.1 written))

end Text

/-- Tells whether the numbers of all lines of a source can be written. -/
def Source.IsNumbered (source : String) : Prop :=
  (Source.lines source).length < 10 ^ Text.digitLimit

instance (source : String) : Decidable (Source.IsNumbered source) :=
  inferInstanceAs (Decidable (_ < _))

/-- A line that has been read. -/
structure Entry where
  line : Line
  instruction : Option Instruction
  deriving DecidableEq, Repr

/-- The instruction on a line that may have none. -/
def Source.Line.instruction (line : Line) : Except Failure (Option Instruction) :=
  match line.mnemonic with
  | none => .ok none
  | some _ => line.encode.map some

namespace Entry

/-- Reads a line with a number. -/
def read (number : Nat) (text : String) : Except Failure Entry := do
  let line ← Line.parse text (some number)
  let instruction ← line.instruction
  return { line, instruction }

/-- Reads lines of which the first has a number. -/
def readFrom (number : Nat) (texts : List String) : Except Failure (List Entry) :=
  (texts.zipIdx number).mapM fun (text, number) => read number text

/-- The number of words of the instruction on a line. -/
def size (e : Entry) : Nat :=
  (e.instruction.map Instruction.size).getD 0

/-- The definition of the label of a line, if the line stands at an address. -/
def definition? (address : Nat) (e : Entry) : Option Definition :=
  e.line.label.map fun name => { name, address, line := e.line.location.line }

/-- The labels of lines. -/
def labels (es : List Entry) : List String :=
  es.filterMap (·.line.label)

/-- The instructions of lines. -/
def instructions (es : List Entry) : List Instruction :=
  es.filterMap (·.instruction)

/-- Tells whether the labels of lines are defined once and are not among the names that are defined
already. -/
def Fresh (names : List String) (es : List Entry) : Prop :=
  (labels es).Nodup ∧ ∀ name ∈ labels es, name ∉ names

/-- The definitions of the labels of lines of which the first stands at an address. -/
def definitions (address : Nat) : List Entry → List Definition
  | [] => []
  | e :: es => (e.definition? address).toList ++ definitions (address + e.size) es

end Entry

/-! ### Reading a line -/

namespace Source.Line

lemma parse_eq (number : Nat) (text : String) :
    parse text (some number) = ofTokens (.ofLine number text) (tokens text) :=
  rfl

lemma location_of_parse {number : Nat} {text : String} {line : Line}
    (parsed : parse text (some number) = .ok line) : line.location = .ofLine number text := by
  rw [parse_eq] at parsed
  obtain ⟨_, rfl⟩ := ofTokens_eq_ok.1 parsed
  rfl

/-- A line has no instruction if it has no mnemonic, and otherwise the one it is encoded to. -/
lemma instruction_eq_ok {line : Line} {o : Option Instruction} :
    line.instruction = .ok o ↔
      line.mnemonic = none ∧ o = none ∨ ∃ i, line.encode = .ok i ∧ o = some i := by
  cases mnemonic : line.mnemonic with
  | none =>
    simp only [instruction, encode, mnemonic]
    constructor
    · intro h
      cases h
      exact .inl ⟨trivial, rfl⟩
    · rintro (⟨_, rfl⟩ | ⟨i, h, _⟩)
      · rfl
      · cases h
  | some name =>
    simp only [instruction, mnemonic, map_eq_ok]
    constructor
    · rintro ⟨i, encoded, rfl⟩
      exact .inr ⟨i, encoded, rfl⟩
    · rintro (⟨h, _⟩ | ⟨i, encoded, rfl⟩)
      · cases h
      · exact ⟨i, encoded, rfl⟩

lemma statement?_ofParts (location : Location) (ts : List String) :
    (ofParts location ts).statement? = Statement.ofTokens? (body ts) := by
  simp only [statement?, ofParts]
  cases body ts <;> rfl

lemma mnemonic_ofParts_eq_none {location : Location} {ts : List String} :
    (ofParts location ts).mnemonic = none ↔ body ts = [] :=
  List.head?_eq_none_iff

end Source.Line

namespace Entry

/-- A line is read exactly if its tokens have the shape of a line and are a label alone or have a
statement that has an instruction. -/
lemma read_eq_ok {number : Nat} {text : String} {e : Entry} :
    read number text = .ok e ↔
      IsShaped (tokens text) ∧ e.line = Line.ofParts (.ofLine number text) (tokens text) ∧
        (body (tokens text) = [] ∧ e.instruction = none ∨
          ∃ st i, Statement.ofTokens? (body (tokens text)) = some st ∧
            st.instruction? (.ofLine number text) = some i ∧ e.instruction = some i) := by
  have built {o : Option Instruction} :
      (Line.ofParts (.ofLine number text) (tokens text)).instruction = .ok o ↔
        body (tokens text) = [] ∧ o = none ∨
          ∃ st i, Statement.ofTokens? (body (tokens text)) = some st ∧
            st.instruction? (.ofLine number text) = some i ∧ o = some i := by
    rw [Line.instruction_eq_ok, Line.mnemonic_ofParts_eq_none]
    simp only [Line.encode_eq_ok, Line.statement?_ofParts]
    refine or_congr Iff.rfl ⟨?_, ?_⟩
    · rintro ⟨i, ⟨st, read, enc⟩, rfl⟩
      exact ⟨st, i, read, enc, rfl⟩
    · rintro ⟨st, i, read, enc, rfl⟩
      exact ⟨i, ⟨st, read, enc⟩, rfl⟩
  simp only [read, bind_eq_ok, Line.parse_eq, Line.ofTokens_eq_ok]
  constructor
  · rintro ⟨_, ⟨shape, rfl⟩, o, read, h⟩
    cases h
    exact ⟨shape, rfl, built.1 read⟩
  · rintro ⟨shape, line, read⟩
    refine ⟨_, ⟨shape, rfl⟩, e.instruction, built.2 read, ?_⟩
    rw [← line]
    rfl

/-- A line is read at its place. -/
lemma location_of_read {number : Nat} {text : String} {e : Entry} (ok : read number text = .ok e) :
    e.line.location = .ofLine number text ∧
      ∀ i ∈ e.instruction, i.location = .ofLine number text := by
  obtain ⟨_, line, code⟩ := read_eq_ok.1 ok
  refine ⟨by rw [line]; rfl, ?_⟩
  intro i mem
  rcases code with ⟨_, absent⟩ | ⟨st, i', _, built, present⟩
  · rw [absent] at mem
    cases mem
  · rw [present] at mem
    cases mem
    obtain ⟨fields, _, rfl⟩ := Option.map_eq_some_iff.1 built
    rfl

lemma label_of_read {number : Nat} {text : String} {e : Entry} (ok : read number text = .ok e) :
    e.line.label = label? (tokens text) := by
  obtain ⟨_, line, _⟩ := read_eq_ok.1 ok
  rw [line]
  rfl

lemma readFrom_cons_eq_ok {number : Nat} {text : String} {texts : List String} {es : List Entry} :
    readFrom number (text :: texts) = .ok es ↔
      ∃ e es', read number text = .ok e ∧ readFrom (number + 1) texts = .ok es' ∧
        es = e :: es' := by
  simp only [readFrom, List.zipIdx_cons, mapM_eq_ok, List.forall₂_cons_left_iff]

/-- Labels are new if the label of the first line is and the others are after it. -/
lemma fresh_cons {names : List String} {e : Entry} {es : List Entry} :
    Fresh names (e :: es) ↔
      (∀ name ∈ e.line.label, name ∉ names) ∧ Fresh (names ++ e.line.label.toList) es := by
  unfold Fresh
  cases label : e.line.label with
  | none => simp [labels, label]
  | some name =>
    simp only [labels, List.filterMap_cons, label, Option.mem_some_iff, forall_eq',
      Option.toList_some, List.mem_append, List.nodup_cons, List.mem_cons, List.not_mem_nil,
      or_false, forall_eq_or_imp, not_or]
    constructor
    · rintro ⟨⟨once, nodup⟩, new, others⟩
      exact ⟨new, nodup, fun n mem => ⟨others n mem, fun h => once (h ▸ mem)⟩⟩
    · rintro ⟨new, nodup, others⟩
      exact ⟨⟨fun mem => (others _ mem).2 rfl, nodup⟩, new, fun n mem => (others n mem).1⟩

end Entry

/-! ### The label table -/

namespace LabelTable

/-- Tells whether the line of every definition can be written, if it is known. -/
def IsWritable (table : LabelTable) : Prop :=
  ∀ d ∈ table.definitions, d.line.all Text.isWritable = true

lemma define_of_not_mem {table : LabelTable} {name : String} (fresh : name ∉ table.names)
    (address : Int) (location : Location) :
    table.define name address location =
      .ok (ofDefinitions (table.definitions ++ [{ name, address, line := location.line }])) :=
  define_of_find?_eq_none (find?_eq_none.2 fresh) address location

/-- A label that is there already cannot be defined again. -/
lemma define_of_mem {table : LabelTable} {name : String} (old : name ∈ table.names)
    (address : Int) (location : Location) :
    ∃ first ∈ table.definitions, table.define name address location =
      .error (location.failure (.duplicateLabel name first.line)) := by
  cases found : table.find? name with
  | none => exact absurd old (find?_eq_none.1 found)
  | some first =>
    refine ⟨first, List.mem_of_find?_eq_some found, ?_⟩
    rw [define_eq, found]

end LabelTable

/-! ### Scanning a line -/

namespace Scan

/-- The state with the label of a line added. -/
def withLabel (s : Scan) (line : Line) : Scan :=
  match line.label with
  | none => s
  | some name =>
    let definition : Definition := { name, address := s.address, line := line.location.line }
    { s with table := .ofDefinitions (s.table.definitions ++ [definition]) }.record
      (.labelDefined name s.address)

/-- The state with the instruction of a line added. -/
def withInstruction (s : Scan) (e : Entry) : Scan :=
  match e.instruction with
  | none => s
  | some i => s.emit (e.line.mnemonic.getD "") e.line.operands i

/-- The state with the label and the instruction of a line added. -/
def add (s : Scan) (e : Entry) : Scan :=
  (s.withLabel e.line).withInstruction e

@[simp]
lemma add_definitions (s : Scan) (e : Entry) :
    (s.add e).table.definitions = s.table.definitions ++ (e.definition? s.address).toList := by
  unfold add withInstruction withLabel Entry.definition?
  cases e.line.label <;> cases e.instruction <;> simp [emit, record]

@[simp]
lemma add_instructions (s : Scan) (e : Entry) :
    (s.add e).instructions.toList = s.instructions.toList ++ e.instruction.toList := by
  unfold add withInstruction withLabel
  cases e.line.label <;> cases e.instruction <;> simp [emit, record]

@[simp]
lemma add_address (s : Scan) (e : Entry) : (s.add e).address = s.address + e.size := by
  unfold add withInstruction withLabel Entry.size
  cases e.line.label <;> cases e.instruction <;> simp [emit, record]

/-- A label is defined exactly if it is new. -/
lemma define_eq_none {s s' : Scan} {line : Line} :
    s.define line = (s', none) ↔
      (∀ name ∈ line.label, name ∉ s.table.names) ∧ s' = s.withLabel line := by
  unfold define withLabel
  cases label : line.label with
  | none => exact ⟨fun h => by cases h; exact ⟨nofun, rfl⟩, fun h => by rw [h.2]⟩
  | some name =>
    by_cases old : name ∈ s.table.names
    · obtain ⟨first, _, dup⟩ := LabelTable.define_of_mem old s.address line.location
      simp only [dup]
      exact ⟨nofun, fun h => absurd old (h.1 name rfl)⟩
    · simp only [LabelTable.define_of_not_mem old]
      constructor
      · intro h
        cases h
        exact ⟨fun _ mem => Option.mem_some.1 mem ▸ old, rfl⟩
      · rintro ⟨_, rfl⟩
        rfl

/-- A label that is not new changes nothing. It is a fault of the line, and the failure tells the
line of a definition. -/
lemma define_eq_some {s s' : Scan} {line : Line} {f : Failure}
    (err : s.define line = (s', some f)) :
    s' = s ∧ (∃ name ∈ line.label, name ∈ s.table.names) ∧
      ((line.location.isWritable = true → s.table.IsWritable) → f.FaultOf line.location) := by
  unfold define at err
  split at err
  · cases err
  · next name label =>
    by_cases old : name ∈ s.table.names
    · obtain ⟨first, mem, dup⟩ := LabelTable.define_of_mem old s.address line.location
      simp only [dup] at err
      cases err
      refine ⟨rfl, ⟨name, label, old⟩, fun written => ?_⟩
      exact ⟨.duplicateLabel name first.line, rfl, nofun, fun place => written place first mem⟩
    · simp only [LabelTable.define_of_not_mem old] at err
      cases err

/-- The instruction of a line is added exactly if it can be encoded. -/
lemma encode_eq_none {s s' : Scan} {line : Line} :
    s.encode line = (s', none) ↔
      ∃ o, line.instruction = .ok o ∧ s' = s.withInstruction ⟨line, o⟩ := by
  unfold encode Line.instruction withInstruction
  cases mnemonic : line.mnemonic with
  | none =>
    constructor
    · intro h
      cases h
      exact ⟨none, rfl, rfl⟩
    · rintro ⟨o, h, rfl⟩
      cases h
      rfl
  | some name =>
    cases line.encode with
    | error f => exact ⟨nofun, nofun⟩
    | ok i =>
      constructor
      · intro h
        cases h
        exact ⟨some i, rfl, by simp only [mnemonic, Option.getD_some]⟩
      · rintro ⟨o, h, rfl⟩
        cases h
        simp only [mnemonic, Option.getD_some]

/-- An instruction that cannot be encoded changes nothing. -/
lemma encode_eq_some {s s' : Scan} {line : Line} {f : Failure}
    (err : s.encode line = (s', some f)) : s' = s ∧ line.encode = .error f := by
  unfold encode at err
  split at err
  · cases err
  · cases encoded : line.encode with
    | error f' =>
      rw [encoded] at err
      cases err
      exact ⟨rfl, rfl⟩
    | ok i =>
      rw [encoded] at err
      cases err

/-- A line is scanned exactly if it can be read and its label is new. -/
lemma line_eq_none {s s' : Scan} {number : Nat} {text : String} :
    s.line number text = (s', none) ↔
      ∃ e, Entry.read number text = .ok e ∧ (∀ name ∈ e.line.label, name ∉ s.table.names) ∧
        s' = s.add e := by
  unfold line
  cases parsed : Line.parse text (some number) with
  | error f =>
    have read {e : Entry} : Entry.read number text ≠ .ok e := by
      rw [Entry.read, parsed]
      exact nofun
    exact ⟨nofun, fun ⟨e, ok, _⟩ => absurd ok read⟩
  | ok l =>
    -- The scan defines the label between the two steps of reading; neither step looks at the state.
    have read {e : Entry} : Entry.read number text = .ok e ↔
        e.line = l ∧ l.instruction = .ok e.instruction := by
      simp only [Entry.read, parsed, bind_eq_ok]
      constructor
      · rintro ⟨_, h, o, built, e⟩
        cases h
        cases e
        exact ⟨rfl, built⟩
      · rintro ⟨rfl, built⟩
        exact ⟨_, rfl, _, built, rfl⟩
    dsimp only
    constructor
    · intro h
      split at h
      · cases h
      · next s₁ defined =>
        obtain ⟨fresh, rfl⟩ := define_eq_none.1 defined
        obtain ⟨o, built, rfl⟩ := encode_eq_none.1 h
        exact ⟨⟨l, o⟩, read.2 ⟨rfl, built⟩, fresh, rfl⟩
    · rintro ⟨e, ok, fresh, rfl⟩
      obtain ⟨rfl, built⟩ := read.1 ok
      simp only [define_eq_none.2 ⟨fresh, rfl⟩]
      exact encode_eq_none.2 ⟨_, built, rfl⟩

/-- The ways in which a line is not scanned, with the state that it leaves: it has not the shape of
a line, its label is defined already, or its instruction cannot be encoded. By then the label is
defined. -/
inductive LineFails (s : Scan) (number : Nat) (text : String) : Scan → Failure → Prop
  | shape {f : Failure} (parsed : Line.parse text (some number) = .error f) :
      LineFails s number text s f
  | label {l : Line} {f : Failure} (parsed : Line.parse text (some number) = .ok l)
      (old : ∃ name ∈ l.label, name ∈ s.table.names)
      (fault : (l.location.isWritable = true → s.table.IsWritable) → f.FaultOf l.location) :
      LineFails s number text s f
  | instruction {l : Line} {f : Failure} (parsed : Line.parse text (some number) = .ok l)
      (new : ∀ name ∈ l.label, name ∉ s.table.names) (encoded : l.encode = .error f) :
      LineFails s number text (s.withLabel l) f

lemma lineFails_of_line {s s' : Scan} {number : Nat} {text : String} {f : Failure}
    (err : s.line number text = (s', some f)) : s.LineFails number text s' f := by
  unfold line at err
  cases parsed : Line.parse text (some number) with
  | error f' =>
    rw [parsed] at err
    cases err
    exact .shape parsed
  | ok l =>
    rw [parsed] at err
    dsimp only at err
    split at err
    · next defined =>
      cases err
      obtain ⟨rfl, old, fault⟩ := define_eq_some defined
      exact .label parsed old fault
    · next s₁ defined =>
      obtain ⟨new, rfl⟩ := define_eq_none.1 defined
      obtain ⟨rfl, encoded⟩ := encode_eq_some err
      exact .instruction parsed new encoded

/-- A line that is not scanned has a fault or an operand with a number that is too long. -/
lemma line_eq_some {s s' : Scan} {number : Nat} {text : String} {f : Failure}
    (written : (Location.ofLine number text).isWritable = true → s.table.IsWritable)
    (err : s.line number text = (s', some f)) :
    f.FaultOf (.ofLine number text) ∨ ∃ token ∈ (body (tokens text)).tail, f.OverlongIn token := by
  cases lineFails_of_line err with
  | shape parsed =>
    rw [Line.parse_eq] at parsed
    exact .inl (Line.ofTokens_eq_error parsed)
  | label parsed _ fault =>
    rw [Line.location_of_parse parsed] at fault
    exact .inl (fault written)
  | instruction parsed _ encoded =>
    rw [Line.parse_eq] at parsed
    obtain ⟨_, rfl⟩ := Line.ofTokens_eq_ok.1 parsed
    exact Line.encode_eq_error encoded

/-! ### Scanning lines -/

lemma add_names (s : Scan) (e : Entry) :
    (s.add e).table.names = s.table.names ++ e.line.label.toList := by
  simp only [LabelTable.names_eq, add_definitions, List.map_append, Entry.definition?]
  cases e.line.label <;> rfl

lemma foldl_add_definitions (s : Scan) (es : List Entry) :
    (es.foldl add s).table.definitions =
      s.table.definitions ++ Entry.definitions s.address es := by
  induction es generalizing s with
  | nil => simp [Entry.definitions]
  | cons e es ih =>
    rw [List.foldl_cons, ih, add_definitions, add_address, List.append_assoc]
    rfl

lemma foldl_add_instructions (s : Scan) (es : List Entry) :
    (es.foldl add s).instructions.toList = s.instructions.toList ++ Entry.instructions es := by
  induction es generalizing s with
  | nil => simp [Entry.instructions]
  | cons e es ih =>
    rw [List.foldl_cons, ih, add_instructions, List.append_assoc]
    cases instruction : e.instruction <;> simp [Entry.instructions, instruction]

/-- Lines are scanned exactly if every line can be read and every label is new. -/
lemma run_eq_none {s s' : Scan} {number : Nat} {texts : List String} :
    s.run number texts = (s', none) ↔
      ∃ es, Entry.readFrom number texts = .ok es ∧
        Entry.Fresh s.table.names es ∧ s' = es.foldl add s := by
  -- The names in the state grow with each line, so a label is new against all lines before it.
  induction texts generalizing s number with
  | nil =>
    constructor
    · intro h
      cases h
      exact ⟨[], rfl, ⟨List.nodup_nil, nofun⟩, rfl⟩
    · rintro ⟨es, h, _, rfl⟩
      cases h
      rfl
  | cons text texts ih =>
    simp only [run, Entry.readFrom_cons_eq_ok]
    constructor
    · intro h
      split at h
      · next s₁ first =>
        obtain ⟨e, read, new, rfl⟩ := line_eq_none.1 first
        obtain ⟨es, rest, others, rfl⟩ := ih.1 h
        rw [add_names] at others
        exact ⟨e :: es, ⟨e, es, read, rest, rfl⟩, Entry.fresh_cons.2 ⟨new, others⟩, rfl⟩
      · cases h
    · rintro ⟨_, ⟨e, es, read, rest, rfl⟩, fresh, rfl⟩
      obtain ⟨new, others⟩ := Entry.fresh_cons.1 fresh
      rw [← add_names] at others
      rw [line_eq_none.2 ⟨e, read, new, rfl⟩]
      exact ih.2 ⟨es, rest, others, rfl⟩

/-- Tells whether the lines of all definitions and of all instructions can be written. -/
structure IsWritable (s : Scan) : Prop where
  table : s.table.IsWritable
  instructions : ∀ i ∈ s.instructions.toList, i.location.isWritable = true

/-- Nothing has been scanned at the beginning. -/
lemma isWritable_empty : IsWritable {} :=
  ⟨(fun _ mem => by cases mem), fun _ mem => by cases mem⟩

/-- A line with a number that can be written leaves no other numbers. -/
lemma IsWritable.line {s s' : Scan} {number : Nat} {text : String} (written : s.IsWritable)
    (short : Text.isWritable number = true) (ok : s.line number text = (s', none)) :
    s'.IsWritable := by
  obtain ⟨e, read, _, rfl⟩ := line_eq_none.1 ok
  obtain ⟨line, instruction⟩ := Entry.location_of_read read
  constructor
  · intro d mem
    rw [add_definitions, List.mem_append, Option.mem_toList] at mem
    rcases mem with mem | mem
    · exact written.table d mem
    · obtain ⟨name, _, rfl⟩ := Option.map_eq_some_iff.1 mem
      rw [line]
      exact short
  · intro i mem
    rw [add_instructions, List.mem_append, Option.mem_toList] at mem
    rcases mem with mem | mem
    · exact written.instructions i mem
    · rw [instruction i mem]
      exact short

/-- So do lines with numbers up to one that can be written. -/
lemma IsWritable.run {s s' : Scan} {number last : Nat} {texts : List String}
    (written : s.IsWritable) (short : Text.isWritable last = true)
    (le : number + texts.length ≤ last + 1) (ok : s.run number texts = (s', none)) :
    s'.IsWritable := by
  induction texts generalizing s number with
  | nil =>
    cases ok
    exact written
  | cons text texts ih =>
    rw [List.length_cons] at le
    simp only [Scan.run] at ok
    split at ok
    · next s₁ first =>
      have here := written.line (Text.isWritable_of_le (by omega) short) first
      exact ih here (by omega) ok
    · cases ok

lemma isWritable_ofSource {source : String} {s : Scan} (numbered : Source.IsNumbered source)
    (ok : ofSource source = (s, none)) : s.IsWritable :=
  isWritable_empty.run (Text.isWritable_natCast.2 numbered) (Nat.add_comm 1 _).le ok

/-- Lines are scanned one part after the other. -/
lemma run_append (s : Scan) (number : Nat) (before after : List String) :
    s.run number (before ++ after) =
      match s.run number before with
      | (s', none) => s'.run (number + before.length) after
      | (s', some f) => (s', some f) := by
  induction before generalizing s number with
  | nil => rfl
  | cons text before ih =>
    simp only [List.cons_append, run, List.length_cons]
    split
    · rw [ih, Nat.add_right_comm]
      rfl
    · rfl

/-- A run that fails stops at the first line that cannot be scanned. -/
lemma run_eq_some {s s' : Scan} {number : Nat} {texts : List String} {f : Failure} :
    s.run number texts = (s', some f) ↔
      ∃ before text after s₁, texts = before ++ text :: after ∧
        s.run number before = (s₁, none) ∧
        s₁.line (number + before.length) text = (s', some f) := by
  constructor
  · intro err
    induction texts generalizing s number with
    | nil => cases err
    | cons text texts ih =>
      simp only [run] at err
      split at err
      · next s₁ first =>
        obtain ⟨before, t, after, s₂, rfl, run₁, last⟩ := ih err
        refine ⟨text :: before, t, after, s₂, rfl, ?_, ?_⟩
        · simp only [run, first, run₁]
        · rw [List.length_cons, Nat.add_comm before.length, ← Nat.add_assoc]
          exact last
      · next s₁ f' first =>
        cases err
        exact ⟨[], text, texts, s, rfl, rfl, first⟩
  · rintro ⟨before, text, after, s₁, rfl, first, last⟩
    rw [run_append, first]
    simp only [run, last]

end Scan

end Dcpu
