import Dcpu.Proofs.Delivery
import Dcpu.Proofs.Emission
import Dcpu.Proofs.FirstFault

/-!
# What assembling leaves behind

A call that assembles a source does not look at what the assembler held before. If it fails, the
assembler holds what the lines before the fault have added (`Assembler.Holds`). The label of a line
is defined before its instruction is encoded, so the line at which the first pass stops may have
added its label (`Source.newLabel?`). The second pass fails as a whole: no reference is filled in.

A source that is not assembled leaves no program. But a source that cannot be read leaves the
assembler as it was, so a program from an earlier call stays and can still be written
(`Session.program_of_failed_call`).
-/

namespace Dcpu
open Results
open Source (Line lines tokens label? mnemonic? lineSize encodeLine)

/-! ### Labels and instructions of the first lines -/

namespace Source

/-- The instructions on those lines that have mnemonics. Their references are open. -/
def encodings (texts : List String) : Except Failure (List Instruction) :=
  ((texts.zipIdx 1).filter fun line => (mnemonic? line.1).isSome).mapM encodeLine

/-- The definitions of the labels of lines, of which the first has a number and stands at an
address. -/
def definitionsFrom (number address : Nat) : List String → List Definition
  | [] => []
  | text :: texts =>
    ((label? (tokens text)).toList.map fun name => { name, address, line := some number }) ++
      definitionsFrom (number + 1) (address + lineSize text) texts

/-- The label of a line that has the shape of a line, unless it is among the names that are defined
already. -/
def newLabel? (names : List String) (number : Nat) (text : String) : Option String :=
  (Line.parse text (some number)).toOption.bind fun line =>
    line.label.filter fun name => decide (name ∉ names)

lemma newLabel?_of_parse {names : List String} {number : Nat} {text : String} {line : Line}
    (parsed : Line.parse text (some number) = .ok line) :
    newLabel? names number text = line.label.filter fun name => decide (name ∉ names) := by
  rw [newLabel?, parsed]
  rfl

end Source

open Source (encodings definitionsFrom newLabel?)

namespace Entry

lemma definition?_of_read {number : Nat} {text : String} {e : Entry}
    (ok : read number text = .ok e) (address : Nat) :
    (e.definition? address).toList =
      (label? (tokens text)).toList.map fun name => { name, address, line := some number } := by
  obtain ⟨_, line, _⟩ := read_eq_ok.1 ok
  rw [definition?, line]
  show ((label? (tokens text)).map _).toList = _
  cases label? (tokens text) <;> rfl

/-- The labels of lines that have been read are defined where the lines stand. -/
lemma definitions_of_readFrom {number address : Nat} {texts : List String} {es : List Entry}
    (ok : readFrom number texts = .ok es) :
    definitions address es = definitionsFrom number address texts := by
  induction texts generalizing number address es with
  | nil =>
    cases ok
    rfl
  | cons text texts ih =>
    obtain ⟨e, es, first, rest, rfl⟩ := readFrom_cons_eq_ok.1 ok
    rw [definitions, definitionsFrom, definition?_of_read first, size_of_read first, ih rest]

lemma encodings_of_readFrom {texts : List String} {es : List Entry}
    (ok : readFrom 1 texts = .ok es) : encodings texts = .ok (instructions es) :=
  mapM_eq_ok.2 (forall₂_encodeLine ok)

end Entry

namespace Scan

/-- The instructions and labels that lines leave behind, and a label that is defined behind them. -/
structure Left (texts : List String) (last : Option String) (s : Scan) : Prop where
  instructions : encodings texts = .ok s.instructions.toList
  definitions : s.table.definitions = definitionsFrom 1 0 texts ++
    last.toList.map fun name => { name, address := s.address, line := some (texts.length + 1 : Nat) }

lemma left_of_run {texts : List String} {s : Scan} (ran : run {} 1 texts = (s, none)) :
    s.Left texts none ∧ s.table.names = Source.labelsOf texts := by
  obtain ⟨es, read, _, rfl⟩ := run_eq_none.1 ran
  have definitions : (es.foldl add {}).table.definitions = Entry.definitions 0 es :=
    foldl_add_definitions {} es
  refine ⟨⟨?_, ?_⟩, ?_⟩
  · rw [foldl_add_instructions]
    exact Entry.encodings_of_readFrom read
  · rw [definitions, Entry.definitions_of_readFrom read]
    exact (List.append_nil _).symm
  · rw [← Entry.labels_of_readFrom read, ← Entry.names_addresses 0, LabelTable.names_eq,
      definitions, Labels.names, Entry.addresses, List.map_map]
    rfl

lemma left_withLabel {texts : List String} {s : Scan} {line : Line} (left : s.Left texts none)
    (place : line.location.line = some ((texts.length + 1 : Nat) : Int)) :
    (s.withLabel line).Left texts line.label := by
  unfold withLabel
  cases line.label with
  | none => exact left
  | some name =>
    refine ⟨left.instructions, ?_⟩
    show (LabelTable.ofDefinitions _).definitions = _
    rw [LabelTable.definitions_ofDefinitions, left.definitions, place, Option.toList_none,
      List.map_nil, List.append_nil]
    rfl

/-- A line that cannot be scanned leaves its label if it has the shape of a line and the label is
new. -/
lemma left_of_line {texts : List String} {text : String} {s s' : Scan} {f : Failure}
    (left : s.Left texts none) (err : s.line (texts.length + 1) text = (s', some f)) :
    s'.Left texts (newLabel? s.table.names (texts.length + 1) text) := by
  cases lineFails_of_line err with
  | shape parsed =>
    rw [newLabel?, parsed]
    exact left
  | @label l _ parsed old =>
    have refused : l.label.filter (fun name => decide (name ∉ s.table.names)) = none := by
      obtain ⟨name, label, old⟩ := old
      rw [label, Option.filter_some_neg (by simpa using old)]
    rw [Source.newLabel?_of_parse parsed, refused]
    exact left
  | @instruction l _ parsed new =>
    have kept : l.label.filter (fun name => decide (name ∉ s.table.names)) = l.label := by
      cases label : l.label with
      | none => rfl
      | some name => exact Option.filter_some_pos (decide_eq_true (new name label))
    rw [Source.newLabel?_of_parse parsed, kept]
    exact left_withLabel left (by rw [Line.location_of_parse parsed]; rfl)

/-- A scan that fails stops at a line and leaves what the lines before it have added, and the label
of the line itself if the line has the shape of a line and the label is new. -/
lemma left_of_ofSource {source : String} {s' : Scan} {f : Failure}
    (err : ofSource source = (s', some f)) :
    ∃ n text, (lines source)[n]? = some text ∧ StopsAt source n f ∧
      s'.Left ((lines source).take n)
        (newLabel? (Source.labelsOf ((lines source).take n)) (n + 1) text) := by
  obtain ⟨n, text, s, line, first, last⟩ := ofSource_eq_some.1 err
  refine ⟨n, text, line, stopsAt_of_line line first last, ?_⟩
  obtain ⟨left, names⟩ := left_of_run first
  have length : ((lines source).take n).length = n := by
    obtain ⟨lt, _⟩ := List.getElem?_eq_some_iff.1 line
    exact List.length_take_of_le (Nat.le_of_lt lt)
  rw [← length] at last
  have stopped := left_of_line left last
  rw [length, names] at stopped
  exact stopped

end Scan

/-! ### Assemblers -/

namespace Assembler

/-- What lines leave in an assembler that has not come to a program: their labels and instructions,
the size of these, and a label that is defined behind them. -/
structure Holds (texts : List String) (last : Option String) (a : Assembler) : Prop where
  instructions : encodings texts = .ok a.instructions
  address : a.address = (a.instructions.map Instruction.size).sum
  definitions : a.table.definitions = definitionsFrom 1 0 texts ++
    last.toList.map fun name => { name, address := a.address, line := some (texts.length + 1 : Nat) }
  program : a.program = none

lemma holds_scan {source : String} {texts : List String} {last : Option String}
    (left : (Scan.ofSource source).1.Left texts last) (a : Assembler) :
    (a.scan source).state.Holds texts last := by
  rw [state_scan]
  exact ⟨left.instructions, (Scan.coherent_ofSource source).total, left.definitions, rfl⟩

lemma scan_eq_error {a : Assembler} {source : String} {f : Failure} :
    (a.scan source).result = .error f ↔
      Scan.ofSource source = ((Scan.ofSource source).1, some f) := by
  unfold scan
  rcases Scan.ofSource source with ⟨s, _ | f⟩
  · exact ⟨(fun h => by cases h), (fun h => by cases h)⟩
  · exact ⟨fun h => by cases h; rfl, fun h => by cases h; rfl⟩

/-- A source that is scanned is not assembled if its references cannot be resolved. -/
lemma assemble_eq_error_of_resolve {a : Assembler} {source : String} {f : Failure}
    (scanned : (a.scan source).result = .ok ())
    (failed : (a.scan source).state.resolve.result = .error f) :
    Dcpu.assemble source = .error f := by
  rw [← a.result_assemble, assemble, Outcome.andThen_of_ok scanned]
  dsimp only
  rw [Outcome.andThen_of_error failed]

/-- What assembling leaves behind does not depend on what was there before. A first pass that stops
at a line leaves the labels and instructions of the lines before it, and the label of the line
itself if the line has the shape of a line and the label is new. A second pass that fails leaves all
as it was. -/
theorem aftermath_assemble (a b : Assembler) (source : String) :
    ((a.assemble source).result = (b.assemble source).result ∧
        (a.assemble source).state = { (b.assemble source).state with verbose := a.verbose }) ∧
      (∀ f, (a.scan source).result = .error f → (a.assemble source).result = .error f ∧
        ∃ n text, (lines source)[n]? = some text ∧ StopsAt source n f ∧
          (a.assemble source).state.Holds ((lines source).take n)
            (newLabel? (Source.labelsOf ((lines source).take n)) (n + 1) text)) ∧
      (∀ f, (a.scan source).result = .ok () → (a.scan source).state.resolve.result = .error f →
        (a.assemble source).result = .error f ∧
          (a.assemble source).state = (a.scan source).state ∧
          (a.assemble source).state.Holds (lines source) none) := by
  refine ⟨⟨?_, ?_⟩, ?_, ?_⟩
  · rw [result_assemble, result_assemble]
  · rw [(a.outcome_assemble source).2, (b.outcome_assemble source).2, state_scan, state_scan]
    cases Dcpu.assemble source with
    | error f => rfl
    | ok p => rfl
  · intro f failed
    have scanned := scan_eq_error.1 failed
    have err := assemble_eq_error.2 (.inl ⟨_, scanned⟩)
    obtain ⟨n, text, line, stops, left⟩ := Scan.left_of_ofSource scanned
    refine ⟨(a.result_assemble source).trans err, n, text, line, stops, ?_⟩
    rw [state_of_error err]
    exact holds_scan left a
  · intro f scanned failed
    have err := assemble_eq_error_of_resolve scanned failed
    have complete : Scan.ofSource source = ((Scan.ofSource source).1, none) :=
      Prod.ext rfl (scan_eq_ok.1 scanned)
    rw [state_of_error err]
    refine ⟨(a.result_assemble source).trans err, rfl, ?_⟩
    exact holds_scan (Scan.left_of_run complete).1 a

/-- An assembler with a program from before, a line whose register is refused after its label has
been defined, and a reference to an unknown label. -/
theorem aftermath_assemble_refused :
    let a : Assembler := { address := 7, program := some {} }
    let source := ":start SET A, next\n:next SET [PC], 1\n:end"
    let f := (Location.ofLine 2 ":next SET [PC], 1").failure (.invalidIndirectRegister "PC")
    let g := (Location.ofLine 1 "JSR away").failure (.undefinedLabel "away" [])
    ((a.scan source).result = .error f ∧
        ∃ n text, (lines source)[n]? = some text ∧ StopsAt source n f ∧
          (a.assemble source).state.Holds ((lines source).take n)
            (newLabel? (Source.labelsOf ((lines source).take n)) (n + 1) text)) ∧
      (a.scan "JSR away").result = .ok () ∧
      (a.scan "JSR away").state.resolve.result = .error g ∧
      (a.assemble "JSR away").state = (a.scan "JSR away").state := by
  intro a source f g
  have stopped : (a.scan source).result = .error f := error?_eq_some.1 (by decide +kernel)
  have scanned : (a.scan "JSR away").result = .ok () := toOption_eq_some.1 (by decide +kernel)
  have failed : (a.scan "JSR away").state.resolve.result = .error g :=
    error?_eq_some.1 (by decide +kernel)
  obtain ⟨_, first, _⟩ := aftermath_assemble a {} source
  obtain ⟨_, _, second⟩ := aftermath_assemble a {} "JSR away"
  exact ⟨⟨stopped, (first f stopped).2⟩, scanned, failed, (second g scanned failed).2.1⟩

end Assembler

/-! ### Sessions -/

namespace Session

/-- The calls that assemble a source: a text, what a stream gives or refuses to give, or a file. -/
inductive Call where
  | text (source : String)
  | stream (source : Except SessionError String)
  | file (name : String) (output : Option String)

/-- The source of a call, if it can be read. -/
def Call.source (s : Session) : Call → Except SessionError String
  | text source => .ok source
  | stream source => source
  | file name _ => (s.load name).result

/-- Makes a call. -/
def call (s : Session) : Call → Outcome Session SessionError Program
  | .text source | .stream (.ok source) => s.assemble source
  | .stream (.error e) => { state := s, result := .error e }
  | .file name output => s.assembleFile name output

/-- The failures of a call before there is anything to write: its source cannot be read, or it is
not assembled. -/
inductive Fails (s : Session) (c : Call) : SessionError → Prop
  | unread {e : SessionError} (unread : c.source s = .error e) : Fails s c e
  | refused {source : String} {f : Failure} (read : c.source s = .ok source)
      (refused : Dcpu.assemble source = .error f) : Fails s c (.failure f)

/-- A session in which there is no program to show or to write. A file that is to be written may be
emptied. -/
structure Bare (s : Session) : Prop where
  listing : s.assembler.listing = .error .noProgram
  hexDump : s.assembler.hexDump = .error .noProgram
  write : ∀ name, (∃ e, (s.write name).result = .error e) ∧
    ((s.write name).state.files = s.files ∨
      s.files.write name [] = .ok (s.write name).state.files)

variable {s : Session} {c : Call}

lemma bare_of_program (absent : s.assembler.program = none) : s.Bare := by
  have held : s.assembler.currentProgram = .error .noProgram := by
    rw [Assembler.currentProgram, absent]
    rfl
  refine ⟨?_, ?_, ?_⟩
  · rw [Assembler.listing, held]
    rfl
  · rw [Assembler.hexDump, held]
    rfl
  · intro name
    have bytes : s.assembler.bytes = .error .noProgram := by
      rw [Assembler.bytes, held]
      rfl
    unfold write
    cases s.files.write name [] with
    | error e => exact ⟨⟨_, rfl⟩, .inl rfl⟩
    | ok emptied =>
      rw [bytes]
      exact ⟨⟨_, rfl⟩, .inr rfl⟩

/-- A call assembles its source, if it can be read. -/
lemma assembler_call (s : Session) (c : Call) :
    (s.call c).state.assembler =
      match c.source s with
      | .error _ => s.assembler
      | .ok source => (s.assembler.assemble source).state := by
  match c with
  | .text source => rfl
  | .stream (.ok source) => rfl
  | .stream (.error e) => rfl
  | .file name output => exact s.assembler_assembleFile name output

lemma call_of_unread {e : SessionError} (unread : c.source s = .error e) :
    (s.call c).state = s ∧ (s.call c).result = .error e := by
  match c with
  | .text source => cases unread
  | .stream (.ok source) => cases unread
  | .stream (.error e) =>
    cases unread
    exact ⟨rfl, rfl⟩
  | .file name output =>
    have failed : (s.load name).result = .error e := unread
    rw [call, assembleFile, Outcome.andThen_of_error failed]
    exact ⟨rfl, rfl⟩

lemma result_of_refused {source : String} {f : Failure} (read : c.source s = .ok source)
    (refused : Dcpu.assemble source = .error f) : (s.call c).result = .error (.failure f) := by
  have result : (s.assemble source).result = .error (.failure f) := by
    rw [result_assemble, refused]
    rfl
  match c with
  | .text source =>
    cases read
    exact result
  | .stream (.ok source) =>
    cases read
    exact result
  | .stream (.error e) => cases read
  | .file name output =>
    have loaded : (s.load name).result = .ok source := read
    have unchanged : (s.load name).state = s := rfl
    rw [call, assembleFile, Outcome.andThen_of_ok loaded]
    dsimp only
    rw [unchanged, Outcome.andThen_of_error result]

/-- A call that fails before there is anything to write leaves no program exactly if its source
could be read or there was no program before. Without a program nothing can be shown or written. If
the source cannot be read the session is as it was, with the program of an earlier call. -/
theorem program_of_failed_call {e : SessionError} (failed : s.Fails c e) :
    (s.call c).result = .error e ∧
      ((s.call c).state.assembler.program = none ↔
        (∃ source, c.source s = .ok source) ∨ s.assembler.program = none) ∧
      ((s.call c).state.assembler.program = none → (s.call c).state.Bare) ∧
      (∀ e', c.source s = .error e' → (s.call c).state = s) := by
  have bare : (s.call c).state.assembler.program = none → (s.call c).state.Bare := bare_of_program
  have kept : ∀ e', c.source s = .error e' → (s.call c).state = s :=
    fun _ unread => (call_of_unread unread).1
  cases failed with
  | unread unread =>
    obtain ⟨same, result⟩ := call_of_unread unread
    refine ⟨result, ⟨?_, ?_⟩, bare, kept⟩
    · rw [same]
      exact Or.inr
    · rintro (⟨source, read⟩ | absent)
      · rw [unread] at read
        cases read
      · rw [same, absent]
  | @refused source f read refused =>
    have absent : (s.call c).state.assembler.program = none := by
      rw [assembler_call, read]
      show (s.assembler.assemble source).state.program = none
      rw [Assembler.state_of_error refused, Assembler.state_scan]
    refine ⟨result_of_refused read refused, ⟨?_, ?_⟩, bare, kept⟩
    · exact fun _ => .inl ⟨source, read⟩
    · exact fun _ => absent

/-- A file that refers to an unknown label, after a source that was assembled. -/
theorem program_of_failed_call_unknown :
    let s := run { files := .ofEntries [] [("next.s", "JSR away".toUTF8.toList)] }
      [.assemble "SET A, 1"]
    let c : Call := .file "next.s" none
    let f := (Location.ofLine 1 "JSR away").failure (.undefinedLabel "away" [])
    s.assembler.program ≠ none ∧ s.Fails c (.failure f) ∧
      (s.call c).state.assembler.program = none := by
  intro s c f
  have read : c.source s = .ok "JSR away" := toOption_eq_some.1 (by decide +kernel)
  have refused : Dcpu.assemble "JSR away" = .error f := error?_eq_some.1 (by decide +kernel)
  obtain ⟨_, left, _⟩ := program_of_failed_call (.refused read refused)
  exact ⟨by decide +kernel, .refused read refused, left.2 (.inl ⟨_, read⟩)⟩

/-- A file that is not there, after a source that was assembled: the listing of this source can
still be shown. -/
theorem missing_file_keeps_program :
    let s := run {} [.assemble "SET A, 1"]
    let c : Call := .file "missing.s" none
    s.Fails c (.file (.system .missing "missing.s")) ∧
      (s.call c).state.assembler.program ≠ none ∧
      (s.call c).state.assembler.listing = .ok "1: 8401" := by
  intro s c
  refine ⟨.unread (error?_eq_some.1 (by decide +kernel)), by decide +kernel, ?_⟩
  exact toOption_eq_some.1 (by decide +kernel)

end Session

end Dcpu
