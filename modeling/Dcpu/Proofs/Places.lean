import Dcpu.Code.Program
import Dcpu.Proofs.Resolution
import Dcpu.Proofs.Scanning

/-!
# Erasing places

The number and the text of a line go into instructions, into the label table and into diagnostics.
Here they are erased again, from each of these (`erase`). Nothing but places depends on places, as
long as the numbers of lines can be written: then each step of the first and the second pass
commutes with erasing, so what is left after erasing is what the step makes of erased arguments. For
results the map is `Results.mapBoth`, which erases from the failure and from the value.
-/

namespace Dcpu
open Results
open Source (Line Direct Operand)

/-- A fault without the number of a line. -/
def Fault.erase : Fault → Fault
  | .duplicateLabel label _ => .duplicateLabel label none
  | fault => fault

/-- A failure without its place. -/
def Failure.erase : Failure → Failure
  | .diagnostic d => .diagnostic { fault := d.fault.erase }
  | failure => failure

/-- The line without its place. -/
def Source.Line.erase (line : Line) : Line :=
  { line with location := {} }

/-- The instruction without its place. -/
def Instruction.erase (i : Instruction) : Instruction :=
  { i with location := {} }

/-- The draft without its place. -/
def Draft.erase (d : Draft) : Draft :=
  { d with location := {} }

/-- The definition without its line. -/
def Definition.erase (d : Definition) : Definition :=
  { d with line := none }

/-- The table without lines. -/
def LabelTable.erase (table : LabelTable) : LabelTable :=
  .ofDefinitions (table.definitions.map Definition.erase)

/-- The scan without places. -/
def Scan.erase (s : Scan) : Scan :=
  { s with table := s.table.erase, instructions := s.instructions.map Instruction.erase }

/-- The program without places. -/
def Program.erase (p : Program) : Program :=
  { p with instructions := p.instructions.map Instruction.erase }

@[simp]
lemma Source.Line.erase_location (line : Line) : line.erase.location = {} := rfl

@[simp]
lemma Source.Line.erase_label (line : Line) : line.erase.label = line.label := rfl

@[simp]
lemma Source.Line.erase_mnemonic (line : Line) : line.erase.mnemonic = line.mnemonic := rfl

@[simp]
lemma Instruction.erase_trailing (i : Instruction) : i.erase.trailing = i.trailing := rfl

@[simp]
lemma Instruction.erase_size (i : Instruction) : i.erase.size = i.size := rfl

@[simp]
lemma LabelTable.erase_empty : LabelTable.erase {} = {} := rfl

@[simp]
lemma Scan.erase_table (s : Scan) : s.erase.table = s.table.erase := rfl

@[simp]
lemma Scan.erase_address (s : Scan) : s.erase.address = s.address := rfl

/-! ### Operands -/

/-- A fault that tells no line is reported in the same words at every place. -/
lemma Location.erase_failure {location : Location} {fault : Fault}
    (short : location.isWritable = true) (placeless : fault.erase = fault) :
    (location.failure fault).erase = Location.failure {} fault := by
  cases words : fault.isWritable with
  | true =>
    rw [failure_of_isWritable short words, failure_of_isWritable rfl words, Failure.erase,
      placeless]
  | false =>
    rw [failure_of_words _ _ words, failure_of_words _ _ words]
    rfl

namespace Source

/-- A literal that cannot be read is reported at no place. -/
lemma erase_of_integer? {cs : List Char} {f : Failure} (err : integer? cs = .error f) :
    f.erase = f := by
  unfold integer? at err
  dsimp only at err
  split at err
  · cases err
  · split at err
    · split at err
      · cases err
      · cases err
        rfl
    · cases err

/-- An operand without brackets is refused without a place. -/
lemma Direct.erase_of_ofToken? {cs : List Char} {f : Failure} (err : ofToken? cs = .error f) :
    f.erase = f := by
  rcases bind_eq_error.1 err with err | ⟨value, _, err⟩
  · exact erase_of_integer? err
  · cases value with
    | some value => cases err
    | none =>
      dsimp only at err
      split at err
      · cases err
      · split at err <;> cases err

/-- An operand is refused without a place. -/
lemma Operand.erase_of_ofToken {token : String} {f : Failure} (err : ofToken token = .error f) :
    f.erase = f := by
  rcases bind_eq_error.1 err with err | ⟨direct, _, err⟩
  · exact Direct.erase_of_ofToken? err
  · cases direct with
    | some operand => cases err
    | none =>
      dsimp only at err
      split at err
      · rcases bind_eq_error.1 err with err | ⟨_, _, err⟩
        · rcases bind_eq_error.1 err with err | ⟨target, _, err⟩
          · exact Direct.erase_of_ofToken? err
          · cases target with
            | some target => cases err
            | none =>
              dsimp only at err
              split at err
              · rcases bind_eq_error.1 err with err | ⟨_, _, err⟩
                · exact erase_of_integer? err
                · cases err
              · cases err
        · cases err
      · cases err

/-- So the reading of an operand has no place to erase. -/
lemma Operand.erase_ofToken (token : String) :
    mapBoth Failure.erase id (ofToken token) = ofToken token := by
  cases result : ofToken token with
  | error f => exact congrArg Except.error (erase_of_ofToken result)
  | ok o => rfl

end Source

namespace Draft

variable {d : Draft}

/-- A value is appended to a draft wherever the draft is. -/
lemma erase_extend (short : d.location.isWritable = true) (value : Int) :
    mapBoth Failure.erase erase (d.extend value) = d.erase.extend value := by
  by_cases word : IsWord value
  · rw [extend_of_isWord word, extend_of_isWord word]
    rfl
  · rw [extend_of_not_isWord word, extend_of_not_isWord word]
    exact congrArg Except.error (Location.erase_failure short rfl)

/-- A value that follows an operand code is appended wherever the draft is. -/
lemma erase_extend_map (short : d.location.isWritable = true) (value : Int) (code : Nat) :
    mapBoth Failure.erase (Prod.map id erase) ((d.extend value).map (code, ·)) =
      (d.erase.extend value).map (code, ·) := by
  rw [← erase_extend short]
  cases d.extend value <;> rfl

/-- An operand is placed in the same way at every place. -/
lemma erase_place (short : d.location.isWritable = true) (o : Operand) :
    mapBoth Failure.erase (Prod.map id erase) (d.place o) = d.erase.place o := by
  have refuse {fault : Fault} (placeless : fault.erase = fault) :
      mapBoth Failure.erase (Prod.map id erase)
        (.error (d.location.failure fault) : Except Failure (Nat × Draft)) =
          .error (d.erase.location.failure fault) :=
    congrArg Except.error (Location.erase_failure short placeless)
  match o with
  | .direct (.integer value) =>
    simp only [place, direct]
    split
    · rfl
    · exact erase_extend_map short value _
  | .direct (.register name) =>
    simp only [place, direct]
    cases Register.ofName? name with
    | none => exact refuse rfl
    | some r => rfl
  | .direct (.label name) => rfl
  | .indirect (.integer value) => exact erase_extend_map short value _
  | .indirect (.register name) =>
    simp only [place, indirect]
    cases (Register.ofName? name).filter Register.isGeneral with
    | none => exact refuse rfl
    | some r => rfl
  | .indirect (.label name) => rfl
  | .offset text (some value) register =>
    simp only [place, offset]
    cases Register.ofName? register with
    | none => exact refuse rfl
    | some r => exact erase_extend_map short value _
  | .offset text none register => exact refuse rfl
  | .invalid token => exact refuse rfl

/-- An operand is added to a draft wherever the draft is. -/
lemma erase_operand (short : d.location.isWritable = true) (token : String) :
    mapBoth Failure.erase (Prod.map id erase) (d.operand token) = d.erase.operand token := by
  rw [operand_eq, operand_eq]
  exact (mapBoth_bind fun o _ => erase_place short o).trans
    (congrArg (· >>= d.erase.place) (Operand.erase_ofToken token))

/-! ### Lines -/

/-- An operand does not move the draft to another place. -/
lemma location_of_operand {d' : Draft} {token : String} {code : Nat}
    (ok : d.operand token = .ok (code, d')) : d'.location = d.location := by
  obtain ⟨_, _, _, rfl⟩ := operand_eq_ok.1 ok
  rfl

/-- Two operands are encoded wherever the draft is. -/
lemma erase_basic (short : d.location.isWritable = true) (op : Operation) (a b : String) :
    mapBoth Failure.erase Instruction.erase (d.basic op a b) = d.erase.basic op a b := by
  unfold basic
  rw [← erase_operand short]
  apply mapBoth_bind
  rintro ⟨codeA, d'⟩ first
  dsimp only [Prod.map_apply, id_eq]
  rw [← erase_operand (by rwa [location_of_operand first])]
  apply mapBoth_bind
  rintro ⟨codeB, d''⟩ _
  rfl

/-- One operand is encoded wherever the draft is. -/
lemma erase_extended (short : d.location.isWritable = true) (op : Operation) (operand : String) :
    mapBoth Failure.erase Instruction.erase (d.extended op operand) =
      d.erase.extended op operand := by
  unfold extended
  rw [← erase_operand short]
  apply mapBoth_bind
  rintro ⟨code, d'⟩ _
  rfl

end Draft

namespace Source.Line

variable {location : Location}

/-- Tokens are a line at any place. -/
lemma erase_ofTokens (short : location.isWritable = true) (ts : List String) :
    mapBoth Failure.erase erase (ofTokens location ts) = ofTokens {} ts := by
  have refuse {fault : Fault} (placeless : fault.erase = fault) :
      mapBoth Failure.erase erase (.error (location.failure fault)) =
        .error (Location.failure {} fault) :=
    congrArg Except.error (Location.erase_failure short placeless)
  cases ts with
  | nil => rfl
  | cons first rest =>
    cases part : labelPart? first with
    | none =>
      simp only [ofTokens, part]
      split
      · rfl
      · exact refuse rfl
    | some name =>
      simp only [ofTokens, part]
      split
      · exact refuse rfl
      · split
        · exact refuse rfl
        · split
          · exact refuse rfl
          · cases rest <;> rfl

/-- Operands are encoded for an operation at any place. -/
lemma erase_encodeAs (short : location.isWritable = true) (op : Operation)
    (operands : List String) :
    mapBoth Failure.erase Instruction.erase (encodeAs location op operands) =
      encodeAs {} op operands := by
  unfold encodeAs
  split
  · exact Draft.erase_basic short _ _ _
  · exact Draft.erase_extended short _ _
  · exact congrArg Except.error (Location.erase_failure short rfl)

/-- A line is encoded at any place. -/
lemma erase_encode {line : Line} (short : line.location.isWritable = true) :
    mapBoth Failure.erase Instruction.erase line.encode = line.erase.encode := by
  unfold encode
  rw [erase_mnemonic]
  cases line.mnemonic.bind Operation.ofMnemonic? with
  | none => exact congrArg Except.error (Location.erase_failure short rfl)
  | some op => exact erase_encodeAs short _ _

end Source.Line

/-! ### The first pass -/

/-- A label is new or not wherever it is defined. -/
lemma LabelTable.erase_define {table : LabelTable} {location : Location}
    (written : table.IsWritable) (short : location.isWritable = true) (name : String)
    (address : Int) :
    mapBoth Failure.erase erase (table.define name address location) =
      table.erase.define name address := by
  have found : table.erase.find? name = (table.find? name).map Definition.erase := by
    rw [find?, find?, erase, definitions_ofDefinitions, List.find?_map]
    rfl
  rw [define_eq, define_eq, found]
  cases first : table.find? name with
  | none => simp [mapBoth, erase, Definition.erase]
  | some d =>
    have words : (Fault.duplicateLabel name d.line).isWritable = true :=
      written d (List.mem_of_find?_eq_some first)
    simp only [mapBoth, Option.map_some, Location.failure_of_isWritable short words]
    rfl

namespace Scan

/-- Erases places from a scan and its failure. -/
def eraseBoth (r : Scan × Option Failure) : Scan × Option Failure :=
  (r.1.erase, r.2.map Failure.erase)

variable {s : Scan} {line : Line}

/-- A scan takes the label of a line at any place. -/
lemma erase_define (written : s.table.IsWritable) (short : line.location.isWritable = true) :
    eraseBoth (s.define line) = s.erase.define line.erase := by
  unfold define
  rw [Line.erase_label]
  cases line.label with
  | none => rfl
  | some name =>
    simp only [erase_table, erase_address, Line.erase_location]
    rw [← LabelTable.erase_define written short name s.address]
    cases s.table.define name s.address line.location <;> rfl

/-- A scan takes an instruction at any place. -/
lemma erase_emit (s : Scan) (mnemonic : String) (operands : List String) (i : Instruction) :
    (s.emit mnemonic operands i).erase = s.erase.emit mnemonic operands i.erase := by
  simp [emit, record, erase]

/-- A scan takes the instruction of a line at any place. -/
lemma erase_encode (s : Scan) (short : line.location.isWritable = true) :
    eraseBoth (s.encode line) = s.erase.encode line.erase := by
  unfold encode
  rw [Line.erase_mnemonic]
  cases line.mnemonic with
  | none => rfl
  | some mnemonic =>
    dsimp only
    rw [← Line.erase_encode short]
    cases line.encode with
    | error f => rfl
    | ok i => exact congrArg (·, none) (s.erase_emit mnemonic line.operands i)

end Scan

/-! ### The second pass -/

namespace Instruction

/-- An instruction is resolved at any place. -/
lemma erase_resolve {i : Instruction} (short : i.location.isWritable = true) (labels : Labels) :
    mapBoth Failure.erase erase (i.resolve labels) = i.erase.resolve labels := by
  rw [resolve_eq, resolve_eq, erase_trailing]
  cases i.trailing.mapM (Slot.resolve labels) with
  | error label => exact congrArg Except.error (Location.erase_failure short rfl)
  | ok trailing => rfl

/-- Instructions are resolved at any places. -/
lemma erase_resolveAll {is : List Instruction} (short : ∀ i ∈ is, i.location.isWritable = true)
    (labels : Labels) :
    mapBoth Failure.erase (List.map erase) (resolveAll is labels) =
      resolveAll (is.map erase) labels :=
  mapBoth_mapM fun i mem => erase_resolve (short i mem) labels

end Instruction

/-! ### Lists of instructions -/

/-- Instructions that differ only in places agree in all that does not depend on places. -/
lemma Instruction.map_eq_of_erase {α : Type} {g : Instruction → α} {is js : List Instruction}
    (same : is.map erase = js.map erase) (blind : ∀ i, g i.erase = g i) : is.map g = js.map g := by
  have erased : ∀ ks : List Instruction, (ks.map erase).map g = ks.map g := by
    intro ks
    rw [List.map_map]
    exact List.map_congr_left fun i _ => blind i
  rw [← erased is, ← erased js, same]

end Dcpu
