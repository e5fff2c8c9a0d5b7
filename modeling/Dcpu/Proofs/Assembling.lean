import Dcpu.Assembly.Assembler
import Dcpu.Proofs.Resolution
import Dcpu.Proofs.Scanning

/-!
# What assembling does

Assembling scans the lines of a source and resolves the instructions of its entries under the
addresses of its labels. It succeeds exactly if every line can be read, no label is defined twice
and all references have addresses (`assemble_eq_ok`), and it fails in one of the two passes
(`assemble_eq_error`).
-/

namespace Dcpu
open Results
open Source (Line body tokens mnemonic? codeLines)

namespace Entry

/-- The labels of lines with their addresses, if the first line stands at an address. -/
def addresses (address : Nat) (es : List Entry) : Labels :=
  (definitions address es).map fun d => (d.name, d.address)

lemma addresses_cons (address : Nat) (e : Entry) (es : List Entry) :
    addresses address (e :: es) =
      (e.line.label.toList.map fun name => (name, (address : Int))) ++
        addresses (address + e.size) es := by
  simp only [addresses, definitions, List.map_append, definition?]
  cases e.line.label <;> rfl

lemma names_addresses (address : Nat) (es : List Entry) :
    (addresses address es).names = labels es := by
  induction es generalizing address with
  | nil => rfl
  | cons e es ih =>
    have rest := ih (address + e.size)
    simp only [Labels.names, labels, addresses_cons, List.map_append, List.map_map] at rest ⊢
    rw [rest]
    cases label : e.line.label <;> simp [label]

end Entry

lemma Assembler.scan_eq_ok {a : Assembler} {source : String} :
    (a.scan source).result = .ok () ↔ (Scan.ofSource source).2 = none := by
  unfold Assembler.scan
  rcases Scan.ofSource source with ⟨s, _ | f⟩
  · exact ⟨fun _ => rfl, fun _ => rfl⟩
  · exact ⟨nofun, nofun⟩

/-- A source is scanned exactly if every line can be read and no label is defined twice. -/
lemma Scan.ofSource_eq_none {source : String} {s : Scan} :
    ofSource source = (s, none) ↔
      ∃ es, Entry.readFrom 1 (Source.lines source) = .ok es ∧ (Entry.labels es).Nodup ∧
        s = es.foldl add {} := by
  have fresh {es : List Entry} : Entry.Fresh [] es ↔ (Entry.labels es).Nodup :=
    ⟨fun h => h.1, fun h => ⟨h, fun _ _ => List.not_mem_nil⟩⟩
  rw [ofSource, run_eq_none]
  simp only [← fresh]
  rfl

/-- Assembling is scanning and resolving. -/
lemma assemble_eq (source : String) :
    assemble source =
      match Scan.ofSource source with
      | (_, some f) => .error f
      | (s, none) =>
        (Instruction.resolveAll s.instructions.toList s.table.labels).map fun instructions =>
          { instructions, labels := s.table.labels } := by
  unfold assemble Assembler.assemble Assembler.scan
  rcases Scan.ofSource source with ⟨s, _ | f⟩
  · simp only [Outcome.andThen, Assembler.resolve]
    cases Instruction.resolveAll s.instructions.toList s.table.labels <;> rfl
  · rfl

lemma Scan.foldl_add_labels (es : List Entry) :
    (es.foldl add {}).instructions.toList = Entry.instructions es ∧
      (es.foldl add {}).table.labels = Entry.addresses 0 es := by
  rw [foldl_add_instructions, LabelTable.labels_eq, foldl_add_definitions]
  exact ⟨rfl, rfl⟩

/-- A source is assembled exactly if every line can be read, no label is defined twice and all
references have addresses. -/
lemma assemble_eq_ok {source : String} {p : Program} :
    assemble source = .ok p ↔
      ∃ es, Entry.readFrom 1 (Source.lines source) = .ok es ∧ (Entry.labels es).Nodup ∧
        Instruction.resolveAll (Entry.instructions es) (Entry.addresses 0 es) =
          .ok p.instructions ∧
        p.labels = Entry.addresses 0 es := by
  rw [assemble_eq]
  constructor
  · intro h
    split at h
    · cases h
    · next s scanned =>
      obtain ⟨es, read, nodup, rfl⟩ := Scan.ofSource_eq_none.1 scanned
      obtain ⟨is, resolved, rfl⟩ := map_eq_ok.1 h
      obtain ⟨instructions, labels⟩ := Scan.foldl_add_labels es
      rw [instructions, labels] at resolved
      exact ⟨es, read, nodup, resolved, labels⟩
  · rintro ⟨es, read, nodup, resolved, labels⟩
    rw [Scan.ofSource_eq_none.2 ⟨es, read, nodup, rfl⟩]
    obtain ⟨instructions, labels'⟩ := Scan.foldl_add_labels es
    simp only [instructions, labels', resolved]
    rw [← labels]
    rfl

/-- Relates a statement to its instruction with the addresses of all labels filled in. -/
structure Statement.Denotes (st : Statement) (labels : Labels) (i : Instruction) : Prop where
  fields : st.fields? = some i.fields
  filled : i.trailing = i.values.map .literal
  values : st.slots.mapM (Slot.fill? labels) = some i.values

namespace Statement.Denotes

variable {st : Statement} {labels : Labels} {i : Instruction}

lemma words_eq (den : st.Denotes labels i) : i.words = .ok (i.fields.word :: i.values) :=
  Instruction.words_eq_ok (fits_of_fields? den.fields) den.filled

lemma length_values (den : st.Denotes labels i) : i.values.length = st.slots.length :=
  (mapM_eq_some.1 den.values).length_eq.symm

/-- A statement whose instruction can be resolved denotes the resolved instruction. -/
lemma of_resolve {location : Location} {j : Instruction} (built : st.instruction? location = some i)
    (resolved : i.resolve labels = .ok j) : j.location = location ∧ st.Denotes labels j := by
  obtain ⟨fields, hfields, rfl⟩ := Option.map_eq_some_iff.1 built
  obtain ⟨values, filled, rfl⟩ := Instruction.resolve_eq_ok.1 resolved
  have same : Instruction.values ⟨location, fields, values.map .literal⟩ = values :=
    Instruction.values_eq rfl
  exact ⟨rfl, hfields, by rw [same], by rw [same]; exact filled⟩

end Statement.Denotes

/-- The instruction on a line with a number. Its references are open. -/
def Source.encodeLine (line : String × Nat) : Except Failure Instruction := do
  let parsed ← Line.parse line.1 (some line.2)
  parsed.encode

namespace Entry

/-- The instructions of lines are those that the lines with mnemonics are encoded to, in their
order. -/
lemma forall₂_encodeLine {number : Nat} {texts : List String} {es : List Entry}
    (read : readFrom number texts = .ok es) :
    List.Forall₂ (fun line i => Source.encodeLine line = .ok i)
      ((texts.zipIdx number).filter fun line => (mnemonic? line.1).isSome) (instructions es) := by
  rw [← List.filterMap_eq_filter]
  refine List.rel_filterMap ?_ (mapM_eq_ok.1 read)
  rintro ⟨text, number⟩ e ok
  change Option.Rel _ _ e.instruction
  obtain ⟨line, parsed, o, built, rfl⟩ : ∃ line, Line.parse text (some number) = .ok line ∧
      ∃ o, line.instruction = .ok o ∧ e = ⟨line, o⟩ := by
    obtain ⟨line, parsed, rest⟩ := bind_eq_ok.1 ok
    obtain ⟨o, built, done⟩ := bind_eq_ok.1 rest
    cases done
    exact ⟨line, parsed, o, built, rfl⟩
  have mnemonic : line.mnemonic = mnemonic? text := by
    rw [Line.parse_eq] at parsed
    obtain ⟨_, rfl⟩ := Line.ofTokens_eq_ok.1 parsed
    rfl
  rcases Line.instruction_eq_ok.1 built with ⟨absent, rfl⟩ | ⟨i, encoded, rfl⟩
  · rw [Option.guard_eq_none_iff.2 (by rw [← mnemonic, absent]; rfl)]
    exact .none
  · have code : Option.guard (fun line => (mnemonic? line.1).isSome) (text, number) =
        some (text, number) := by
      rw [Option.guard_eq_some_iff, ← mnemonic, Option.isSome_iff_ne_none]
      refine ⟨rfl, fun absent => ?_⟩
      rw [Line.encode, absent] at encoded
      cases encoded
    rw [code]
    exact .some (bind_eq_ok.2 ⟨line, parsed, encoded⟩)

/-- The instructions of lines come from the lines with mnemonics, in their order. -/
lemma forall₂_instructions {number : Nat} {texts : List String} {es : List Entry}
    (read : readFrom number texts = .ok es) :
    List.Forall₂ (fun line i => ∃ st, Statement.ofTokens? (body (tokens line.1)) = some st ∧
        st.instruction? (.ofLine line.2 line.1) = some i)
      ((texts.zipIdx number).filter fun line => (mnemonic? line.1).isSome) (instructions es) := by
  refine (forall₂_encodeLine read).imp ?_
  intro line i ok
  obtain ⟨parsed, parses, encoded⟩ := bind_eq_ok.1 ok
  rw [Line.parse_eq] at parses
  obtain ⟨_, rfl⟩ := Line.ofTokens_eq_ok.1 parses
  obtain ⟨st, statement, built⟩ := Line.encode_eq_ok.1 encoded
  rw [Line.statement?_ofParts] at statement
  exact ⟨st, statement, built⟩

end Entry

/-- The instructions of an assembled program come from the lines of the source with mnemonics, in
their order. -/
lemma forall₂_assemble {source : String} {p : Program} (ok : assemble source = .ok p) :
    List.Forall₂ (fun line i => i.location = .ofLine line.2 line.1 ∧
        ∃ st, Statement.ofTokens? (body (tokens line.1)) = some st ∧ st.Denotes p.labels i)
      (codeLines source) p.instructions := by
  obtain ⟨es, read, _, resolved, labels⟩ := assemble_eq_ok.1 ok
  refine forall₂_trans ?_ (Entry.forall₂_instructions read) (mapM_eq_ok.1 resolved)
  rintro line i j ⟨st, statement, built⟩ resolved
  rw [← labels] at resolved
  obtain ⟨location, den⟩ := Statement.Denotes.of_resolve built resolved
  exact ⟨location, st, statement, den⟩

/-- A source is not assembled because it cannot be scanned or because it has been scanned and a
reference has no address. -/
lemma assemble_eq_error {source : String} {f : Failure} :
    assemble source = .error f ↔
      (∃ s, Scan.ofSource source = (s, some f)) ∨
        ∃ es, Entry.readFrom 1 (Source.lines source) = .ok es ∧ (Entry.labels es).Nodup ∧
          Instruction.resolveAll (Entry.instructions es) (Entry.addresses 0 es) = .error f := by
  rw [assemble_eq]
  constructor
  · intro h
    split at h
    · next s _ scanned =>
      cases h
      exact .inl ⟨s, scanned⟩
    · next s scanned =>
      obtain ⟨es, read, nodup, rfl⟩ := Scan.ofSource_eq_none.1 scanned
      obtain ⟨instructions, labels⟩ := Scan.foldl_add_labels es
      have failed := map_eq_error.1 h
      rw [instructions, labels] at failed
      exact .inr ⟨es, read, nodup, failed⟩
  · rintro (⟨s, scanned⟩ | ⟨es, read, nodup, failed⟩)
    · rw [scanned]
    · rw [Scan.ofSource_eq_none.2 ⟨es, read, nodup, rfl⟩]
      obtain ⟨instructions, labels⟩ := Scan.foldl_add_labels es
      simp only [instructions, labels, failed]
      rfl

end Dcpu
