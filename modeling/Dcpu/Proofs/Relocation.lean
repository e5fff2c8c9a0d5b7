import Dcpu.Proofs.Serialising

/-!
# Relocation

Two sources can be assembled as one if the first consists of whole lines and no label is defined in
both. The lines of the second then stand further down and its words further up: places move by the
number of lines of the first source (`Entry.readFrom_moved`), addresses by its size
(`Entry.addresses_add`). Under the labels of both, references of the first source have their old
values (`Slot.resolve_append`) and those of the second have moved (`Slot.resolve_moved`). So of the
words of the second program exactly those change that come from labels, whatever their values are.
-/

namespace Dcpu
open Results
open Source (Line EndsLine lines tokens body codeLines)

/-! ### Moving lines -/

/-- A place that is moved down by a number of lines. -/
def Location.moved (n : Nat) (location : Location) : Location :=
  { location with line := location.line.map (· + (n : Int)) }

/-- A place on a line is moved by as many lines. -/
lemma Location.moved_ofLine (n number : Nat) (text : String) :
    (ofLine number text).moved n = ofLine (number + n) text := by
  simp [moved, ofLine]

/-- The instruction as many lines below. -/
def Instruction.moved (n : Nat) (i : Instruction) : Instruction :=
  { i with location := i.location.moved n }

namespace Entry

/-- A line that is moved down by a number of lines. -/
def moved (n : Nat) (e : Entry) : Entry where
  line := { e.line with location := e.line.location.moved n }
  instruction := e.instruction.map (Instruction.moved n)

/-- An entry that is moved keeps its label. -/
@[simp]
lemma moved_label (n : Nat) (e : Entry) : (e.moved n).line.label = e.line.label := rfl

/-- An entry that is moved keeps its size. -/
@[simp]
lemma moved_size (n : Nat) (e : Entry) : (e.moved n).size = e.size := by
  unfold size moved
  cases e.instruction <;> rfl

/-- A line is read below as it is read here. -/
lemma read_moved {number : Nat} {text : String} {e : Entry} (ok : read number text = .ok e)
    (n : Nat) : read (number + n) text = .ok (e.moved n) := by
  obtain ⟨shape, line, parts⟩ := read_eq_ok.1 ok
  refine read_eq_ok.2 ⟨shape, ?_, ?_⟩
  · rw [← Location.moved_ofLine, moved, line]
    rfl
  · rcases parts with ⟨empty, absent⟩ | ⟨st, i, statement, built, present⟩
    · exact .inl ⟨empty, by rw [moved, absent]; rfl⟩
    · obtain ⟨fields, hfields, rfl⟩ := Option.map_eq_some_iff.1 built
      refine .inr ⟨st, _, statement, ?_, by rw [moved, present]; rfl⟩
      rw [← Location.moved_ofLine, Statement.instruction?, hfields]
      rfl

/-- Lines are read below as they are read here. -/
lemma readFrom_moved {number : Nat} {texts : List String} {es : List Entry}
    (ok : readFrom number texts = .ok es) (n : Nat) :
    readFrom (number + n) texts = .ok (es.map (moved n)) := by
  induction texts generalizing number es with
  | nil =>
    cases ok
    rfl
  | cons text texts ih =>
    obtain ⟨e, es, first, rest, rfl⟩ := readFrom_cons_eq_ok.1 ok
    have others := ih rest
    rw [Nat.add_right_comm] at others
    exact readFrom_cons_eq_ok.2 ⟨_, _, read_moved first n, others, rfl⟩

/-- Lines are read after others that have been read. -/
lemma readFrom_append {number : Nat} {texts others : List String} {es fs : List Entry}
    (first : readFrom number texts = .ok es)
    (second : readFrom (number + texts.length) others = .ok fs) :
    readFrom number (texts ++ others) = .ok (es ++ fs) := by
  rw [readFrom, List.zipIdx_append, mapM_eq_ok]
  exact List.rel_append (mapM_eq_ok.1 first) (mapM_eq_ok.1 second)

/-- The labels of lines come after those of the lines before. -/
lemma labels_append (es fs : List Entry) : labels (es ++ fs) = labels es ++ labels fs :=
  List.filterMap_append

/-- The instructions of lines come after those of the lines before. -/
lemma instructions_append (es fs : List Entry) :
    instructions (es ++ fs) = instructions es ++ instructions fs :=
  List.filterMap_append

/-- Entries that are moved have the same labels. -/
lemma labels_moved (n : Nat) (es : List Entry) : labels (es.map (moved n)) = labels es := by
  rw [labels, List.filterMap_map]
  rfl

/-- Entries that are moved have their instructions moved. -/
lemma instructions_moved (n : Nat) (es : List Entry) :
    instructions (es.map (moved n)) = (instructions es).map (Instruction.moved n) := by
  rw [instructions, instructions, List.filterMap_map, List.map_filterMap]
  rfl

end Entry

/-! ### Moving addresses -/

/-- Labels with an offset added to their addresses. -/
def Labels.moved (offset : Nat) (labels : Labels) : Labels :=
  labels.map fun l => (l.1, l.2 + offset)

namespace Labels

/-- An address is looked up in the first labels before the others. -/
lemma get?_append (labels others : Labels) (name : String) :
    get? (labels ++ others) name = (labels.get? name).or (others.get? name) :=
  List.lookup_append

/-- An address is found at its distance. -/
lemma get?_moved (offset : Nat) (labels : Labels) (name : String) :
    (labels.moved offset).get? name = (labels.get? name).map (· + (offset : Int)) := by
  induction labels with
  | nil => rfl
  | cons l labels ih =>
    rw [moved, get?] at ih ⊢
    rw [get?] at ih ⊢
    rw [List.map_cons, List.lookup_cons, List.lookup_cons, ih]
    cases name == l.1 <;> rfl

end Labels

namespace Entry

/-- Lines that start later have their labels moved by as much. -/
lemma addresses_add (address offset : Nat) (es : List Entry) :
    addresses (address + offset) es = (addresses address es).moved offset := by
  induction es generalizing address with
  | nil => rfl
  | cons e es ih =>
    have others := ih (address + e.size)
    rw [addresses_cons, addresses_cons, Nat.add_right_comm, others, Labels.moved, Labels.moved,
      List.map_append]
    cases e.line.label <;> simp

/-- Addresses do not depend on the numbers of lines. -/
lemma addresses_moved (address n : Nat) (es : List Entry) :
    addresses address (es.map (moved n)) = addresses address es := by
  induction es generalizing address with
  | nil => rfl
  | cons e es ih => rw [List.map_cons, addresses_cons, addresses_cons, ih, moved_label, moved_size]

/-- The labels of lines are counted from the size of the lines before. -/
lemma addresses_append (address : Nat) (es fs : List Entry) :
    addresses address (es ++ fs) =
      addresses address es ++ addresses (address + (es.map size).sum) fs := by
  induction es generalizing address with
  | nil => rfl
  | cons e es ih =>
    rw [List.cons_append, addresses_cons, addresses_cons, ih, List.append_assoc, List.map_cons,
      List.sum_cons, Nat.add_assoc]

end Entry

/-! ### Resolving under more labels -/

namespace Slot

/-- A word that is increased by an offset if it comes from a reference. -/
def relocate (offset : Nat) : Slot → Slot → Slot
  | reference _, literal value => literal (value + offset)
  | _, word => word

/-- A slot that is resolved does not need other labels. -/
lemma resolve_append {labels : Labels} {slot word : Slot}
    (resolved : slot.resolve labels = .ok word) (others : Labels) :
    slot.resolve (labels ++ others) = .ok word := by
  obtain ⟨value, filled, rfl⟩ := resolve_eq_ok.1 resolved
  refine resolve_eq_ok.2 ⟨value, ?_, rfl⟩
  cases slot with
  | literal v => exact filled
  | reference name =>
    have found : labels.get? name = some value := filled
    rw [fill?, Labels.get?_append, found]
    rfl

/-- A slot that is resolved under some labels is resolved to a relocated word once they have moved
behind others. -/
lemma resolve_moved {labels others : Labels} {slot word : Slot}
    (resolved : slot.resolve others = .ok word) (disjoint : labels.names.Disjoint others.names)
    (offset : Nat) :
    slot.resolve (labels ++ others.moved offset) = .ok (slot.relocate offset word) := by
  obtain ⟨value, filled, rfl⟩ := resolve_eq_ok.1 resolved
  cases slot with
  | literal v => exact resolve_eq_ok.2 ⟨value, filled, rfl⟩
  | reference name =>
    have found : others.get? name = some value := filled
    have missing : labels.get? name = none := by
      apply Labels.get?_eq_none.2
      intro old
      exact disjoint old (List.mem_map_of_mem (Labels.mem_of_get? found))
    refine resolve_eq_ok.2 ⟨value + offset, ?_, rfl⟩
    rw [fill?, Labels.get?_append, missing, Option.none_or, Labels.get?_moved, found]
    rfl

end Slot

namespace Instruction

/-- An instruction that is moved down by a number of lines and of which the words that come from
references are increased by an offset; the slots are those before resolving. -/
def relocated (n offset : Nat) (slots : List Slot) (i : Instruction) : Instruction :=
  { i with location := i.location.moved n
           trailing := List.zipWith (Slot.relocate offset) slots i.trailing }

/-- An instruction that is resolved does not need other labels. -/
lemma resolve_append {labels : Labels} {i j : Instruction} (resolved : i.resolve labels = .ok j)
    (others : Labels) : i.resolve (labels ++ others) = .ok j := by
  obtain ⟨words, slots, rfl⟩ := resolve_eq_ok_slots.1 resolved
  exact resolve_eq_ok_slots.2 ⟨words, slots.imp fun _ _ ok => Slot.resolve_append ok others, rfl⟩

/-- An instruction that is moved is resolved to the one that is relocated. -/
lemma resolve_moved {labels others : Labels} {i j : Instruction}
    (resolved : i.resolve others = .ok j) (disjoint : labels.names.Disjoint others.names)
    (n offset : Nat) :
    (i.moved n).resolve (labels ++ others.moved offset) =
      .ok (j.relocated n offset i.trailing) := by
  obtain ⟨words, slots, rfl⟩ := resolve_eq_ok_slots.1 resolved
  refine resolve_eq_ok_slots.2 ⟨List.zipWith (Slot.relocate offset) i.trailing words, ?_, rfl⟩
  refine forall₂_zipWith ?_ (List.forall₂_same.2 fun _ _ => rfl) slots
  rintro slot _ word rfl ok
  exact Slot.resolve_moved ok disjoint offset

end Instruction

/-! ### Words from labels -/

namespace Source

/-- The slots of the statement on a line. -/
def lineSlots (text : String) : List Slot :=
  ((Statement.ofTokens? (body (tokens text))).map Statement.slots).getD []

/-- Tells of each word of a source whether it comes from a label. -/
def fromLabels (source : String) : List Bool :=
  (codeLines source).flatMap fun line =>
    false :: (lineSlots line.1).map fun slot => slot.label?.isSome

end Source

open Source (lineSlots fromLabels)

/-- A word that is increased by an offset if it comes from a label. -/
def relocateWord (offset : Nat) (fromLabel : Bool) (word : Int) : Int :=
  if fromLabel then word + offset else word

/-- The word of a slot is relocated if the slot had a label. -/
lemma Slot.relocate_literal (offset : Nat) (slot : Slot) (value : Int) :
    slot.relocate offset (literal value) =
      literal (relocateWord offset slot.label?.isSome value) := by
  cases slot <;> rfl

/-- The words of an instruction are relocated slot by slot. -/
lemma Instruction.words_relocated {i : Instruction} (filled : i.trailing = i.values.map .literal)
    (n offset : Nat) (slots : List Slot) :
    (i.relocated n offset slots).fields.word :: (i.relocated n offset slots).values =
      List.zipWith (relocateWord offset) (false :: slots.map fun slot => slot.label?.isSome)
        (i.fields.word :: i.values) := by
  have trailing : (i.relocated n offset slots).trailing =
      (List.zipWith (relocateWord offset) (slots.map fun slot => slot.label?.isSome)
        i.values).map .literal := by
    show List.zipWith (Slot.relocate offset) slots i.trailing = _
    rw [filled, List.zipWith_map_right, List.map_zipWith, List.zipWith_map_left]
    simp only [Slot.relocate_literal]
  rw [values_eq trailing]
  rfl

/-- The words of relocated instructions, if the instructions come from lines. -/
lemma Instruction.flatten_relocated {ls : List (String × Nat)} {js : List Instruction}
    (lines : List.Forall₂ (fun line j => (lineSlots line.1).length = j.trailing.length ∧
      j.trailing = j.values.map .literal) ls js) (n offset : Nat) :
    (ls.flatMap fun line => false :: (lineSlots line.1).map fun slot => slot.label?.isSome).length =
        (js.map fun j => j.fields.word :: j.values).flatten.length ∧
      ((List.zipWith (fun line j => j.relocated n offset (lineSlots line.1)) ls js).map
          fun i => i.fields.word :: i.values).flatten =
        List.zipWith (relocateWord offset)
          (ls.flatMap fun line => false :: (lineSlots line.1).map fun slot => slot.label?.isSome)
          (js.map fun j => j.fields.word :: j.values).flatten := by
  induction lines with
  | nil => exact ⟨rfl, rfl⟩
  | @cons line j ls js first _ ih =>
    obtain ⟨count, filled⟩ := first
    obtain ⟨length, words⟩ := ih
    have here : (false :: (lineSlots line.1).map fun slot => slot.label?.isSome).length =
        (j.fields.word :: j.values).length := by
      rw [filled, List.length_map] at count
      simp [count]
    constructor
    · rw [List.flatMap_cons, List.map_cons, List.flatten_cons, List.length_append,
        List.length_append, here, length]
    · rw [List.zipWith_cons_cons, List.map_cons, List.flatten_cons, words, words_relocated filled,
        List.flatMap_cons, List.map_cons, List.flatten_cons, List.zipWith_append here]

/-- The slots of a line are those of its statement. -/
lemma lineSlots_eq {text : String} {st : Statement}
    (read : Statement.ofTokens? (body (tokens text)) = some st) : lineSlots text = st.slots := by
  rw [lineSlots, read]
  rfl

/-- The lines of a source with a program have as many slots as their instructions have words after
the first. -/
lemma forall₂_lineSlots {source : String} {p : Program} (ok : assemble source = .ok p) :
    List.Forall₂ (fun line i => (lineSlots line.1).length = i.trailing.length ∧
      i.trailing = i.values.map .literal) (codeLines source) p.instructions := by
  refine (forall₂_assemble ok).imp ?_
  rintro line i ⟨_, st, read, den⟩
  rw [lineSlots_eq read, ← den.length_values, den.filled]
  exact ⟨(List.length_map _).symm, by rw [← den.filled]⟩

/-- The instructions of a source are moved down and resolved under labels of which its own have
moved. -/
lemma resolveAll_moved {source : String} {q : Program} {fs : List Entry} {labels : Labels}
    (read : Entry.readFrom 1 (lines source) = .ok fs)
    (resolved : Instruction.resolveAll (Entry.instructions fs) q.labels = .ok q.instructions)
    (disjoint : labels.names.Disjoint q.labels.names) (n offset : Nat) :
    Instruction.resolveAll (Entry.instructions (fs.map (Entry.moved n)))
        (labels ++ q.labels.moved offset) =
      .ok (List.zipWith (fun line i => i.relocated n offset (lineSlots line.1)) (codeLines source)
        q.instructions) := by
  rw [Instruction.resolveAll, mapM_eq_ok, Entry.instructions_moved, List.forall₂_map_left_iff]
  refine forall₂_zipWith ?_ (Entry.forall₂_instructions read) (mapM_eq_ok.1 resolved)
  rintro line i j ⟨st, statement, built⟩ ok
  obtain ⟨fields, _, rfl⟩ := Option.map_eq_some_iff.1 built
  rw [lineSlots_eq statement]
  exact Instruction.resolve_moved ok disjoint n offset

/-- The program of a source behind which another one stands that starts with line `n`. -/
def Program.link (n : Nat) (p : Program) (source : String) (q : Program) : Program where
  instructions := p.instructions ++ List.zipWith
    (fun line i => i.relocated n p.size (lineSlots line.1)) (codeLines source) q.instructions
  labels := p.labels ++ q.labels.moved p.size

/-- Two sources in a row without a common label are assembled to their programs linked. -/
lemma assemble_append_eq_link {s t : String} {p q : Program} (ends : EndsLine s)
    (left : assemble s = .ok p) (right : assemble t = .ok q)
    (disjoint : (Source.labels s).Disjoint (Source.labels t)) :
    assemble (s ++ t) = .ok (p.link (lines s).length t q) := by
  obtain ⟨es, readLeft, nodupLeft, resolvedLeft, labelsLeft⟩ := assemble_eq_ok.1 left
  obtain ⟨fs, readRight, nodupRight, resolvedRight, labelsRight⟩ := assemble_eq_ok.1 right
  have size := Entry.size_of_resolveAll resolvedLeft
  generalize count : (lines s).length = n
  have entryLabels : (Entry.labels es).Disjoint (Entry.labels fs) := by
    rw [Entry.labels_of_readFrom readLeft, Entry.labels_of_readFrom readRight]
    exact disjoint
  have names : p.labels.names.Disjoint q.labels.names := by
    rw [labelsLeft, labelsRight, Entry.names_addresses, Entry.names_addresses]
    exact entryLabels
  have labels : p.labels ++ q.labels.moved p.size =
      Entry.addresses 0 (es ++ fs.map (Entry.moved n)) := by
    rw [Entry.addresses_append, Entry.addresses_moved, Entry.addresses_add, ← size, ← labelsLeft,
      ← labelsRight]
  refine assemble_eq_ok.2 ⟨es ++ fs.map (Entry.moved n), ?_, ?_, ?_, labels⟩
  · have behind := Entry.readFrom_moved readRight n
    rw [← count] at behind ⊢
    rw [Source.lines_append ends]
    exact Entry.readFrom_append readLeft behind
  · rw [Entry.labels_append, Entry.labels_moved]
    exact List.nodup_append'.2 ⟨nodupLeft, nodupRight, entryLabels⟩
  · rw [← labelsLeft] at resolvedLeft
    rw [← labelsRight] at resolvedRight
    have first := (mapM_eq_ok.1 resolvedLeft).imp fun _ _ ok =>
      Instruction.resolve_append ok (q.labels.moved p.size)
    have second := mapM_eq_ok.1 (resolveAll_moved readRight resolvedRight names n p.size)
    rw [← labels, Entry.instructions_append, Instruction.resolveAll, mapM_eq_ok]
    exact List.rel_append first second

/-- Two sources, of which the first consists of whole lines, are assembled as one if each of them is
assembled and no label is defined in both. The labels of the second are increased by the size of the
first program, its instructions come from lines further down, and of its words exactly those that
come from labels are increased by the size. -/
theorem assemble_append {s t : String} {p q : Program} (ends : EndsLine s)
    (left : assemble s = .ok p) (right : assemble t = .ok q)
    (disjoint : (Source.labels s).Disjoint (Source.labels t)) :
    ∃ r, assemble (s ++ t) = .ok r ∧
      r.labels = p.labels ++ q.labels.moved p.size ∧
      List.Forall₂ (fun line i => (lineSlots line.1).length = i.trailing.length)
        (codeLines t) q.instructions ∧
      r.instructions = p.instructions ++ List.zipWith
        (fun line i => i.relocated (lines s).length p.size (lineSlots line.1))
        (codeLines t) q.instructions ∧
      ∃ ws vs, p.words = .ok ws ∧ q.words = .ok vs ∧ (fromLabels t).length = vs.length ∧
        r.words = .ok (ws ++ List.zipWith (relocateWord p.size) (fromLabels t) vs) := by
  have ok := assemble_append_eq_link ends left right disjoint
  have slots := forall₂_lineSlots right
  obtain ⟨count, words⟩ := Instruction.flatten_relocated slots (lines s).length p.size
  refine ⟨_, ok, rfl, slots.imp fun _ _ h => h.1, rfl, _, _, (words_of_assemble left).1,
    (words_of_assemble right).1, count, ?_⟩
  rw [(words_of_assemble ok).1, Program.link, List.map_append, List.flatten_append, words]
  rfl

/-- A second source with a label, a literal of the same value and a label between brackets, behind a
source of three words. -/
theorem assemble_append_literal :
    let s := "; first\n:a SET [a], b\n:b\n"
    let t := "JSR c\n:c SET [c], [2]\nSET A, 0x20"
    let p : Program := {
      instructions := [⟨.ofLine 2 ":a SET [a], b", ⟨0x1, 0x1e, 0x1f⟩, [.literal 0, .literal 3]⟩]
      labels := [("a", 0), ("b", 3)] }
    let q : Program := {
      instructions := [
        ⟨.ofLine 1 "JSR c", ⟨0x0, 0x01, 0x1f⟩, [.literal 2]⟩,
        ⟨.ofLine 2 ":c SET [c], [2]", ⟨0x1, 0x1e, 0x1e⟩, [.literal 2, .literal 2]⟩,
        ⟨.ofLine 3 "SET A, 0x20", ⟨0x1, 0x00, 0x1f⟩, [.literal 0x20]⟩]
      labels := [("c", 2)] }
    EndsLine s ∧ assemble s = .ok p ∧ assemble t = .ok q ∧
      (Source.labels s).Disjoint (Source.labels t) ∧
      ∃ r, assemble (s ++ t) = .ok r ∧
        r.labels = p.labels ++ q.labels.moved p.size ∧
        List.Forall₂ (fun line i => (lineSlots line.1).length = i.trailing.length)
          (codeLines t) q.instructions ∧
        r.instructions = p.instructions ++ List.zipWith
          (fun line i => i.relocated (lines s).length p.size (lineSlots line.1))
          (codeLines t) q.instructions ∧
        ∃ ws vs, p.words = .ok ws ∧ q.words = .ok vs ∧ (fromLabels t).length = vs.length ∧
          r.words = .ok (ws ++ List.zipWith (relocateWord p.size) (fromLabels t) vs) := by
  intro s t p q
  have ends : EndsLine s := .inr ⟨"; first\n:a SET [a], b\n:b", by decide +kernel⟩
  have left : assemble s = .ok p := toOption_eq_some.1 (by decide +kernel)
  have right : assemble t = .ok q := toOption_eq_some.1 (by decide +kernel)
  have disjoint : (Source.labels s).Disjoint (Source.labels t) := by
    rw [List.disjoint_iff_ne]
    decide +kernel
  exact ⟨ends, left, right, disjoint, assemble_append ends left right disjoint⟩

end Dcpu
