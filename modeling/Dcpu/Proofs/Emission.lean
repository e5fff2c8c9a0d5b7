import Dcpu.Proofs.Assembling

/-!
# Direct emission

The words of a source computed in one go. The size of a line is read off the forms of its operands
(`Source.lineSize`), a label has the sum of the sizes of the lines before its own as its address
(`Source.layout`), and a line gives its instruction word and the words of its operands, with
addresses in place of labels (`Source.emitLine?`).

Assembling in two passes comes to the same. The scan leaves the addresses of the layout because an
instruction has its final size before its references are resolved (`Entry.size_of_read`), and
resolving it gives the words that are emitted directly (`Statement.Denotes.emit?_eq`).
-/

namespace Dcpu
open Results
open Source (Operand body tokens label? lines codeLines)

/-- Tells whether an operand is an integer above 31, a label, or an integer, a label or a sum
between brackets. -/
def Source.Operand.takesWord : Operand → Bool
  | .direct (.integer value) => decide (31 < value)
  | .direct (.label _) | .indirect (.integer _) | .indirect (.label _)
  | .offset _ (some _) _ => true
  | .direct (.register _) | .indirect (.register _) | .offset _ none _ | .invalid _ => false

lemma Source.Operand.isSome_slot? (o : Operand) : o.slot?.isSome = o.takesWord := by
  match o with
  | .direct (.integer value) =>
    simp only [slot?, takesWord]
    split <;> simp <;> omega
  | .direct (.register _) | .direct (.label _) | .indirect (.integer _) | .indirect (.register _)
  | .indirect (.label _) | .offset _ (some _) _ | .offset _ none _ | .invalid _ => rfl

namespace Statement

/-- The number of words of a statement. -/
def size (st : Statement) : Nat :=
  1 + st.operands.countP Operand.takesWord

/-- The words of a statement under the addresses of labels: the instruction word, the word of
operand A and the word of operand B. -/
def emit? (labels : Labels) (st : Statement) : Option (List Int) := do
  let fields ← st.fields?
  let values ← st.slots.mapM (Slot.fill? labels)
  return fields.word :: values

lemma length_slots (st : Statement) : 1 + st.slots.length = st.size := by
  rw [slots, size, List.length_filterMap_eq_countP]
  simp only [Operand.isSome_slot?]

lemma Denotes.emit?_eq {st : Statement} {labels : Labels} {i : Instruction}
    (den : st.Denotes labels i) : st.emit? labels = some (i.fields.word :: i.values) := by
  rw [emit?, den.fields, den.values]
  rfl

lemma Denotes.length_words {st : Statement} {labels : Labels} {i : Instruction}
    (den : st.Denotes labels i) : (i.fields.word :: i.values).length = st.size := by
  rw [List.length_cons, den.length_values, Nat.add_comm, length_slots]

end Statement

namespace Source

/-- The number of words of a line. -/
def lineSize (text : String) : Nat :=
  ((Statement.ofTokens? (body (tokens text))).map Statement.size).getD 0

/-- The number of words of the first lines. -/
def wordsBefore (texts : List String) (n : Nat) : Nat :=
  ((texts.take n).map lineSize).sum

lemma wordsBefore_append_length (before rest : List String) :
    wordsBefore (before ++ rest) before.length = (before.map lineSize).sum := by
  rw [wordsBefore, List.take_left]

/-- The labels of a source in the order of their definition, each with the number of words before
the line that defines it. -/
def layout (source : String) : Labels :=
  (lines source).zipIdx.filterMap fun line =>
    (label? (tokens line.1)).map fun name => (name, (wordsBefore (lines source) line.2 : Int))

/-- The words of a line under the addresses of labels. -/
def emitLine? (labels : Labels) (text : String) : Option (List Int) :=
  (Statement.ofTokens? (body (tokens text))).bind (Statement.emit? labels)

end Source

open Source (lineSize wordsBefore layout emitLine?)

namespace Entry

/-- The size of a line that has been read is that of its statement. -/
lemma size_of_read {number : Nat} {text : String} {e : Entry} (ok : read number text = .ok e) :
    e.size = lineSize text := by
  obtain ⟨_, _, ⟨empty, absent⟩ | ⟨st, i, statement, built, present⟩⟩ := read_eq_ok.1 ok
  · rw [size, absent, lineSize, empty]
    rfl
  · obtain ⟨fields, _, rfl⟩ := Option.map_eq_some_iff.1 built
    rw [size, present, lineSize, statement]
    exact st.length_slots

/-- The addresses of the labels of lines that stand behind other lines. -/
lemma addresses_of_readFrom {number : Nat} {texts : List String} {es : List Entry}
    (ok : readFrom number texts = .ok es) (before : List String) :
    addresses (wordsBefore (before ++ texts) before.length) es =
      (texts.zipIdx before.length).filterMap fun line =>
        (label? (tokens line.1)).map fun name =>
          (name, (wordsBefore (before ++ texts) line.2 : Int)) := by
  -- All lines together stay the same: a step moves one of them over to those before.
  induction texts generalizing number before es with
  | nil =>
    cases ok
    rfl
  | cons text texts ih =>
    obtain ⟨e, es, first, rest, rfl⟩ := readFrom_cons_eq_ok.1 ok
    have behind := ih rest (before ++ [text])
    have address : wordsBefore (before ++ [text] ++ texts) (before ++ [text]).length =
        wordsBefore (before ++ text :: texts) before.length + e.size := by
      rw [Source.wordsBefore_append_length, Source.wordsBefore_append_length, size_of_read first]
      simp
    rw [address, List.append_assoc, List.singleton_append, List.length_append,
      List.length_singleton] at behind
    rw [addresses_cons, behind, label_of_read first, List.zipIdx_cons, List.filterMap_cons]
    cases label? (tokens text) <;> rfl

end Entry

/-- Assembling gives the labels of the layout and the words that are emitted directly, one block for
every line with a mnemonic, and every instruction keeps the number and the text of its line. -/
theorem assemble_eq_emission {source : String} {p : Program} (ok : assemble source = .ok p) :
    p.labels = layout source ∧
      (∃ blocks,
        (codeLines source).mapM (fun line => emitLine? (layout source) line.1) =
          some blocks ∧
        blocks.map List.length = (codeLines source).map (fun line => lineSize line.1) ∧
        p.words = .ok blocks.flatten) ∧
      p.instructions.map Instruction.location =
        (codeLines source).map fun line => .ofLine line.2 line.1 := by
  have labels : p.labels = layout source := by
    obtain ⟨es, read, _, _, labels⟩ := assemble_eq_ok.1 ok
    rw [labels]
    exact Entry.addresses_of_readFrom read []
  have lines := forall₂_assemble ok
  rw [labels] at lines
  refine ⟨labels, ⟨p.instructions.map fun i => i.fields.word :: i.values, ?_, ?_, ?_⟩, ?_⟩
  · rw [mapM_eq_some, List.forall₂_map_right_iff]
    refine lines.imp ?_
    rintro line i ⟨_, st, statement, den⟩
    rw [emitLine?, statement]
    exact den.emit?_eq
  · rw [← List.forall₂_eq_eq_eq, List.map_map, List.forall₂_map_left_iff,
      List.forall₂_map_right_iff]
    refine (lines.imp ?_).flip
    rintro line i ⟨_, st, statement, den⟩
    change (i.fields.word :: i.values).length = lineSize line.1
    rw [lineSize, statement]
    exact den.length_words
  · apply Program.words_eq_ok
    intro i mem
    obtain ⟨_, _, _, st, _, den⟩ := exists_of_mem_right lines mem
    exact den.words_eq
  · rw [← List.forall₂_eq_eq_eq, List.forall₂_map_left_iff, List.forall₂_map_right_iff]
    exact (lines.imp fun _ _ h => h.1).flip

/-- Two labels of one address, a label at the end of the source, and references to the line itself
and to a line behind it. -/
theorem assemble_eq_emission_forward :
    let source := ":first\n:second SET [end], second\nADD A, 32\n:end"
    let p : Program := {
      instructions := [
        ⟨.ofLine 2 ":second SET [end], second", ⟨0x1, 0x1e, 0x1f⟩, [.literal 5, .literal 0]⟩,
        ⟨.ofLine 3 "ADD A, 32", ⟨0x2, 0x00, 0x1f⟩, [.literal 32]⟩]
      labels := [("first", 0), ("second", 0), ("end", 5)] }
    assemble source = .ok p ∧ p.labels = layout source ∧
      (∃ blocks,
        (codeLines source).mapM (fun line => emitLine? (layout source) line.1) = some blocks ∧
        blocks.map List.length = (codeLines source).map (fun line => lineSize line.1) ∧
        p.words = .ok blocks.flatten) ∧
      p.instructions.map Instruction.location =
        (codeLines source).map fun line => .ofLine line.2 line.1 := by
  intro source p
  have ok : assemble source = .ok p := toOption_eq_some.1 (by decide +kernel)
  exact ⟨ok, assemble_eq_emission ok⟩

end Dcpu
